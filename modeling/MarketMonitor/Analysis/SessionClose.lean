import MarketMonitor.Analysis.MetricRecording
import MarketMonitor.Analysis.OfficialGate
import MarketMonitor.Analysis.ThresholdRegistry
import MarketMonitor.Analysis.WorkerTicks

/-!
# The cycle at the session close

The worker starts a cycle for the closing minute at any tick of the grace period. The
orchestrator lets it pass its phase check when the market is closed and the official runner
says that the observation is the final close, which it compares with the tick itself : the
cycle passes exactly when the tick is at the close (`close_cycle_admitted_iff`).
-/

namespace MarketMonitor

open Json (Value)
open Program

/-! ## The official runtime -/

def shadowGuardianThresholdVersion : String := "guardian-thresholds-v1.0-prod"
def shadowScoutThresholdVersion : String := "scout-thresholds-v1.0-prod"

/-- `ThresholdRegistry.resolve_explicit(family, version, at)`. -/
def resolveExplicit (tables : ThresholdTables) (family : ThresholdFamily) (version : String)
    (at_ : Instant) : Except Exn ThresholdSet :=
  match tables.versionNamed? family version with
  | none => .error (thresholdUnavailable
      ("unknown " ++ family.text ++ " threshold version " ++ version))
  | some row => setFromRow tables row family version (some at_)

/-- What the worker process runs its cycles with : `OfficialRuntimeSettings` and the services
of `NativeTdxOfficialPipeline` that decide the close. -/
structure OfficialRuntime where
  officialEnabled : Bool
  thresholdActivation : ℕ
  subjectUid : Uid
  clock : String → TradingCalendar
  thresholds : ThresholdTables
  activation_valid : officialEnabled = false → thresholdActivation = 0
  subject_named : blank subjectUid = false

namespace OfficialRuntime

variable (r : OfficialRuntime)

/-- The disposition of the cycles of a `NativeTdxCycleRunner`. -/
def evaluationDisposition : EvaluationDisposition :=
  if r.officialEnabled ∧ 0 < r.thresholdActivation then .official else .shadow

/-- The pair of thresholds of a disposition. -/
def thresholdPair (observedAt : Instant) : Except Exn (ThresholdSet × ThresholdSet) :=
  if r.evaluationDisposition = .shadow then do
    let guardian ← resolveExplicit r.thresholds .guardian shadowGuardianThresholdVersion observedAt
    let scout ← resolveExplicit r.thresholds .scout shadowScoutThresholdVersion observedAt
    return (guardian, scout)
  else do
    let guardian ← resolveOfficial r.thresholds .guardian observedAt
    let scout ← resolveOfficial r.thresholds .scout observedAt
    return (guardian, scout)

/-- `market_phase(observed_at)`. -/
def marketPhase (observedAt : Instant) : String := (r.clock "SSE").phaseAt observedAt

/-- The data that names a pair of thresholds. -/
def pairData (activationCount thresholdActivation : ℕ) (pair : ThresholdSet × ThresholdSet) :
    Details :=
  [("activation_count", .int activationCount), ("threshold_activation", .int thresholdActivation),
    ("guardian_threshold_uid", .str pair.1.uid), ("scout_threshold_uid", .str pair.2.uid),
    ("guardian_threshold_version", .str pair.1.version),
    ("scout_threshold_version", .str pair.2.version)]

/-- `threshold_readiness(observed_at)`. -/
def thresholdReadiness (observedAt : Instant) : StageStatus :=
  if r.evaluationDisposition = .shadow then
    match r.thresholdPair observedAt with
    | .error e => ⟨false, .fit, e.message, [("activation_count", .int 0)]⟩
    | .ok pair => ⟨true, .fit, "explicit threshold definitions resolved for SHADOW",
        pairData 0 0 pair⟩
  else if r.thresholdActivation = 0 then
    ⟨false, .fit, "threshold activation is disabled",
      [("activation_count", .int 0), ("threshold_activation", .int 0)]⟩
  else
    match r.thresholdPair observedAt with
    | .error e => ⟨false, .fit, e.message,
        [("activation_count", .int 0), ("threshold_activation", .int r.thresholdActivation)]⟩
    | .ok pair =>
      let finalClose := (r.clock "SSE").finalContinuousClose observedAt
      ⟨true, .fit, "", pairData 2 r.thresholdActivation pair ++
        [("final_close", .bool (finalClose = some observedAt))]⟩

theorem disposition_valid :
    r.evaluationDisposition = .official ∨ r.evaluationDisposition = .shadow := by
  unfold evaluationDisposition
  split
  · exact Or.inl rfl
  · exact Or.inr rfl

/-- A call of a `NativeTdxCycleRunner` : the cycle of its orchestrator. -/
def cycle (cycleKey : String) (observedAt : Instant) (nonce : Uid) : CycleInput where
  config :=
    { officialEnabled := r.evaluationDisposition = .official
      channels := ["IN_APP"]
      deliverAfterCommit := true
      minimumActivationCount := 2
      evaluationDisposition := r.evaluationDisposition
      channels_valid := inApp_valid
      pair := two_activations
      disposition_valid := r.disposition_valid }
  subjectUid := r.subjectUid
  cycleKey := cycleKey
  observedAt := observedAt
  nonce := nonce

/-- An answer of the phase or the thresholds is that of the runtime. -/
def Answers : Event CycleCall CycleCall.Answer CycleError → Prop
  | ⟨.marketPhase observedAt, answer⟩ => answer = .ok (r.marketPhase observedAt)
  | ⟨.readiness .threshold observedAt, answer⟩ => answer = .ok (r.thresholdReadiness observedAt)
  | _ => True

/-- However the rest of the pipeline answers, the cycle of a minute is not blocked for the
phase of the market. -/
def Admits (minute observedAt : Instant) (nonce : Uid) : Prop :=
  ∀ log result,
    Program.Trace ((r.cycle (cycleKey minute) observedAt nonce).run false) log (.pure result) →
    (∀ event ∈ log, r.Answers event) → ¬(result.status = .blocked ∧ result.phase = "PHASE")

end OfficialRuntime

/-! ## Results of other gates -/

/-- A cycle that is not blocked for the phase of the market. -/
abbrev NotPhase : CycleHistory → Except CycleError OfficialCycleResult → Prop :=
  fun _ outcome => ∀ result, outcome = .ok result → result.phase ≠ "PHASE"

/-- Any call. -/
abbrev AnyCall : CycleHistory → CycleCall → Prop := fun _ _ => True

section

variable {c : CycleInput} {history : CycleHistory}

theorem holds_ask (op : CycleCall) (history : CycleHistory) :
    (ask op).Holds AnyCall Anything history :=
  holds_perform trivial fun _ => trivial

theorem notPhase_pure {result : OfficialCycleResult} (h : result.phase ≠ "PHASE") :
    (Program.pure result : CycleProgram OfficialCycleResult).Holds AnyCall NotPhase history := by
  rintro result' ⟨⟩
  exact h

theorem notPhase_error (history : CycleHistory) (e : CycleError) :
    NotPhase history (.error e) := by
  rintro result ⟨⟩

theorem notPhase_recordFailure (checkpoint : CycleCheckpoint) (e : CycleError) :
    (recordFailure checkpoint e : CycleProgram OfficialCycleResult).Holds AnyCall NotPhase
      history :=
  (holds_ask _ _).bind (fun _ _ _ => notPhase_error _ _) fun history _ _ => notPhase_error history e

/-- A part of a cycle, after which the cycle is not blocked for its phase. -/
theorem notPhase_handle {α : Type} {p : CycleProgram α} {checkpoint : CycleCheckpoint}
    {onOk : α → CycleProgram OfficialCycleResult} (h : p.Holds AnyCall Anything history)
    (hok : ∀ history a, (onOk a).Holds AnyCall NotPhase history) :
    (p.handle (recordFailure checkpoint) onOk).Holds AnyCall NotPhase history :=
  h.handle (fun _ _ _ => notPhase_recordFailure _ _) fun history a _ => hok history a

theorem notPhase_ask {op : CycleCall} {f : op.Answer → CycleProgram OfficialCycleResult}
    (hok : ∀ history a, (f a).Holds AnyCall NotPhase history) :
    (ask op >>= f).Holds AnyCall NotPhase history :=
  (holds_ask _ _).bind (fun _ _ _ => notPhase_error _ _) fun history a _ => hok history a

theorem holds_anything {α : Type} (p : CycleProgram α) (history : CycleHistory) :
    p.Holds AnyCall Anything history := by
  induction p generalizing history with
  | pure a => trivial
  | throw e => trivial
  | call op next ih => exact ⟨trivial, fun answer => ih answer _⟩

/-- After the metrics no result is about the phase. -/
theorem notPhase_afterMetrics (snapshotUid : Uid) (metric : OfficialMetricOutput)
    (checkpoint : CycleCheckpoint) :
    (c.afterMetrics snapshotUid metric checkpoint).Holds AnyCall NotPhase history := by
  have hmetric : "METRIC" ≠ "PHASE" := by decide
  have hcompleted : "COMPLETED" ≠ "PHASE" := by decide
  unfold CycleInput.afterMetrics CycleInput.commitSnapshot
  split
  · exact notPhase_handle (holds_anything _ _) fun _ _ => notPhase_pure hmetric
  split
  · exact notPhase_handle (holds_anything _ _) fun _ _ => notPhase_pure hmetric
  · exact notPhase_handle (holds_anything _ _) fun _ _ =>
      notPhase_handle (holds_anything _ _) fun _ _ =>
      notPhase_handle (holds_anything _ _) fun _ _ =>
      notPhase_handle (holds_anything _ _) fun _ _ => notPhase_pure hcompleted

theorem notPhase_runOfficial (threshold : StageStatus) :
    (c.runOfficial threshold).Holds AnyCall NotPhase history := by
  refine notPhase_ask fun history checkpoint => ?_
  dsimp only
  split
  · exact notPhase_pure (by decide : "COMPLETED" ≠ "PHASE")
  · exact notPhase_handle (holds_anything _ _) fun _ _ =>
      notPhase_handle (holds_anything _ _) fun _ _ => notPhase_afterMetrics _ _ _

theorem notPhase_runShadow (threshold : StageStatus) (phase : String) :
    (c.runShadow threshold phase).Holds AnyCall NotPhase history := by
  refine notPhase_ask fun history snapshotUid => notPhase_ask fun history metric => ?_
  dsimp only
  split
  · exact notPhase_pure (by decide : "METRIC" ≠ "PHASE")
  · split
    · exact notPhase_pure (by decide : "METRIC" ≠ "PHASE")
    · exact notPhase_pure (by decide : "COMPLETED" ≠ "PHASE")

/-- A cycle that is blocked for the phase of the market had its phase or its final close
refused. -/
def PhaseOutcome (c : CycleInput) : CycleHistory → Except CycleError OfficialCycleResult → Prop :=
  fun history outcome => ∀ result, outcome = .ok result → result.phase = "PHASE" →
    ∃ phase, Answered history (.marketPhase c.observedAt) phase ∧ (c.phaseGate phase ≠ none ∨
      phase = "CLOSED" ∧ ∃ threshold,
        Answered history (.readiness .threshold c.observedAt) threshold ∧
        threshold.ready = true ∧ threshold.data.get "final_close" ≠ some (.bool true))

theorem NotPhase.phaseOutcome {outcome : Except CycleError OfficialCycleResult}
    (h : NotPhase history outcome) : PhaseOutcome c history outcome :=
  fun result hresult hphase => absurd hphase (h result hresult)

/-- A question that raises has a result of its own. -/
theorem phaseOutcome_ask {op : CycleCall} {f : op.Answer → CycleProgram OfficialCycleResult}
    (hok : ∀ a, (f a).Holds AnyCall (PhaseOutcome c) (history ++ [⟨op, .ok a⟩])) :
    (ask op >>= f).Holds AnyCall (PhaseOutcome c) history := by
  refine (holds_perform (Q := fun history' outcome => ∀ a, outcome = .ok a →
    history' = history ++ [⟨op, .ok a⟩]) trivial ?_).bind ?_ ?_
  · rintro answer a rfl
    rfl
  · exact fun history e _ => (notPhase_error history e).phaseOutcome
  · rintro _ a hhistory
    rw [hhistory a rfl]
    exact hok a

theorem phaseOutcome_passing {name : String} (hname : name ≠ "PHASE") {stage : ReadinessStage}
    {failureReason : Option String} {rest : CycleProgram OfficialCycleResult}
    (hrest : ∀ history, rest.Holds AnyCall (PhaseOutcome c) history) :
    (c.passing name stage failureReason rest).Holds AnyCall (PhaseOutcome c) history := by
  refine phaseOutcome_ask fun status => ?_
  unfold CycleInput.stageGate
  split_ifs
  · exact (notPhase_pure hname).mono fun _ _ h => h.phaseOutcome
  · exact hrest _
  · exact (notPhase_pure hname).mono fun _ _ h => h.phaseOutcome

theorem phaseGate_phase {phase : String} {blocked : OfficialCycleResult}
    (h : c.phaseGate phase = some blocked) :
    blocked.status = .blocked ∧ blocked.phase = "PHASE" := by
  unfold CycleInput.phaseGate at h
  split_ifs at h
  all_goals
    cases h
    exact ⟨rfl, rfl⟩

/-- The gate blocks at the phase only when the market is closed without a final close. -/
theorem thresholdGate_phase {phase : String} {threshold : StageStatus}
    {blocked : OfficialCycleResult} (h : c.thresholdGate phase threshold = some blocked)
    (hphase : blocked.phase = "PHASE") : phase = "CLOSED" ∧ threshold.ready = true ∧
      threshold.data.get "final_close" ≠ some (.bool true) := by
  have hthreshold : "THRESHOLD" ≠ "PHASE" := by decide
  unfold CycleInput.thresholdGate at h
  split_ifs at h with hready hfinal hfitness
  · cases h
    exact absurd hphase hthreshold
  · exact ⟨hfinal.1, Bool.eq_true_of_not_eq_false fun hnot => hready (Or.inl hnot), hfinal.2⟩
  · cases h
    exact absurd hphase hthreshold

/-- The outcome of a run that has passed its stages. -/
theorem phaseOutcome_runPhase : c.runPhase.Holds AnyCall (PhaseOutcome c) history := by
  refine phaseOutcome_ask fun phase => ?_
  cases hgate : c.phaseGate phase with
  | some blocked =>
    rintro result ⟨⟩ -
    exact ⟨phase, answered_last _ _ _, Or.inl (by rw [hgate]; rintro ⟨⟩)⟩
  | none =>
    refine phaseOutcome_ask fun threshold => ?_
    cases hgate' : c.thresholdGate phase threshold with
    | some blocked =>
      rintro result ⟨⟩ hresult
      obtain ⟨hclosed, hready, hfinal⟩ := thresholdGate_phase hgate' hresult
      exact ⟨phase, (answered_last _ _ _).append _, Or.inr ⟨hclosed, threshold,
        answered_last _ _ _, hready, hfinal⟩⟩
    | none =>
      change Holds AnyCall (PhaseOutcome c) (ite _ _ _) _
      split
      · exact (notPhase_runShadow threshold phase).mono fun _ _ h => h.phaseOutcome
      · exact (notPhase_runOfficial threshold).mono fun _ _ h => h.phaseOutcome

/-- The outcome of a run. -/
theorem phaseOutcome_run (c : CycleInput) :
    (c.run false).Holds AnyCall (PhaseOutcome c) [] := by
  have hstages : ∀ history, c.runStages.Holds AnyCall (PhaseOutcome c) history := by
    intro history
    refine phaseOutcome_passing (by decide) fun history => ?_
    unfold CycleInput.gate
    split
    · rename_i blocked hblocked
      split at hblocked
      · cases hblocked
        exact (notPhase_pure (by decide : "BOOT" ≠ "PHASE")).mono fun _ _ h => h.phaseOutcome
      · cases hblocked
    · exact phaseOutcome_passing (by decide) fun _ => phaseOutcome_passing (by decide) fun _ =>
        phaseOutcome_passing (by decide) fun _ => phaseOutcome_passing (by decide) fun _ =>
        phaseOutcome_passing (by decide) fun _ => phaseOutcome_runPhase
  unfold CycleInput.run
  rw [if_neg Bool.false_ne_true]
  split
  · exact (notPhase_error _ _).phaseOutcome
  refine phaseOutcome_ask fun existing => ?_
  split
  · split
    · exact (notPhase_pure (by decide : "COMPLETED" ≠ "PHASE")).mono fun _ _ h => h.phaseOutcome
    · exact hstages _
  · exact hstages _

end

/-! ## A cycle that reaches the phase of the market -/

/-- A stage that is ready. -/
def readyStage : StageStatus := ⟨true, .fit, "", []⟩

/-- The calls before the phase of the market, when nothing stops the cycle. -/
def stageEvents (c : CycleInput) : CycleHistory :=
  ⟨.journalGet c.cycleKey c.subjectUid, .ok none⟩ ::
    [ReadinessStage.boot, .calendar, .reference, .provider, .historical, .minuteCohort].map
      fun stage => ⟨.readiness stage c.observedAt, .ok readyStage⟩

section

variable {c : CycleInput} {log : CycleHistory} {p : CycleProgram OfficialCycleResult}

theorem trace_passing {name : String} {stage : ReadinessStage} {failureReason : Option String}
    {rest : CycleProgram OfficialCycleResult} (h : Program.Trace rest log p) :
    Program.Trace (c.passing name stage failureReason rest)
      (⟨.readiness stage c.observedAt, .ok readyStage⟩ :: log) p :=
  Program.Trace.perform_bind h

/-- A run passes its stages before it asks the phase. -/
theorem trace_stages (hsubject : blank c.subjectUid = false) (hkey : blank c.cycleKey = false)
    (henabled : ¬(c.config.evaluationDisposition = .official ∧ c.config.officialEnabled = false))
    (h : Program.Trace c.runPhase log p) :
    Program.Trace (c.run false) (stageEvents c ++ log) p := by
  unfold CycleInput.run
  rw [if_neg Bool.false_ne_true, if_neg (by rw [hsubject, hkey]; simp)]
  change Program.Trace _
    ((⟨.journalGet c.cycleKey c.subjectUid, .ok (none : Option CycleCheckpoint)⟩ :
    Event CycleCall CycleCall.Answer CycleError) :: _) _
  refine Program.Trace.cons ?_
  change Program.Trace c.runStages _ _
  refine trace_passing ?_
  rw [if_neg henabled]
  exact trace_passing (trace_passing (trace_passing (trace_passing (trace_passing h))))

end

/-! ## The final close -/

namespace OfficialRuntime

variable {r : OfficialRuntime} {t m : Instant} {nonce : Uid}

theorem thresholdReadiness_of_error {e : Exn} (h : r.thresholdPair t = .error e) :
    (r.thresholdReadiness t).ready = false := by
  unfold thresholdReadiness
  rw [h]
  split
  · rfl
  · split
    · rfl
    · rfl

/-- The thresholds of a runtime name the final close when the cycle is official and at the
close. -/
theorem thresholdReadiness_of_ok {pair : ThresholdSet × ThresholdSet}
    (h : r.thresholdPair t = .ok pair) : (r.thresholdReadiness t).ready = true ∧
      (r.evaluationDisposition = .official → activationCount (r.thresholdReadiness t).data = 2) ∧
      ((r.thresholdReadiness t).data.get "final_close" = some (.bool true) ↔
        r.evaluationDisposition = .official ∧
          (r.clock "SSE").finalContinuousClose t = some t) := by
  unfold thresholdReadiness
  rw [h]
  by_cases hshadow : r.evaluationDisposition = .shadow
  · rw [if_pos hshadow, hshadow]
    have hget : Details.get (pairData 0 0 pair) "final_close" = none := rfl
    exact ⟨rfl, fun hne => absurd hne (by decide), fun hclose => (by cases hget.symm.trans hclose),
      fun hne => absurd hne.1 (by decide)⟩
  · have hofficial := r.disposition_valid.resolve_right hshadow
    have hactivation : r.thresholdActivation ≠ 0 := by
      unfold evaluationDisposition at hofficial
      split at hofficial
      · rename_i hpos
        exact hpos.2.ne'
      · cases hofficial
    rw [if_neg hshadow, if_neg hactivation, hofficial]
    refine ⟨rfl, fun _ => rfl, ?_⟩
    have hget : ∀ b : Bool, Details.get (pairData 2 r.thresholdActivation pair ++
        [("final_close", .bool b)]) "final_close" = some (.bool b) := fun _ => rfl
    dsimp only
    rw [hget, Option.some.injEq, Value.bool.injEq, decide_eq_true_eq]
    exact ⟨fun hclose => ⟨rfl, hclose⟩, fun hclose => hclose.2⟩

theorem blank_marketMinute (t : Instant) : blank (marketMinute t) = false := by
  unfold blank marketMinute
  dsimp only
  rw [String.toList_ofList, List.all_eq_false]
  exact ⟨'-', by simp, by decide⟩

/-- The keys of cycles are not blank. -/
theorem blank_cycleKey (m : Instant) : blank (cycleKey m) = false :=
  blank_marketMinute (m + chinaOffset)

/-- The events that bring a cycle to a phase of the market. -/
theorem answers_stageEvents (minute : Instant) :
    ∀ event ∈ stageEvents (r.cycle (cycleKey minute) t nonce), r.Answers event := by
  intro event hevent
  rcases List.mem_cons.mp hevent with rfl | hevent
  · trivial
  · obtain ⟨stage, hstage, rfl⟩ := List.mem_map.mp hevent
    cases stage with
    | threshold => exact absurd hstage (by decide)
    | _ => trivial

/-- A runtime admits a cycle only if no gate on the phase blocks it. -/
theorem Admits.not_blocked {log : CycleHistory} {result : OfficialCycleResult}
    (h : r.Admits m t nonce)
    (htrace : Program.Trace (r.cycle (cycleKey m) t nonce).runPhase log (.pure result))
    (hanswers : ∀ event ∈ log, r.Answers event) :
    ¬(result.status = .blocked ∧ result.phase = "PHASE") := by
  have henabled : ¬((r.cycle (cycleKey m) t nonce).config.evaluationDisposition = .official ∧
      (r.cycle (cycleKey m) t nonce).config.officialEnabled = false) :=
    fun hnot => of_decide_eq_false hnot.2 hnot.1
  refine h _ result (trace_stages r.subject_named (blank_cycleKey m) henabled htrace) ?_
  intro event hevent
  rcases List.mem_append.mp hevent with hevent | hevent
  · exact answers_stageEvents m event hevent
  · exact hanswers event hevent

end OfficialRuntime

/-- The worker starts the cycle of a final close outside the continuous phases. -/
theorem not_continuous_of_session_close {ρ : Type} {w : ContinuousProductionWorker ρ}
    {t m : Instant} (h : w.target t = (some m, "READY_AT_SESSION_CLOSE")) :
    (w.clock "SSE").phaseAt t ∉ continuousSessionPhases := by
  intro hphase
  unfold ContinuousProductionWorker.target at h
  dsimp only at h
  split at h
  · cases h
  split at h
  · split at h
    · cases h
    · exact absurd (Prod.mk.inj h).2 (by decide)
  · cases h

/-- The gates on the phase of the market at the final close. -/
theorem OfficialRuntime.admits_iff {r : OfficialRuntime} {t m : Instant} (nonce : Uid)
    (hcontinuous : r.marketPhase t ∉ continuousSessionPhases)
    (hfinal : (r.clock "SSE").finalContinuousClose t = some m) :
    r.Admits m t nonce ↔ r.marketPhase t = "CLOSED" ∧
      ((r.thresholdPair t).isOk = true → r.evaluationDisposition = .official ∧ t = m) := by
  constructor
  · intro h
    have hclosed : r.marketPhase t = "CLOSED" := by
      by_contra hne
      have hgate : (r.cycle (cycleKey m) t nonce).phaseGate (r.marketPhase t) ≠ none := by
        intro hnone
        rcases phaseGate_eq_none hnone with ham | hpm | hclosed
        · exact hcontinuous (ham ▸ by decide)
        · exact hcontinuous (hpm ▸ by decide)
        · exact hne hclosed
      obtain ⟨blocked, hblocked⟩ := Option.ne_none_iff_exists'.mp hgate
      have htrace : Program.Trace (r.cycle (cycleKey m) t nonce).runPhase
          [⟨.marketPhase t, .ok (r.marketPhase t)⟩] (.pure blocked) := by
        refine Program.Trace.perform_bind ?_
        rw [hblocked]
        exact Program.Trace.nil _
      refine h.not_blocked htrace (fun event hevent => ?_) (phaseGate_phase hblocked)
      rw [List.mem_singleton.mp hevent]
      rfl
    refine ⟨hclosed, fun hok => ?_⟩
    obtain ⟨pair, hpair⟩ := Transaction.eq_ok_of_except_isOk hok
    obtain ⟨hready, hcount, hclose⟩ := OfficialRuntime.thresholdReadiness_of_ok hpair
    by_contra hnot
    have hgate : (r.cycle (cycleKey m) t nonce).thresholdGate (r.marketPhase t)
        (r.thresholdReadiness t) = some ((r.cycle (cycleKey m) t nonce).blocked "PHASE"
          "FINAL_EVALUATION_NOT_PERMITTED" []) := by
      unfold CycleInput.thresholdGate
      rw [if_neg, if_pos]
      · refine ⟨hclosed, fun htrue => hnot ?_⟩
        obtain ⟨hofficial, hsame⟩ := hclose.mp htrue
        exact ⟨hofficial, Option.some.inj (hsame.symm.trans hfinal)⟩
      · rintro (hnot | ⟨hofficial, hlt⟩)
        · exact absurd hready (by rw [hnot]; decide)
        · exact absurd hlt (by rw [hcount hofficial]; exact lt_irrefl 2)
    have htrace : Program.Trace (r.cycle (cycleKey m) t nonce).runPhase
        [⟨.marketPhase t, .ok (r.marketPhase t)⟩,
          ⟨.readiness .threshold t, .ok (r.thresholdReadiness t)⟩]
        (.pure ((r.cycle (cycleKey m) t nonce).blocked "PHASE"
          "FINAL_EVALUATION_NOT_PERMITTED" [])) := by
      refine Program.Trace.perform_bind ?_
      rw [hclosed]
      refine Program.Trace.perform_bind ?_
      rw [← hclosed, hgate]
      exact Program.Trace.nil _
    refine h.not_blocked htrace (fun event hevent => ?_) ⟨rfl, rfl⟩
    rcases List.mem_cons.mp hevent with rfl | hevent
    · rfl
    · rw [List.mem_singleton.mp hevent]
      rfl
  · rintro ⟨hclosed, hwhen⟩ log result htrace hanswers ⟨-, hphase⟩
    obtain ⟨phase, hmem, hrefused⟩ := (phaseOutcome_run _).of_pure htrace result rfl hphase
    have hsame : phase = r.marketPhase t := Except.ok.inj (hanswers _ hmem)
    rcases hrefused with hgate | ⟨-, threshold, hmem', hready, hnot⟩
    · rw [hsame, hclosed] at hgate
      exact hgate rfl
    · have hthreshold : threshold = r.thresholdReadiness t := Except.ok.inj (hanswers _ hmem')
      rw [hthreshold] at hready hnot
      cases hpair : r.thresholdPair t with
      | error e =>
        rw [OfficialRuntime.thresholdReadiness_of_error hpair] at hready
        cases hready
      | ok pair =>
        obtain ⟨hofficial, rfl⟩ := hwhen (by rw [hpair]; rfl)
        exact hnot ((OfficialRuntime.thresholdReadiness_of_ok hpair).2.2.mpr ⟨hofficial, hfinal⟩)

/-- The cycle the worker starts for the final close is admitted exactly when the market is
closed and, if the thresholds of the cycle resolve, the cycle is official and the tick is at
the close. -/
theorem close_cycle_admitted_iff {ρ : Type} (w : ContinuousProductionWorker ρ)
    (r : OfficialRuntime) {t m : Instant} (nonce : Uid) (hclock : w.clock = r.clock)
    (htarget : w.target t = (some m, "READY_AT_SESSION_CLOSE"))
    (hfinal : (r.clock "SSE").finalContinuousClose t = some m) :
    r.Admits m t nonce ↔ r.marketPhase t = "CLOSED" ∧
      ((r.thresholdPair t).isOk = true → r.evaluationDisposition = .official ∧ t = m) := by
  have hcontinuous := not_continuous_of_session_close htarget
  rw [hclock] at hcontinuous
  exact OfficialRuntime.admits_iff nonce hcontinuous hfinal

/-! ## A tick after the close -/

/-- A day with a morning and an afternoon. -/
def tradingDay : TradingCalendar :=
  oneDay [⟨"CONTINUOUS_AM", minutes 90, minutes 210⟩, ⟨"CONTINUOUS_PM", minutes 300, minutes 420⟩]

/-- An enabled runtime whose thresholds are in force. -/
def tradingRuntime : OfficialRuntime where
  officialEnabled := true
  thresholdActivation := 1
  subjectUid := "subject"
  clock _ := tradingDay
  thresholds := sampleThresholdTables
  activation_valid := by decide
  subject_named := by decide

/-- The thresholds of the trading runtime are always there. -/
theorem tradingRuntime_thresholds (t : Instant) :
    (tradingRuntime.thresholdPair t).isOk = true := by
  have hofficial : tradingRuntime.evaluationDisposition = .official := by decide
  unfold OfficialRuntime.thresholdPair
  rw [hofficial, if_neg (by decide)]
  change (do
    let guardian ← resolveOfficial sampleThresholdTables .guardian t
    let scout ← resolveOfficial sampleThresholdTables .scout t
    return (guardian, scout) : Except Exn (ThresholdSet × ThresholdSet)).isOk = true
  rw [resolveOfficial_sample, resolveOfficial_sample]
  rfl

/-- The cycle of a tick at the close. -/
theorem close_cycle_at_close :
    tradingRuntime.Admits (minutes 420) (minutes 420) "nonce" ↔
      tradingRuntime.marketPhase (minutes 420) = "CLOSED" ∧
        ((tradingRuntime.thresholdPair (minutes 420)).isOk = true →
          tradingRuntime.evaluationDisposition = .official ∧ minutes 420 = minutes 420) :=
  close_cycle_admitted_iff (graceWorker tradingDay) tradingRuntime "nonce" rfl (by decide)
    (by decide)

/-- The cycle of a tick a second after the close is blocked. -/
theorem close_cycle_is_blocked :
    ¬∀ (w : ContinuousProductionWorker Unit) (r : OfficialRuntime) (t m : Instant) (nonce : Uid),
      w.clock = r.clock → w.target t = (some m, "READY_AT_SESSION_CLOSE") →
      (r.clock "SSE").finalContinuousClose t = some m → r.Admits m t nonce := by
  intro h
  have hadmits := h (graceWorker tradingDay) tradingRuntime (minutes 420 + microsPerSecond)
    (minutes 420) "nonce" rfl (by decide) (by decide)
  have hiff := OfficialRuntime.admits_iff (r := tradingRuntime) (m := minutes 420)
    (t := minutes 420 + microsPerSecond) "nonce" (by decide) (by decide)
  have hlate := ((hiff.mp hadmits).2 (tradingRuntime_thresholds _)).2
  exact absurd hlate (by decide)

end MarketMonitor
