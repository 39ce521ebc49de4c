import MarketMonitor.Analysis.Orchestrator

/-!
# The official gate

Whatever the pipeline and the journal answer, a cycle commits only what its gates admit,
delivers only after a commit of its own and, when it is a shadow cycle, only reads the
journal (`official_gate`).
-/

namespace MarketMonitor

open Program

/-- The calls of a cycle with their answers. -/
abbrev CycleHistory := List (Event CycleCall CycleCall.Answer CycleError)

/-- A call was made and answered with a value. -/
def Answered (history : CycleHistory) (op : CycleCall) (a : op.Answer) : Prop :=
  ⟨op, .ok a⟩ ∈ history

theorem Answered.append {history : CycleHistory} {op : CycleCall} {a : op.Answer}
    (h : Answered history op a) (log : CycleHistory) : Answered (history ++ log) op a :=
  List.mem_append_left _ h

theorem answered_last (history : CycleHistory) (op : CycleCall) (a : op.Answer) :
    Answered (history ++ [⟨op, .ok a⟩]) op a :=
  List.mem_append_right _ List.mem_cons_self

/-- A fitness that is neither `UNFIT` nor `UNKNOWN`. -/
def FitnessStatus.Usable (fitness : FitnessStatus) : Prop :=
  fitness ≠ .unfit ∧ fitness ≠ .unknown

/-- A stage that answered ready, with a usable fitness. -/
def Passed (c : CycleInput) (history : CycleHistory) (stage : ReadinessStage) : Prop :=
  ∃ status, Answered history (.readiness stage c.observedAt) status ∧ status.ready = true ∧
    status.fitnessStatus.Usable

/-- What the gates of a cycle have established. -/
structure GatesPassed (c : CycleInput) (history : CycleHistory) : Prop where
  disposition : c.config.evaluationDisposition = .official
  enabled : c.config.officialEnabled = true
  stages : ∀ stage, Passed c history stage
  phase : ∃ phase, Answered history (.marketPhase c.observedAt) phase ∧
    (phase = "CONTINUOUS_AM" ∨ phase = "CONTINUOUS_PM" ∨ phase = "CLOSED" ∧
      ∃ threshold, Answered history (.readiness .threshold c.observedAt) threshold ∧
        threshold.data.get "final_close" = some (.bool true))
  activations : ∃ threshold, Answered history (.readiness .threshold c.observedAt) threshold ∧
    c.config.minimumActivationCount ≤ activationCount threshold.data

/-- The metrics of a snapshot were computed under a permit for the cycle and the snapshot, and
are available and usable. -/
structure MetricsPassed (c : CycleInput) (history : CycleHistory) (snapshotUid : Uid)
    (metric : OfficialMetricOutput) : Prop where
  permit : ∃ permit : OfficialExecutionPermit, permit.cycleKey = c.cycleKey ∧
    permit.subjectUid = c.subjectUid ∧ permit.snapshotUid = snapshotUid ∧
    Answered history (.runMetrics snapshotUid (some permit)) metric
  available : metric.availabilityState = "AVAILABLE" ∧ metric.lifecycleState ≠ none
  usable : metric.fitnessStatus.Usable

/-- What a cycle may call, after the calls before. -/
def Allowed (c : CycleInput) (history : CycleHistory) : CycleCall → Prop
  | .journalGet _ _ => history = []
  | .journalBegin _ _ _ | .journalSave _ => c.config.evaluationDisposition = .official
  | .commit request => GatesPassed c history ∧
    ∃ metric version, MetricsPassed c history request.snapshotUid metric ∧
      request = c.commitInput request.snapshotUid metric version
  | .deliver => c.config.evaluationDisposition = .official ∧
    ∃ request commit, Answered history (.commit request) commit
  | _ => True

variable {c : CycleInput} {history : CycleHistory}

theorem Passed.append {stage : ReadinessStage} (h : Passed c history stage)
    (log : CycleHistory) : Passed c (history ++ log) stage := by
  obtain ⟨status, hanswered, hready, husable⟩ := h
  exact ⟨status, hanswered.append log, hready, husable⟩

/-- Gates that were passed stay passed. -/
theorem GatesPassed.append (h : GatesPassed c history) (log : CycleHistory) :
    GatesPassed c (history ++ log) where
  disposition := h.disposition
  enabled := h.enabled
  stages stage := (h.stages stage).append log
  phase := by
    obtain ⟨phase, hphase, hopen⟩ := h.phase
    refine ⟨phase, hphase.append log, hopen.imp_right (Or.imp_right ?_)⟩
    rintro ⟨hclosed, threshold, hthreshold, hfinal⟩
    exact ⟨hclosed, threshold, hthreshold.append log, hfinal⟩
  activations := by
    obtain ⟨threshold, hthreshold, hcount⟩ := h.activations
    exact ⟨threshold, hthreshold.append log, hcount⟩

theorem MetricsPassed.append {snapshotUid : Uid} {metric : OfficialMetricOutput}
    (h : MetricsPassed c history snapshotUid metric) (log : CycleHistory) :
    MetricsPassed c (history ++ log) snapshotUid metric where
  permit := by
    obtain ⟨permit, hkey, hsubject, hsnapshot, hanswered⟩ := h.permit
    exact ⟨permit, hkey, hsubject, hsnapshot, hanswered.append log⟩
  available := h.available
  usable := h.usable

/-! ## Official cycles -/

/-- Nothing is asked of the outcome of a cycle. -/
abbrev Anything {α : Type} : CycleHistory → Except CycleError α → Prop := fun _ _ => True

/-- The gates that were passed stay passed. -/
abbrev StillPassed (c : CycleInput) {α : Type} : CycleHistory → Except CycleError α → Prop :=
  fun history _ => GatesPassed c history

theorem holds_saveCheckpoint (h : GatesPassed c history) (checkpoint : CycleCheckpoint)
    (phase : CyclePhase) (status : Option CycleStatus) (snapshotUid commitUid : Option Uid)
    (errorCode : Option String) (details : Details) :
    (saveCheckpoint checkpoint phase status snapshotUid commitUid errorCode details).Holds
      (Allowed c) (fun history' _ => ∃ log, history' = history ++ log) history :=
  holds_perform h.disposition fun _ => ⟨_, rfl⟩

theorem holds_recordFailure {α : Type} (h : GatesPassed c history) (checkpoint : CycleCheckpoint)
    (e : CycleError) : (recordFailure checkpoint e : CycleProgram α).Holds (Allowed c) Anything
      history :=
  (holds_saveCheckpoint h checkpoint _ _ _ _ _ _).bind (fun _ _ _ => trivial) fun _ _ _ => trivial

/-- A snapshot is sealed, or is that of the checkpoint. -/
theorem holds_sealedSnapshot (h : GatesPassed c history) (checkpoint : CycleCheckpoint)
    (threshold : StageStatus) :
    (c.sealedSnapshot checkpoint threshold).Holds (Allowed c) (StillPassed c) history := by
  unfold CycleInput.sealedSnapshot
  split
  · exact h
  · refine (holds_perform (Q := StillPassed c) trivial fun answer => h.append _).bind
      (fun _ _ h => h) fun history snapshotUid h => ?_
    refine (holds_saveCheckpoint h _ _ _ _ _ _ _).bind ?_ ?_
    · rintro _ e ⟨log, rfl⟩
      exact h.append log
    · rintro _ saved ⟨log, rfl⟩
      exact h.append log

/-- The metrics are computed under a permit for the cycle and the snapshot. -/
theorem holds_officialMetrics (h : GatesPassed c history) (snapshotUid : Uid)
    (threshold : StageStatus) :
    (c.officialMetrics snapshotUid threshold).Holds (Allowed c) (fun history outcome =>
      GatesPassed c history ∧ ∀ metric, outcome = .ok metric →
        ∃ permit : OfficialExecutionPermit, permit.cycleKey = c.cycleKey ∧
          permit.subjectUid = c.subjectUid ∧ permit.snapshotUid = snapshotUid ∧
          Answered history (.runMetrics snapshotUid (some permit)) metric) history := by
  have hpermit : (issuePermit c.cycleKey c.subjectUid snapshotUid (activationCount threshold.data)
      c.nonce (textOf (threshold.data.get "guardian_threshold_uid"))
      (textOf (threshold.data.get "scout_threshold_uid"))).Holds (Allowed c)
      (fun history outcome => GatesPassed c history ∧ ∀ permit, outcome = .ok permit →
        permit.cycleKey = c.cycleKey ∧ permit.subjectUid = c.subjectUid ∧
          permit.snapshotUid = snapshotUid) history := by
    unfold issuePermit
    split_ifs
    · refine ⟨h, fun permit hpermit => ?_⟩
      cases hpermit
      exact ⟨rfl, rfl, rfl⟩
    all_goals exact ⟨h, fun permit hpermit => by cases hpermit⟩
  refine hpermit.bind (fun _ _ h => ⟨h.1, fun metric hmetric => by cases hmetric⟩) ?_
  rintro history permit ⟨h, hfor⟩
  obtain ⟨hkey, hsubject, hsnapshot⟩ := hfor permit rfl
  refine holds_perform trivial fun answer => ⟨h.append _, ?_⟩
  rintro metric rfl
  exact ⟨permit, hkey, hsubject, hsnapshot, answered_last _ _ _⟩

/-- A snapshot is committed with the metrics that passed, and delivered after the commit. -/
theorem holds_commitSnapshot {snapshotUid : Uid} {metric : OfficialMetricOutput}
    (h : GatesPassed c history) (hmetric : MetricsPassed c history snapshotUid metric)
    (checkpoint : CycleCheckpoint) :
    (c.commitSnapshot snapshotUid metric checkpoint).Holds (Allowed c) Anything history := by
  unfold CycleInput.commitSnapshot
  refine Holds.handle (Q := fun history outcome => GatesPassed c history ∧
    ∀ commit, outcome = .ok commit → ∃ request, Answered history (.commit request) commit)
    ?_ (fun history e h => holds_recordFailure h.1 checkpoint e) ?_
  · refine (holds_perform (Q := fun history _ => GatesPassed c history ∧
      MetricsPassed c history snapshotUid metric) trivial
      fun answer => ⟨h.append _, hmetric.append _⟩).bind
      (fun _ _ h => ⟨h.1, fun commit hcommit => by cases hcommit⟩) ?_
    rintro history version ⟨h, hmetric⟩
    refine holds_perform ⟨h, metric, version, hmetric, rfl⟩ fun answer => ⟨h.append _, ?_⟩
    rintro commit rfl
    exact ⟨_, answered_last _ _ _⟩
  rintro history commit ⟨h, hcommitted⟩
  obtain ⟨request, hcommitted⟩ := hcommitted commit rfl
  refine (holds_saveCheckpoint h _ _ _ _ _ _ _).handle ?_ ?_
  · rintro _ e ⟨log, rfl⟩
    exact holds_recordFailure (h.append log) checkpoint e
  rintro _ saved ⟨log, rfl⟩
  have h := h.append log
  have hcommitted := hcommitted.append log
  refine Holds.handle (Q := StillPassed c) ?_
    (fun history e h => holds_recordFailure h saved e) fun _ _ _ => trivial
  have hsave : ∀ {history}, GatesPassed c history → (saveCheckpoint saved .completed
      (some .committed) (some snapshotUid) (some commit.commitUid) none
      (CycleInput.commitDetails commit)).Holds (Allowed c) (StillPassed c) history :=
    fun h => holds_perform h.disposition fun _ => h.append _
  dsimp only
  split
  · exact (holds_perform (Q := StillPassed c) ⟨h.disposition, request, commit, hcommitted⟩
      fun answer => h.append _).bind (fun _ _ h => h) fun _ _ h => hsave h
  · exact hsave h

/-- After the metrics, with the permit they ran with, only allowed calls follow. -/
theorem holds_afterMetrics {snapshotUid : Uid} {metric : OfficialMetricOutput}
    (h : GatesPassed c history)
    (hpermit : ∃ permit : OfficialExecutionPermit, permit.cycleKey = c.cycleKey ∧
      permit.subjectUid = c.subjectUid ∧ permit.snapshotUid = snapshotUid ∧
      Answered history (.runMetrics snapshotUid (some permit)) metric)
    (checkpoint : CycleCheckpoint) :
    (c.afterMetrics snapshotUid metric checkpoint).Holds (Allowed c) Anything history := by
  have hfailed : ∀ code details, ∀ result : OfficialCycleResult,
      ((saveCheckpoint checkpoint .failed (some .failed) (some snapshotUid) none (some code)
        details).handle (recordFailure checkpoint) fun _ => .pure result).Holds (Allowed c)
        Anything history := by
    intro code details result
    refine (holds_saveCheckpoint h _ _ _ _ _ _ _).handle ?_ fun _ _ _ => trivial
    rintro _ e ⟨log, rfl⟩
    exact holds_recordFailure (h.append log) checkpoint e
  unfold CycleInput.afterMetrics
  split_ifs with hfitness havailable
  · exact hfailed _ _ _
  · exact hfailed _ _ _
  · have hmetric : MetricsPassed c history snapshotUid metric :=
      ⟨hpermit, ⟨not_not.mp fun hne => havailable (Or.inl hne), fun hnone =>
        havailable (Or.inr hnone)⟩, fun hunfit => hfitness (Or.inl hunfit),
        fun hunknown => hfitness (Or.inr hunknown)⟩
    refine (holds_saveCheckpoint h _ _ _ _ _ _ _).handle ?_ ?_
    · rintro _ e ⟨log, rfl⟩
      exact holds_recordFailure (h.append log) checkpoint e
    · rintro _ saved ⟨log, rfl⟩
      exact holds_commitSnapshot (h.append log) (hmetric.append log) saved

/-- An official run that passed its gates makes only allowed calls. -/
theorem holds_runOfficial (h : GatesPassed c history) (threshold : StageStatus) :
    (c.runOfficial threshold).Holds (Allowed c) Anything history := by
  refine (holds_perform (Q := StillPassed c) h.disposition fun answer => h.append _).bind
    (fun _ _ _ => trivial) fun history checkpoint h => ?_
  dsimp only
  split
  · trivial
  refine (holds_sealedSnapshot h checkpoint threshold).handle
    (fun _ e h => holds_recordFailure h checkpoint e) ?_
  rintro history ⟨snapshotUid, saved⟩ h
  refine (holds_officialMetrics h snapshotUid threshold).handle
    (fun _ e h => holds_recordFailure h.1 saved e) ?_
  rintro history metric ⟨h, hpermit⟩
  exact holds_afterMetrics h (hpermit metric rfl) saved

/-! ## Gates -/

/-- A shadow run makes only allowed calls. -/
theorem holds_runShadow (threshold : StageStatus) (phase : String) :
    (c.runShadow threshold phase).Holds (Allowed c) Anything history := by
  refine (holds_perform (Q := Anything) trivial fun _ => trivial).bind
    (fun _ _ _ => trivial) fun history snapshotUid _ => ?_
  refine (holds_perform (Q := Anything) trivial fun _ => trivial).bind
    (fun _ _ _ => trivial) fun history metric _ => ?_
  dsimp only
  split
  · trivial
  · split
    · trivial
    · trivial

theorem usable_of_not {fitness : FitnessStatus} (h : ¬(fitness = .unfit ∨ fitness = .unknown)) :
    fitness.Usable :=
  ⟨fun hunfit => h (Or.inl hunfit), fun hunknown => h (Or.inr hunknown)⟩

theorem stageGate_eq_none {name : String} {stage : StageStatus} {failureReason : Option String}
    (h : c.stageGate name stage failureReason = none) :
    stage.ready = true ∧ stage.fitnessStatus.Usable := by
  unfold CycleInput.stageGate at h
  split_ifs at h with hfitness hready
  exact ⟨hready, usable_of_not hfitness⟩

theorem phaseGate_eq_none {phase : String} (h : c.phaseGate phase = none) :
    phase = "CONTINUOUS_AM" ∨ phase = "CONTINUOUS_PM" ∨ phase = "CLOSED" := by
  unfold CycleInput.phaseGate at h
  split_ifs at h with h₁ h₂ h₃ h₄
  by_contra hnot
  rw [not_or, not_or] at hnot
  exact h₄ hnot

/-- What the gate of the thresholds has let through. -/
theorem thresholdGate_eq_none {phase : String} {threshold : StageStatus}
    (h : c.thresholdGate phase threshold = none) :
    threshold.ready = true ∧ threshold.fitnessStatus.Usable ∧
      (c.config.evaluationDisposition = .official →
        c.config.minimumActivationCount ≤ activationCount threshold.data) ∧
      (phase = "CLOSED" → threshold.data.get "final_close" = some (.bool true)) := by
  unfold CycleInput.thresholdGate at h
  split_ifs at h with hready hfinal hfitness
  rw [not_or, not_and, not_lt] at hready
  exact ⟨Bool.eq_true_of_not_eq_false hready.1, usable_of_not hfitness, hready.2,
    fun hclosed => not_not.mp fun hne => hfinal ⟨hclosed, hne⟩⟩

/-- A cycle goes on after a stage that passed. -/
theorem holds_passing {name : String} {stage : ReadinessStage} {failureReason : Option String}
    {rest : CycleProgram OfficialCycleResult} {S : List ReadinessStage}
    (hpassed : ∀ s ∈ S, Passed c history s)
    (hrest : ∀ history, (∀ s ∈ stage :: S, Passed c history s) →
      rest.Holds (Allowed c) Anything history) :
    (c.passing name stage failureReason rest).Holds (Allowed c) Anything history := by
  refine (holds_perform (Q := fun history' outcome => (∀ s ∈ S, Passed c history' s) ∧
    ∀ status, outcome = .ok status → Answered history' (.readiness stage c.observedAt) status)
    trivial fun answer => ⟨fun s hs => (hpassed s hs).append _, ?_⟩).bind
    (fun _ _ _ => trivial) ?_
  · rintro status rfl
    exact answered_last _ _ _
  rintro history status ⟨hpassed, hanswered⟩
  cases hgate : c.stageGate name status failureReason with
  | some blocked => trivial
  | none =>
    obtain ⟨hready, husable⟩ := stageGate_eq_none hgate
    refine hrest history fun s hs => ?_
    rcases List.mem_cons.mp hs with rfl | hs
    · exact ⟨status, hanswered status rfl, hready, husable⟩
    · exact hpassed s hs

/-- After the other gates the phase is asked, and then the official or the shadow run made. -/
theorem holds_runPhase (hpassed : ∀ stage, stage ≠ .threshold → Passed c history stage)
    (henabled : c.config.evaluationDisposition = .official → c.config.officialEnabled = true) :
    c.runPhase.Holds (Allowed c) Anything history := by
  refine (holds_perform (Q := fun history' outcome =>
    (∀ stage, stage ≠ .threshold → Passed c history' stage) ∧
      ∀ phase, outcome = .ok phase → Answered history' (.marketPhase c.observedAt) phase)
    trivial fun answer => ⟨fun s hs => (hpassed s hs).append _, ?_⟩).bind
    (fun _ _ _ => trivial) ?_
  · rintro phase rfl
    exact answered_last _ _ _
  rintro history phase ⟨hpassed, hphase⟩
  have hphase := hphase phase rfl
  cases hgate : c.phaseGate phase with
  | some blocked => trivial
  | none =>
    refine (holds_perform (Q := fun history' outcome =>
      (∀ stage, stage ≠ .threshold → Passed c history' stage) ∧
        Answered history' (.marketPhase c.observedAt) phase ∧
        ∀ threshold, outcome = .ok threshold →
          Answered history' (.readiness .threshold c.observedAt) threshold)
      trivial fun answer => ⟨fun s hs => (hpassed s hs).append _, hphase.append _, ?_⟩).bind
      (fun _ _ _ => trivial) ?_
    · rintro threshold rfl
      exact answered_last _ _ _
    rintro history threshold ⟨hpassed, hphase, hthreshold⟩
    have hthreshold := hthreshold threshold rfl
    cases hgate' : c.thresholdGate phase threshold with
    | some blocked => trivial
    | none =>
      obtain ⟨hready, husable, hcount, hfinal⟩ := thresholdGate_eq_none hgate'
      change Holds (Allowed c) Anything (ite _ _ _) history
      split
      · exact holds_runShadow threshold phase
      rename_i hshadow
      have hofficial := c.config.disposition_valid.resolve_right hshadow
      refine holds_runOfficial ⟨hofficial, henabled hofficial, fun stage => ?_, ⟨phase, hphase, ?_⟩,
        threshold, hthreshold, hcount hofficial⟩ threshold
      · by_cases hstage : stage = .threshold
        · subst hstage
          exact ⟨threshold, hthreshold, hready, husable⟩
        · exact hpassed stage hstage
      · exact (phaseGate_eq_none hgate).imp_right
          (Or.imp_right fun hclosed => ⟨hclosed, threshold, hthreshold, hfinal hclosed⟩)

/-- The stages are passed one after the other. -/
theorem holds_runStages : c.runStages.Holds (Allowed c) Anything history := by
  refine holds_passing (S := []) (fun s hs => absurd hs List.not_mem_nil)
    fun history hpassed => ?_
  unfold CycleInput.gate
  split
  · trivial
  rename_i henabled
  refine holds_passing hpassed fun history hpassed => holds_passing hpassed fun history hpassed =>
    holds_passing hpassed fun history hpassed => holds_passing hpassed fun history hpassed =>
    holds_passing hpassed fun history hpassed => holds_runPhase (fun stage hstage => ?_) ?_
  · refine hpassed stage ?_
    cases stage with
    | threshold => exact absurd rfl hstage
    | _ => decide
  · intro hofficial
    split at henabled
    · cases henabled
    · rename_i hnot
      exact Bool.eq_true_of_not_eq_false fun hdisabled => hnot ⟨hofficial, hdisabled⟩

/-- Every call of a cycle is one the gates allow. -/
theorem holds_run (c : CycleInput) (closed : Bool) :
    (c.run closed).Holds (Allowed c) Anything [] := by
  unfold CycleInput.run
  split
  · trivial
  split
  · trivial
  refine (holds_perform (Q := Anything) rfl fun _ => trivial).bind (fun _ _ _ => trivial)
    fun history existing _ => ?_
  split
  · split
    · trivial
    · exact holds_runStages
  · exact holds_runStages

/-- Whatever its calls were answered with, a cycle makes only calls that its gates allow. -/
theorem official_gate (c : CycleInput) (closed : Bool) {log : CycleHistory} {op : CycleCall}
    {next : Except CycleError op.Answer → CycleProgram OfficialCycleResult}
    (h : Program.Trace (c.run closed) log (.call op next)) : Allowed c log op :=
  (holds_run c closed).of_call h

/-! ## A cycle at the close -/

/-- A cycle of an enabled orchestrator. -/
def closingCycle (disposition : EvaluationDisposition)
    (h : disposition = .official ∨ disposition = .shadow) : CycleInput where
  config := ⟨true, ["IN_APP"], true, 2, disposition, inApp_valid, two_activations, h⟩
  subjectUid := "subject"
  cycleKey := "2025-12-31:15:00"
  observedAt := 63902761200000000
  nonce := "nonce"

/-- A pipeline whose stages are ready at the close, and a journal with a sealed cycle. -/
def closingAnswers : (op : CycleCall) → Except CycleError op.Answer
  | .journalGet _ _ => .ok none
  | .journalBegin key subject t => .ok
    { cycleUid := "cycle"
      cycleKey := "2025-12-31:15:00"
      subjectUid := "subject"
      observedAt := t
      phase := .metric
      status := .running
      attempt := 1
      snapshotUid := some "snapshot"
      commitUid := none
      errorCode := none
      details := []
      named := by decide
      attempt_pos := le_rfl }
  | .journalSave checkpoint => .ok checkpoint
  | .readiness _ _ => .ok ⟨true, .fit, "", [("activation_count", .int 2),
    ("guardian_threshold_uid", .str "guardian"), ("scout_threshold_uid", .str "scout"),
    ("final_close", .bool true)]⟩
  | .marketPhase _ => .ok "CLOSED"
  | .sealSnapshot _ _ _ => .ok "snapshot"
  | .runMetrics _ _ => .ok
    { producerVersion := "producer"
      evidenceSha256 := String.ofList (List.replicate 64 '0')
      guardianMetrics := [("BREADTH", 500000)]
      scoutMetrics := []
      availabilityState := "AVAILABLE"
      lifecycleState := some "OBSERVING"
      fitnessStatus := .fit
      lineage := by decide
      available_iff := by decide
      ppm := by decide }
  | .expectedProjectionVersion _ => .ok 0
  | .commit _ => .ok ⟨"commit", [], []⟩
  | .deliver => .ok ()

/-- The calls of an official cycle at the close, up to its commit. -/
theorem closing_cycle_commits : ∃ log request next,
    Program.Trace ((closingCycle .official (Or.inl rfl)).run false) log
      (.call (.commit request) next) ∧
      log.length = 13 ∧ Allowed (closingCycle .official (Or.inl rfl)) log (.commit request) := by
  have htrace := trace_follow closingAnswers 13 ((closingCycle .official (Or.inl rfl)).run false)
  exact ⟨_, _, _, htrace, rfl, official_gate _ _ htrace⟩

/-- A shadow cycle reads the journal. -/
theorem shadow_cycle_reads_journal :
    ¬∀ (c : CycleInput) (closed : Bool) (log : CycleHistory) (op : CycleCall)
      (next : Except CycleError op.Answer → CycleProgram OfficialCycleResult),
      c.config.evaluationDisposition = .shadow →
        Program.Trace (c.run closed) log (.call op next) →
      ∀ key subject, op ≠ .journalGet key subject := by
  intro h
  exact h (closingCycle .shadow (Or.inr rfl)) false [] _ _ rfl (Program.Trace.nil _) _ _ rfl

end MarketMonitor
