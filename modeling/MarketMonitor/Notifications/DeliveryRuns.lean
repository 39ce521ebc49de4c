import MarketMonitor.Notifications.DeliverySpec

/-!
# Runs of the delivery workers

`DeliveryLedger` is what every state of a run has that starts before the first delivery :
each intent has one delivery state, which counts the attempts of the intent. The workers
are safe (`delivery_worker_safety`) : the attempts are numbered from `1`, a delivery that
is over stays as it is, no attempt is recorded for an intent of an older generation, and
a worker that lost its lease records nothing.
-/

namespace MarketMonitor

open Transaction Keyed

variable {ι : Type} {maxAttempts : ℕ} {uid : Uid}

/-! ## The store from one state to the next -/

/-- What every step keeps of the intents, of their generations and of the keys. -/
structure StoreStep (s s' : DeliveryStore) : Prop where
  intents : ∃ new, s'.intents = s.intents ++ new ∧ ∀ i ∈ new, i.Readable
  generation : s.metadata.restoreGeneration ≤ s'.metadata.restoreGeneration
  keys : s.Keys → s'.Keys
  projections : s.database.analysis.ProjectionsUnique → s'.database.analysis.ProjectionsUnique

theorem StoreStep.refl (s : DeliveryStore) : StoreStep s s :=
  ⟨⟨[], by simp⟩, le_refl _, id, id⟩

theorem StoreStep.trans {s s' s'' : DeliveryStore} (h : StoreStep s s') (h' : StoreStep s' s'') :
    StoreStep s s'' := by
  obtain ⟨new, hnew, hreadable⟩ := h.intents
  obtain ⟨new', hnew', hreadable'⟩ := h'.intents
  refine ⟨⟨new ++ new', ?_, ?_⟩, h.generation.trans h'.generation, h'.keys ∘ h.keys,
    h'.projections ∘ h.projections⟩
  · rw [hnew', hnew, List.append_assoc]
  · intro i hi
    exact (List.mem_append.mp hi).elim (hreadable i) (hreadable' i)

theorem StoreStep.mapDeliveries (s : DeliveryStore)
    {f : NotificationDeliveryState → NotificationDeliveryState}
    (hf : ∀ d, (f d).intentUid = d.intentUid) : StoreStep s (s.mapDeliveries f) :=
  ⟨⟨[], by simp⟩, le_refl _, fun h => h.mapDeliveries hf, id⟩

/-- What keeps the outbox is a step of the store. -/
theorem StoreStep.of_keepsOutbox {s s' : DeliveryStore}
    (h : KeepsOutbox s.database s'.database) : StoreStep s s' := by
  obtain ⟨h, hprojections⟩ := h
  cases h with
  | enqueue h hgeneration =>
    obtain ⟨rows, hintents, hdeliveries, hrows, hunique⟩ := h
    refine ⟨⟨rows.map Prod.fst, hintents, ?_⟩, hgeneration.ge, fun hkeys => ⟨?_, ?_⟩, hprojections⟩
    · intro i hi
      obtain ⟨p, hp, rfl⟩ := List.mem_map.mp hi
      exact (hrows p hp).readable
    · rw [DeliveryStore.deliveries, hdeliveries, DeliveryStore.intents, hintents, List.map_append,
        List.map_append, ← DeliveryStore.deliveries, ← DeliveryStore.intents, hkeys.same]
      congr 1
      rw [List.map_map, List.map_map]
      exact List.map_congr_left fun p hp => (hrows p hp).intentUid
    · exact hunique hkeys.nodup
  | cancel occurredAt hintents hdeliveries hgeneration =>
    refine ⟨⟨[], by rw [List.append_nil]; exact hintents, by simp⟩, hgeneration.ge.trans' (by
      exact Nat.le_succ _), fun hkeys => ⟨?_, ?_⟩, hprojections⟩
    · rw [DeliveryStore.deliveries, hdeliveries, DeliveryStore.intents, hintents, List.map_map,
        ← DeliveryStore.intents, ← hkeys.same]
      exact List.map_congr_left fun d _ => cancelDelivery_intentUid occurredAt d
    · rw [DeliveryStore.intents, hintents]
      exact hkeys.nodup

variable {fleet : Fleet ι maxAttempts} {e : DeliveryEvent ι} {s s' : DeliverySystem ι}

/-- So is a claim. -/
theorem stateAfter_claim (worker : DeliveryWorker) {s : DeliveryStore} (hkeys : s.Keys)
    (now : Instant) : StoreStep s (stateAfter ((worker.claim now).run s)) := by
  have hswept : StoreStep s (s.swept now) := .mapDeliveries s (expireDelivery_intentUid _ _)
  obtain ⟨-, hrun⟩ | ⟨-, -, hrun⟩ | ⟨-, i, row, -, ⟨-, e, hrun⟩ | ⟨context, hrun⟩⟩ :=
    worker.claim_cases hkeys now
  · rw [hrun]
    exact .refl s
  · rw [hrun]
    exact hswept
  · rw [hrun]
    exact .refl s
  · rw [hrun]
    exact hswept.trans (.mapDeliveries _ (worker.takeLease_intentUid _ row))

/-- So is the end of an attempt. -/
theorem stateAfter_finish (worker : DeliveryWorker) (claimed : Claim) (startedAt : Instant)
    (outcome : DeliveryResult) (completedAt : Instant) (attemptUid : Uid) (s : DeliveryStore) :
    StoreStep s
      (stateAfter ((worker.finish claimed startedAt outcome completedAt attemptUid).run s)) := by
  obtain hsame | ⟨i, row, -, -, hrun⟩ :=
    worker.finish_cases claimed startedAt outcome completedAt attemptUid s
  · rw [hsame]
    exact .refl s
  · rw [hrun]
    refine @StoreStep.trans s { s with deliveryAttempt := _ } _ ?_
      (.mapDeliveries _ (worker.settle_intentUid outcome completedAt row))
    exact ⟨⟨[], (List.append_nil _).symm, by simp⟩, le_refl _, fun h => ⟨h.same, h.nodup⟩, id⟩

variable [DecidableEq ι]

/-- Every step of the fleet is one of the store. -/
theorem storeStep (hkeys : s.store.Keys)
    (hunique : s.store.database.analysis.ProjectionsUnique) (h : fleet.step e s s') :
    StoreStep s.store s'.store := by
  obtain ⟨hother, rfl⟩ := h
  cases e with
  | claim k now =>
    have hstep := stateAfter_claim (fleet.worker k) hkeys now
    cases hphase : s.phase k with
    | idle =>
      simp only [Fleet.next, hphase]
      split
      · rename_i hrun
        rw [hrun] at hstep
        exact hstep
      · exact hstep
    | _ =>
      simp only [Fleet.next, hphase]
      exact .refl _
  | finish k attemptUid =>
    cases hphase : s.phase k with
    | sent c startedAt outcome completedAt =>
      simp only [Fleet.next, hphase]
      exact stateAfter_finish ..
    | _ =>
      simp only [Fleet.next, hphase]
      exact .refl _
  | check k => cases hphase : s.phase k <;> simp only [Fleet.next, hphase] <;> exact .refl _
  | send k reply completedAt =>
    cases hphase : s.phase k <;> simp only [Fleet.next, hphase] <;> exact .refl _
  | abandon k => exact .refl _
  | commit files uids request =>
    exact .of_keepsOutbox (commit_keepsOutbox hunique files uids request)
  | advanceRestoreGeneration auditUid occurredAt =>
    exact .of_keepsOutbox (advanceRestoreGeneration_keepsOutbox _ auditUid occurredAt)
  | startRecovery generationAudit recoveryAudit watermarks startedAt manifestSha256 =>
    exact .of_keepsOutbox (startRecovery_keepsOutbox _ generationAudit recoveryAudit watermarks
      startedAt manifestSha256)
  | setRecoveryState value =>
    exact ⟨⟨[], (List.append_nil _).symm, by simp⟩, le_refl _, fun h => ⟨h.same, h.nodup⟩, id⟩
  | updateNotificationSettings enabled =>
    exact ⟨⟨[], (List.append_nil _).symm, by simp⟩, le_refl _, fun h => ⟨h.same, h.nodup⟩, id⟩
  | other database => exact .of_keepsOutbox (hother database rfl).keepsOutbox

/-! ## The attempts of an intent -/

/-- The attempts are numbered from `1` on, at most `maxAttempts` of them, and only the last
was delivered. -/
structure AttemptsNumbered (maxAttempts : ℕ) (d : NotificationDeliveryState)
    (attempts : List DeliveryAttempt) : Prop where
  numbers : attempts.map DeliveryAttempt.attemptNumber = List.range' 1 d.attemptCount
  bounded : d.attemptCount ≤ maxAttempts
  lastDelivered : ∀ a ∈ attempts, a.outcome = .delivered → a.attemptNumber = d.attemptCount

/-- A delivery that is not over has attempts left, and none was delivered. -/
def Counted (maxAttempts : ℕ) (attempts : List DeliveryAttempt) :
    Option NotificationDeliveryState → Prop
  | none => attempts = []
  | some d => AttemptsNumbered maxAttempts d attempts ∧ (d.deliveryStatus.unfinished = true →
      d.attemptCount < maxAttempts ∧ ∀ a ∈ attempts, a.outcome ≠ .delivered)

theorem Counted.of_attemptCount {d d' : NotificationDeliveryState}
    {attempts : List DeliveryAttempt} (h : Counted maxAttempts attempts (some d))
    (hcount : d'.attemptCount = d.attemptCount)
    (hunfinished : d'.deliveryStatus.unfinished = true → d.deliveryStatus.unfinished = true) :
    Counted maxAttempts attempts (some d') := by
  obtain ⟨⟨hnumbers, hbounded, hlast⟩, hleft⟩ := h
  refine ⟨⟨hcount ▸ hnumbers, hcount ▸ hbounded, hcount ▸ hlast⟩, fun h => ?_⟩
  rw [hcount]
  exact hleft (hunfinished h)

/-- An attempt is counted. -/
theorem Counted.attempt {worker : DeliveryWorker} (hmax : worker.maxAttempts = maxAttempts)
    {d : NotificationDeliveryState} {attempts : List DeliveryAttempt}
    (h : Counted maxAttempts attempts (some d)) (hprocessing : d.deliveryStatus = .processing)
    (claimed : Claim) (startedAt : Instant) (outcome : DeliveryResult) (completedAt : Instant)
    (attemptUid : Uid) :
    Counted maxAttempts
      (attempts ++ [worker.attemptRow claimed d startedAt outcome completedAt attemptUid])
      (some (worker.settled outcome completedAt d)) := by
  obtain ⟨⟨hnumbers, hbounded, -⟩, hleft⟩ := h
  obtain ⟨hlt, hnone⟩ := hleft (by rw [hprocessing]; rfl)
  refine ⟨⟨?_, hlt, ?_⟩, ?_⟩
  · rw [List.map_append, hnumbers, List.map_singleton, DeliveryWorker.settled,
      DeliveryWorker.attemptRow, List.range'_concat]
    simp [Nat.add_comm]
  · intro a ha hdelivered
    rcases List.mem_append.mp ha with ha | ha
    · exact absurd hdelivered (hnone a ha)
    · rw [List.mem_singleton.mp ha]
      rfl
  · intro hunfinished
    rw [DeliveryWorker.settled] at hunfinished ⊢
    unfold DeliveryWorker.verdict at hunfinished
    split at hunfinished
    · cases hunfinished
    · rename_i hnot
      split at hunfinished
      · rename_i hretry
        refine ⟨hmax ▸ hretry.2, fun a ha => ?_⟩
        rcases List.mem_append.mp ha with ha | ha
        · exact hnone a ha
        · rw [List.mem_singleton.mp ha, DeliveryWorker.attemptRow, DeliveryWorker.verdict,
            if_neg hnot, if_pos hretry]
          simp
      · cases hunfinished

omit [DecidableEq ι] in
/-- Every effect keeps the count of the attempts. -/
theorem Effect.counted {move : DeliveryMove} (h : Effect fleet e s s' uid move)
    (hcounted : Counted maxAttempts (s.store.attemptsOf uid) (s.store.delivery uid)) :
    Counted maxAttempts (s'.store.attemptsOf uid) (s'.store.delivery uid) := by
  cases h with
  | idle delivery attempts =>
    rw [delivery, attempts]
    exact hcounted
  | enqueue d before delivery pending attemptCount attempts =>
    have hpos := fleet.maxAttempts_pos
    rw [before] at hcounted
    rw [delivery, attempts, show s.store.attemptsOf uid = [] from hcounted]
    refine ⟨⟨by rw [attemptCount]; rfl, by rw [attemptCount]; exact hpos.le, by simp⟩, fun _ => ?_⟩
    exact ⟨by rw [attemptCount]; exact hpos, by simp⟩
  | lease k now c d event before after intentUid row unfinished free delivery attempts =>
    rw [row] at hcounted
    rw [delivery, attempts]
    exact hcounted.of_attemptCount rfl fun _ => unfinished
  | expire k now d d' i event before row unfinished intent intentUid expired delivery status
      attemptCount attempts =>
    rw [row] at hcounted
    rw [delivery, attempts]
    exact hcounted.of_attemptCount attemptCount fun _ => unfinished
  | cancel d d' generation row unfinished delivery status attemptCount attempts =>
    rw [row] at hcounted
    rw [delivery, attempts]
    exact hcounted.of_attemptCount attemptCount fun _ => unfinished
  | attempt k attemptUid c startedAt completedAt outcome i d event before intentUid mayFinish
      delivery attempts =>
    rw [← intentUid, mayFinish.delivery, intentUid] at hcounted
    have hholds := mayFinish.holds
    rw [DeliveryWorker.holds, decide_eq_true_eq] at hholds
    rw [delivery, attempts]
    exact hcounted.attempt (fleet.common k) hholds.2.1 c startedAt outcome completedAt attemptUid

/-! ## Runs -/

/-- A run of the workers and of the other services. -/
abbrev DeliveryRun (fleet : Fleet ι maxAttempts) := Run fleet.step

/-- Before the first delivery : no execution is under way, and nothing was attempted. -/
structure Undelivered (s : DeliverySystem ι) : Prop where
  keys : s.store.Keys
  projections : s.store.database.analysis.ProjectionsUnique
  pending : ∀ d ∈ s.store.deliveries, d.deliveryStatus = .pending ∧ d.attemptCount = 0
  readable : ∀ i ∈ s.store.intents, i.Readable
  deliveryAttempt : s.store.deliveryAttempt = []
  idle : ∀ k, s.phase k = .idle

/-- What holds in every state of a run. -/
structure DeliveryLedger (maxAttempts : ℕ) (s : DeliveryStore) : Prop where
  keys : s.Keys
  projections : s.database.analysis.ProjectionsUnique
  readable : ∀ i ∈ s.intents, i.Readable
  counted : ∀ uid, Counted maxAttempts (s.attemptsOf uid) (s.delivery uid)

omit [DecidableEq ι] in
/-- Before the first delivery the ledger holds. -/
theorem Undelivered.ledger (hpos : 0 < maxAttempts) (h : Undelivered s) :
    DeliveryLedger maxAttempts s.store := by
  refine ⟨h.keys, h.projections, h.readable, fun uid => ?_⟩
  have hattempts : s.store.attemptsOf uid = [] := by
    rw [DeliveryStore.attemptsOf, h.deliveryAttempt, List.filter_nil]
  rw [hattempts]
  cases hrow : s.store.delivery uid with
  | none => rfl
  | some d =>
    obtain ⟨-, hcount⟩ := h.pending d (DeliveryStore.mem_of_delivery hrow).1
    refine ⟨⟨by rw [hcount]; rfl, by rw [hcount]; exact hpos.le, by simp⟩, fun _ => ?_⟩
    exact ⟨by rw [hcount]; exact hpos, by simp⟩

theorem DeliveryLedger.step (h : DeliveryLedger maxAttempts s.store) (hstep : fleet.step e s s') :
    DeliveryLedger maxAttempts s'.store := by
  have hstore := storeStep h.keys h.projections hstep
  refine ⟨hstore.keys h.keys, hstore.projections h.projections, ?_, fun uid => ?_⟩
  · obtain ⟨new, hnew, hreadable⟩ := hstore.intents
    intro i hi
    rw [hnew] at hi
    exact (List.mem_append.mp hi).elim (h.readable i) (hreadable i)
  · obtain ⟨move, heffect⟩ := exists_effect h.keys h.projections hstep uid
    exact heffect.counted (h.counted uid)

section Runs

variable (run : DeliveryRun fleet) (hstart : Undelivered (run.state 0)) {n m : ℕ}

include hstart

theorem deliveryLedger (n : ℕ) : DeliveryLedger maxAttempts (run.state n).store :=
  run.invariant (P := fun s => DeliveryLedger maxAttempts s.store)
    (hstart.ledger fleet.maxAttempts_pos) (fun _ _ _ hstep h => h.step hstep) n

/-- The run of the job of an intent, with the effects it is made of. -/
theorem exists_jobRun (uid : Uid) : ∃ job : Lease.JobRun deliveryHold DeliveryAttempt,
    (∀ n, job.state n = (run.state n).store.job uid) ∧
      ∀ n, Effect fleet (run.event n) (run.state n) (run.state (n + 1)) uid (job.event n) := by
  have heffect : ∀ n, ∃ move, Effect fleet (run.event n) (run.state n) (run.state (n + 1)) uid
      move := fun n =>
    exists_effect (deliveryLedger run hstart n).keys (deliveryLedger run hstart n).projections
      (run.steps n) uid
  choose move hmove using heffect
  exact ⟨⟨fun n => (run.state n).store.job uid, move, fun n => (hmove n).jobStep⟩,
    fun _ => rfl, hmove⟩

/-- An intent stays, and the generation does not go back. -/
theorem intents_of_le (hnm : n ≤ m) {i : NotificationIntent}
    (hi : i ∈ (run.state n).store.intents) : i ∈ (run.state m).store.intents ∧
      (run.state n).store.metadata.restoreGeneration ≤
        (run.state m).store.metadata.restoreGeneration := by
  refine run.holds_of_le (P := fun s => i ∈ s.store.intents ∧
    (run.state n).store.metadata.restoreGeneration ≤ s.store.metadata.restoreGeneration) hnm
    ⟨hi, le_refl _⟩ fun j _ _ hj => ?_
  have hstore := storeStep (deliveryLedger run hstart j).keys
    (deliveryLedger run hstart j).projections (run.steps j)
  obtain ⟨new, hnew, -⟩ := hstore.intents
  exact ⟨hnew ▸ List.mem_append_left _ hj.1, hj.2.trans hstore.generation⟩

/-- A delivery that is over stays as it is. -/
theorem delivery_of_finished (hnm : n ≤ m) {d : NotificationDeliveryState}
    (hrow : (run.state n).store.delivery uid = some d)
    (hfinished : d.deliveryStatus.unfinished = false) :
    (run.state m).store.delivery uid = some d := by
  obtain ⟨job, hjob, -⟩ := exists_jobRun run hstart uid
  have hclosed : deliveryHold (job.state n).row = .closed := by
    rw [hjob n, DeliveryStore.job, hrow]
    exact deliveryHold_eq_closed.mpr hfinished
  have hsame := Lease.eq_of_closed job hnm hclosed
  rw [hjob n, hjob m] at hsame
  exact (congrArg Lease.Job.row hsame).trans hrow

/-- No attempt is recorded for an intent of an older generation. -/
theorem attemptsOf_of_lt (hnm : n ≤ m) {i : NotificationIntent}
    (hi : i ∈ (run.state n).store.intents)
    (hlt : i.restoreGeneration < (run.state n).store.metadata.restoreGeneration) :
    (run.state m).store.attemptsOf i.intentUid = (run.state n).store.attemptsOf i.intentUid := by
  refine run.holds_of_le (P := fun s => s.store.attemptsOf i.intentUid =
    (run.state n).store.attemptsOf i.intentUid) hnm rfl fun j hnj _ hj => ?_
  obtain ⟨hij, hgeneration⟩ := intents_of_le run hstart hnj hi
  have hledger := deliveryLedger run hstart j
  obtain ⟨move, heffect⟩ :=
    exists_effect hledger.keys hledger.projections (run.steps j) i.intentUid
  rw [← hj]
  cases heffect with
  | attempt k attemptUid c startedAt completedAt outcome i' d _ _ intentUid mayFinish =>
    have hintent : (run.state j).store.intent i.intentUid = some i :=
      lookupBy_of_mem hledger.keys.nodup hij
    have hi' := mayFinish.intent
    rw [intentUid, hintent] at hi'
    cases hi'
    have hholds := mayFinish.holds
    rw [DeliveryWorker.holds, decide_eq_true_eq] at hholds
    have := mayFinish.generation
    omega
  | _ => assumption

end Runs

/-! ## Executions -/

/-- An execution keeps its claim until it ends. -/
theorem claim?_step (h : fleet.step e s s') (k : ι) (hbusy : s.phase k ≠ .idle)
    (hbusy' : s'.phase k ≠ .idle) : (s'.phase k).claim? = (s.phase k).claim? := by
  obtain ⟨-, rfl⟩ := h
  have hupdate : ∀ {k' : ι} {phase : Phase}, (k' = k → phase ≠ .idle →
      phase.claim? = (s.phase k).claim?) → Function.update s.phase k' phase k ≠ .idle →
      (Function.update s.phase k' phase k).claim? = (s.phase k).claim? := by
    intro k' phase hself hne
    by_cases hk : k' = k
    · subst hk
      rw [Function.update_self] at hne ⊢
      exact hself rfl hne
    · rw [Function.update_of_ne (Ne.symm hk)]
  cases e with
  | claim k' now =>
    cases hphase : s.phase k' with
    | idle =>
      simp only [Fleet.next, hphase] at hbusy' ⊢
      split at hbusy'
      · exact hupdate (fun hk _ => absurd hphase (hk ▸ hbusy)) hbusy'
      · rfl
    | _ => simp only [Fleet.next, hphase]
  | check k' =>
    cases hphase : s.phase k' with
    | claimed c startedAt =>
      simp only [Fleet.next, hphase] at hbusy' ⊢
      refine hupdate (fun hk hne => ?_) hbusy'
      rw [← hk, hphase]
      split at hne
      · rw [if_pos ‹_›]
        rfl
      · exact absurd rfl hne
    | _ => simp only [Fleet.next, hphase]
  | send k' reply completedAt =>
    cases hphase : s.phase k' with
    | sending c startedAt =>
      simp only [Fleet.next, hphase] at hbusy' ⊢
      refine hupdate (fun hk _ => ?_) hbusy'
      rw [← hk, hphase]
      rfl
    | _ => simp only [Fleet.next, hphase]
  | finish k' attemptUid =>
    cases hphase : s.phase k' with
    | sent c startedAt outcome completedAt =>
      simp only [Fleet.next, hphase] at hbusy' ⊢
      exact hupdate (fun _ hne => absurd rfl hne) hbusy'
    | _ => simp only [Fleet.next, hphase]
  | abandon k' => exact hupdate (fun _ hne => absurd rfl hne) hbusy'
  | _ => rfl

section Executions

variable (run : DeliveryRun fleet) {n m : ℕ} {k k' : ι} {c : Claim}

/-- The execution of a worker is under way from a state to another. -/
def Busy (run : DeliveryRun fleet) (k : ι) (n m : ℕ) : Prop :=
  ∀ j, n ≤ j → j ≤ m → (run.state j).phase k ≠ .idle

theorem claim?_of_busy (hnm : n ≤ m) (hbusy : Busy run k n m) :
    ((run.state m).phase k).claim? = ((run.state n).phase k).claim? :=
  run.holds_of_le (P := fun s => (s.phase k).claim? = ((run.state n).phase k).claim?) hnm rfl
    fun j hnj hjm hj => (claim?_step (run.steps j) k (hbusy j hnj hjm.le)
      (hbusy (j + 1) (by omega) hjm)).trans hj

/-- Another worker claims the intent that a worker is delivering. -/
structure TakenOver (run : DeliveryRun fleet) (n : ℕ) (k k' : ι) (c : Claim) : Prop where
  other : k' ≠ k
  delivering : ((run.state n).phase k).claim? = some c
  idle : (run.state n).phase k' = .idle
  claim : ∃ now, run.event n = .claim k' now
  claimed : ∃ c' t, (run.state (n + 1)).phase k' = .claimed c' t ∧
    c'.message.intentUid = c.message.intentUid

variable (hstart : Undelivered (run.state 0))

include hstart

/-- A worker that claims an intent holds it. -/
theorem held_of_claimed {now t : Instant} (hevent : run.event n = .claim k now)
    (hidle : (run.state n).phase k = .idle)
    (hclaimed : (run.state (n + 1)).phase k = .claimed c t) :
    deliveryHold ((run.state (n + 1)).store.delivery c.message.intentUid) =
      .held (fleet.worker k).workerId := by
  obtain ⟨-, hnext⟩ := run.steps n
  rw [hevent] at hnext
  rw [hnext] at hclaimed ⊢
  obtain ⟨-, -, -, -, -, -, d, hdelivery⟩ :=
    next_claim_claimed (deliveryLedger run hstart n).keys hidle hclaimed
  rw [hdelivery]
  exact deliveryHold_eq_held.mpr ⟨rfl, rfl⟩

/-- A worker that lost its lease does not hold the intent while its execution lasts. -/
theorem not_held_of_takenOver (h : TakenOver run n k k' c) (hnm : n < m)
    (hbusy : Busy run k n m) :
    deliveryHold ((run.state m).store.delivery c.message.intentUid) ≠
      .held (fleet.worker k).workerId := by
  obtain ⟨now, hevent⟩ := h.claim
  obtain ⟨c', t, hclaimed, huid⟩ := h.claimed
  obtain ⟨job, hjob, heffect⟩ := exists_jobRun run hstart c.message.intentUid
  have hheld := held_of_claimed run hstart hevent h.idle hclaimed
  rw [huid] at hheld
  have hn : deliveryHold (job.state (n + 1)).row ≠ .held (fleet.worker k).workerId := by
    rw [hjob (n + 1), DeliveryStore.job, hheld]
    intro heq
    exact h.other (fleet.distinct (Lease.Hold.held.inj heq))
  have hm := Lease.not_held_of_no_take job (m := m) hnm hn fun j hnj hjm htake => ?_
  · rw [hjob m, DeliveryStore.job] at hm
    exact hm
  · -- Only a new execution of the worker would take the intent.
    have hej := heffect j
    generalize hmove : job.event j = move at hej htake
    cases hej with
    | lease k'' now' c'' d hevent' hbefore =>
      have hk : k'' = k := fleet.distinct (Lease.Move.take.inj htake)
      exact hbusy j (by omega) hjm.le (hk ▸ hbefore)
    | _ => cases htake

/-- A worker that lost its lease records nothing. -/
theorem finish_of_takenOver (h : TakenOver run n k k' c) (hnm : n < m) (hbusy : Busy run k n m)
    {attemptUid : Uid} (hevent : run.event m = .finish k attemptUid) :
    (run.state (m + 1)).store = (run.state m).store := by
  have hnot := not_held_of_takenOver run hstart h hnm hbusy
  have hclaim : ((run.state m).phase k).claim? = some c :=
    (claim?_of_busy run hnm.le hbusy).trans h.delivering
  obtain ⟨-, hnext⟩ := run.steps m
  rw [hevent] at hnext
  rw [hnext]
  cases hphase : (run.state m).phase k with
  | sent c' startedAt outcome completedAt =>
    rw [hphase] at hclaim
    obtain rfl : c' = c := Option.some.inj hclaim
    simp only [Fleet.next, hphase]
    obtain hsame | ⟨i, row, hmay, -⟩ := (fleet.worker k).finish_cases c' startedAt outcome
      completedAt attemptUid (run.state m).store
    · exact hsame
    · have hholds := hmay.holds
      rw [DeliveryWorker.holds, decide_eq_true_eq] at hholds
      rw [hmay.delivery] at hnot
      exact absurd (deliveryHold_eq_held.mpr hholds.2) hnot
  | _ => simp only [Fleet.next, hphase]

/-- The workers are safe : the attempts of an intent are numbered `1` to `attempt_count`, at
most `max_attempts`, and only the last was delivered; a delivery that is over never changes;
no attempt is recorded for an intent of an older generation; a worker whose lease another
took over records nothing. -/
theorem delivery_worker_safety :
    (∀ n, ∀ i ∈ (run.state n).store.intents, ∃ d,
      (run.state n).store.delivery i.intentUid = some d ∧
        AttemptsNumbered maxAttempts d ((run.state n).store.attemptsOf i.intentUid)) ∧
    (∀ n m uid d, n ≤ m → (run.state n).store.delivery uid = some d →
      d.deliveryStatus ∈ [.delivered, .failed, .expired, .cancelled] →
        (run.state m).store.delivery uid = some d) ∧
    (∀ n m, ∀ i ∈ (run.state n).store.intents, n ≤ m →
      i.restoreGeneration < (run.state n).store.metadata.restoreGeneration →
        (run.state m).store.attemptsOf i.intentUid =
          (run.state n).store.attemptsOf i.intentUid) ∧
    (∀ n m k k' c attemptUid, TakenOver run n k k' c → n < m → Busy run k n m →
      run.event m = .finish k attemptUid →
        (run.state (m + 1)).store = (run.state m).store) := by
  refine ⟨fun n i hi => ?_, fun n m uid d hnm hrow hfinal => ?_, fun n m i hi hnm hlt => ?_,
    fun n m k k' c attemptUid h hnm hbusy hevent => ?_⟩
  · have hledger := deliveryLedger run hstart n
    have hcounted := hledger.counted i.intentUid
    have hmem : i.intentUid ∈
        (run.state n).store.deliveries.map NotificationDeliveryState.intentUid :=
      hledger.keys.same ▸ List.mem_map_of_mem hi
    cases hrow : (run.state n).store.delivery i.intentUid with
    | none => exact absurd hmem (lookupBy_eq_none_iff.mp hrow)
    | some d =>
      rw [hrow] at hcounted
      exact ⟨d, rfl, hcounted.1⟩
  · refine delivery_of_finished run hstart hnm hrow ?_
    simp only [List.mem_cons, List.not_mem_nil, or_false] at hfinal
    rcases hfinal with h | h | h | h <;> rw [h] <;> rfl
  · exact attemptsOf_of_lt run hstart hnm hi hlt
  · exact finish_of_takenOver run hstart h hnm hbusy hevent

end Executions

/-! ## A delivery -/

/-- Two workers. -/
def sampleFleet : Fleet Bool 3 where
  maxAttempts_pos := by decide
  worker k :=
    { workerId := if k then "official" else "local"
      adapters := [.inApp, .webhook]
      lease := 30 * microsPerSecond
      retry := 10 * microsPerSecond
      maxAttempts := 3
      workerId_ne := by cases k <;> decide
      lease_pos := by decide
      retry_pos := by decide
      maxAttempts_pos := by decide }
  distinct := by
    intro k k' h
    cases k <;> cases k' <;> simp_all
  common _ := rfl

def sampleIntent : NotificationIntent where
  intentUid := "intent"
  eventVersionUid := "version"
  channel := .inApp
  intentKind := .risk
  idempotencyKey := "key"
  frozenContextJson := "{}"
  frozenContextHash := "hash"
  createdAt := 0
  expiresAt := minutes 5
  restoreGeneration := 0

/-- One intent, and no execution. -/
def sampleSystem : DeliverySystem Bool where
  store :=
    { database :=
        { evidence := ⟨[], [], [], [], [], [], [], [], []⟩
          thresholds := ⟨[], [], [], [], []⟩
          analysis := { AnalysisTables.empty with
            notificationIntent := [sampleIntent]
            notificationDeliveryState :=
              [⟨"intent", .pending, 0, some 0, none, none, none, 1, 0⟩] }
          artifacts := ⟨[], []⟩
          officialCycleRun := []
          metadata := ⟨0, none⟩ }
      deliveryAttempt := []
      notificationEnabled := false }
  phase _ := .idle

/-- A run of the two workers, after which nothing happens. -/
def sampleRun (events : List (DeliveryEvent Bool)) (h : ∀ e ∈ events, ∀ db, e ≠ .other db) :
    DeliveryRun sampleFleet :=
  .ofEvents sampleFleet.next sampleSystem
    (fun n => events.getD n (.updateNotificationSettings false)) fun n s => by
      refine ⟨fun db hother => ?_, rfl⟩
      rw [List.getD_eq_getElem?_getD] at hother
      cases hevent : events[n]? with
      | none =>
        rw [hevent] at hother
        cases hother
      | some e =>
        rw [hevent] at hother
        exact absurd hother (h e (List.mem_of_getElem? hevent) db)

/-- The sample runs start before the first delivery. -/
theorem undelivered_sampleRun {events : List (DeliveryEvent Bool)}
    {h : ∀ e ∈ events, ∀ db, e ≠ .other db} : Undelivered ((sampleRun events h).state 0) where
  keys := ⟨rfl, List.nodup_singleton _⟩
  projections := List.nodup_nil
  pending := by
    intro d hd
    rw [List.mem_singleton.mp hd]
    exact ⟨rfl, rfl⟩
  readable := by
    intro i hi
    rw [List.mem_singleton.mp hi, NotificationIntent.Readable]
    decide
  deliveryAttempt := rfl
  idle _ := rfl

/-- An attempt that fails and one that delivers. -/
def sampleDelivery : DeliveryRun sampleFleet :=
  sampleRun [.claim false 0, .check false, .send false none 5, .finish false "attempt-1",
    .claim true (10 * microsPerSecond + 5), .check true,
    .send true (some ⟨true, false, none, none⟩) (11 * microsPerSecond), .finish true "attempt-2"]
    (by simp)

/-- The two attempts are the rows `1` and `2` of the intent. -/
theorem sampleDelivery_safe :
    ((sampleDelivery.state 8).store.attemptsOf "intent").map DeliveryAttempt.outcome =
      [.retryableFailure, .delivered] ∧
    ∃ d, (sampleDelivery.state 8).store.delivery "intent" = some d ∧
      AttemptsNumbered 3 d ((sampleDelivery.state 8).store.attemptsOf "intent") :=
  ⟨by decide +kernel, (delivery_worker_safety sampleDelivery undelivered_sampleRun).1 8 sampleIntent
    (by decide +kernel)⟩

end MarketMonitor
