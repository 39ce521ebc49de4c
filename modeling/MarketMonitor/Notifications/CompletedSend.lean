import MarketMonitor.Notifications.DeliveryRuns

/-!
# Completed sends

While a message is being sent, the claims of the other workers sweep : they expire every
intent that is over by their clock, also one whose lease still runs. A send that was
completed within its lease is recorded exactly when no such claim came between
(`completed_send_recorded_iff`); otherwise the delivery ends `EXPIRED`, and no attempt
remains of it (`sweep_forgets_completed_send`).
-/

namespace MarketMonitor

open Transaction Keyed

variable {ι : Type} [DecidableEq ι] {maxAttempts : ℕ} {fleet : Fleet ι maxAttempts}

/-! ## Sends -/

/-- The time of the steps of a run, which no clock of a claim is ahead of. -/
structure WallClock (run : DeliveryRun fleet) where
  time : ℕ → Instant
  monotone : Monotone time
  claim_le : ∀ n k now, run.event n = .claim k now → now ≤ time n

/-- An execution that claims at step `n`, whose adapter reports that the message was
delivered, and that finishes at step `m`. -/
structure CompletedSend (run : DeliveryRun fleet) (n m : ℕ) (k : ι) (c : Claim)
    (startedAt completedAt : Instant) (outcome : DeliveryResult) : Prop where
  lt : n < m
  claim : run.event n = .claim k startedAt
  idle : (run.state n).phase k = .idle
  claimed : (run.state (n + 1)).phase k = .claimed c startedAt
  busy : Busy run k (n + 1) m
  sent : (run.state m).phase k = .sent c startedAt outcome completedAt
  delivered : outcome.delivered = true
  finish : ∃ attemptUid, run.event m = .finish k attemptUid

/-- After step `m` a delivered attempt is recorded, and the delivery stays `DELIVERED`. -/
def Recorded (run : DeliveryRun fleet) (m : ℕ) (c : Claim) : Prop :=
  (∃ a ∈ (run.state (m + 1)).store.attemptsOf c.message.intentUid, a.outcome = .delivered) ∧
    ∀ j, m < j → ∃ d, (run.state j).store.delivery c.message.intentUid = some d ∧
      d.deliveryStatus = .delivered

/-- Between the steps `n` and `m` no worker begins a claim at a time when the intent is
over. -/
def Unswept (run : DeliveryRun fleet) (n m : ℕ) (c : Claim) : Prop :=
  ∀ j k now, n < j → j < m → run.event j = .claim k now → (run.state j).phase k = .idle →
    ∀ i ∈ (run.state j).store.intents, i.intentUid = c.message.intentUid → now < i.expiresAt

/-- Every execution draws an identifier of its own for its attempt. -/
def FreshAttempts (run : DeliveryRun fleet) : Prop :=
  ∀ n k attemptUid, run.event n = .finish k attemptUid →
    ∀ a ∈ (run.state n).store.deliveryAttempt, a.attemptUid ≠ attemptUid

section Sends

variable {run : DeliveryRun fleet} {n m : ℕ} {k : ι} {c : Claim} {startedAt completedAt : Instant}
  {outcome : DeliveryResult}

/-- What a claim leaves : the intent of the current generation, and its delivery state. -/
theorem CompletedSend.leased (hstart : Undelivered (run.state 0))
    (h : CompletedSend run n m k c startedAt completedAt outcome) :
    (run.state n).store.metadata.restoreGeneration = c.generation ∧
      ∃ i ∈ (run.state n).store.intents, i.intentUid = c.message.intentUid ∧
        i.restoreGeneration = c.generation ∧
        ∃ d, (run.state (n + 1)).store.delivery c.message.intentUid =
          some ((fleet.worker k).leased startedAt d) := by
  obtain ⟨-, hnext⟩ := run.steps n
  rw [h.claim] at hnext
  have hclaimed := h.claimed
  rw [hnext] at hclaimed ⊢
  exact (next_claim_claimed (deliveryLedger run hstart n).keys h.idle hclaimed).2

/-- The job of the intent stays with the worker until a claim sweeps it. -/
theorem CompletedSend.job_eq (hstart : Undelivered (run.state 0)) (clock : WallClock run)
    (hgeneration : ∀ j, (run.state j).store.metadata.restoreGeneration =
      (run.state 0).store.metadata.restoreGeneration)
    (h : CompletedSend run n m k c startedAt completedAt outcome)
    (hlease : clock.time m < startedAt + (fleet.worker k).lease) {j : ℕ} (hnj : n < j)
    (hjm : j ≤ m) (hunswept : Unswept run n j c) :
    (run.state j).store.job c.message.intentUid =
      (run.state (n + 1)).store.job c.message.intentUid := by
  obtain ⟨-, i, hi, huid, -, d, hd⟩ := h.leased hstart
  obtain ⟨job, hjob, heffect⟩ := exists_jobRun run hstart c.message.intentUid
  refine run.holds_of_le (P := fun s => s.store.job c.message.intentUid =
    (run.state (n + 1)).store.job c.message.intentUid) hnj rfl fun l hnl hlj hl => ?_
  have hrow : (run.state l).store.delivery c.message.intentUid =
      some ((fleet.worker k).leased startedAt d) := (congrArg Lease.Job.row hl).trans hd
  have hstep := job.steps l
  rw [hjob l, hjob (l + 1)] at hstep
  have hheld : deliveryHold ((run.state l).store.job c.message.intentUid).row =
      .held (fleet.worker k).workerId := by
    rw [DeliveryStore.job, hrow]
    exact deliveryHold_eq_held.mpr ⟨rfl, rfl⟩
  refine (hstep.eq_of_held hheld ?_ ?_ ?_).trans hl
  · -- The lease runs, so that nobody takes it over.
    intro owner htake
    have hel := heffect l
    rw [htake] at hel
    cases hel with
    | lease k' now c' d' hevent _ _ _ hrow' _ hfree =>
      rw [hrow] at hrow'
      cases hrow'
      have hfree := hfree rfl
      simp only [DeliveryWorker.leased, Option.any_some, decide_eq_true_eq] at hfree
      have hnow := clock.claim_le l k' now hevent
      have htime := clock.monotone (show l ≤ m by omega)
      exact absurd ((hfree.trans hnow).trans htime) (Nat.not_le.mpr hlease)
  · -- No claim sweeps the intent, and the generation stays.
    intro hclose
    have hel := heffect l
    rw [hclose] at hel
    cases hel with
    | expire k' now d' d'' i' hevent hidle _ _ hi' huid' hexpired =>
      exact absurd (hunswept l k' now (by omega) hlj hevent hidle i' hi' huid')
        (Nat.not_lt.mpr hexpired)
    | cancel d' d'' hadvanced =>
      rw [hgeneration l, hgeneration (l + 1)] at hadvanced
      omega
  · -- The worker finishes at step `m`, not before.
    intro attempt hfinish
    have hel := heffect l
    generalize hmove : job.event l = move at hel hfinish
    cases hel with
    | attempt k' attemptUid c' startedAt' completedAt' outcome' i' d' hevent hbefore =>
      have hk : k' = k := by
        injection hfinish with hworker
        exact fleet.distinct hworker
      subst hk
      obtain ⟨-, hnext⟩ := run.steps l
      rw [hevent] at hnext
      have hidle : (run.state (l + 1)).phase k' = .idle := by
        rw [hnext]
        simp only [Fleet.next, hbefore, Function.update_self]
      exact h.busy (l + 1) (by omega) (by omega) hidle
    | _ => cases hfinish

/-- The first claim that sweeps the intent. -/
theorem exists_first_sweep (hswept : ¬Unswept run n m c) :
    ∃ l k' now, n < l ∧ l < m ∧ Unswept run n l c ∧ run.event l = .claim k' now ∧
      (run.state l).phase k' = .idle ∧ ∃ i ∈ (run.state l).store.intents,
        i.intentUid = c.message.intentUid ∧ i.expiresAt ≤ now := by
  classical
  have hexists : ∃ j, j ≤ m ∧ ¬Unswept run n j c := ⟨m, le_refl m, hswept⟩
  obtain ⟨hjm, hnot⟩ := Nat.find_spec hexists
  have hmin := fun l => @Nat.find_min _ _ hexists l
  generalize Nat.find hexists = j at hjm hnot hmin
  simp only [Unswept, not_forall, Nat.not_lt] at hnot
  obtain ⟨l, k', now, hnl, hlj, hevent, hidle, i, hi, huid, hexpired⟩ := hnot
  refine ⟨l, k', now, hnl, hlj.trans_le hjm, ?_, hevent, hidle, i, hi, huid, hexpired⟩
  by_contra hcon
  exact hmin l hlj ⟨(hlj.trans_le hjm).le, hcon⟩

section Row

-- The row that the claim of the worker left.
variable {d : NotificationDeliveryState} {i : NotificationIntent}

/-- A sweep expires the delivery of the intent, which a worker holds. -/
theorem expired_of_sweep (hstart : Undelivered (run.state 0)) {l : ℕ} {k' : ι} {now : Instant}
    (hnormal : (run.state l).store.metadata.isNormal = true)
    (hevent : run.event l = .claim k' now) (hidle : (run.state l).phase k' = .idle)
    (hi : i ∈ (run.state l).store.intents) (huid : i.intentUid = c.message.intentUid)
    (hexpired : i.expiresAt ≤ now)
    (hrow : (run.state l).store.delivery c.message.intentUid =
      some ((fleet.worker k).leased startedAt d)) :
    ∃ d', (run.state (l + 1)).store.delivery c.message.intentUid = some d' ∧
      d'.deliveryStatus = .expired := by
  have hledger := deliveryLedger run hstart l
  obtain ⟨-, hnext⟩ := run.steps l
  rw [hevent] at hnext
  rw [← huid] at hrow ⊢
  rw [hnext]
  exact next_claim_expires fleet hledger.keys hledger.readable hnormal hidle hi hexpired hrow rfl

/-- The attempt of a worker that holds the intent has a number of its own. -/
theorem attemptRow_free (hstart : Undelivered (run.state 0)) (hfresh : FreshAttempts run)
    {attemptUid : Uid} (hevent : run.event m = .finish k attemptUid)
    (hrow : (run.state m).store.delivery c.message.intentUid =
      some ((fleet.worker k).leased startedAt d)) (outcome : DeliveryResult)
    (completedAt : Instant) :
    ∀ a ∈ (run.state m).store.deliveryAttempt, deliveryAttemptTable.clash
      ((fleet.worker k).attemptRow c ((fleet.worker k).leased startedAt d) startedAt outcome
        completedAt attemptUid) a = false := by
  have hcounted := (deliveryLedger run hstart m).counted c.message.intentUid
  rw [hrow] at hcounted
  intro a ha
  simp only [deliveryAttemptTable, DeliveryWorker.attemptRow, decide_eq_false_iff_not, not_or,
    not_and]
  refine ⟨(hfresh m k attemptUid hevent a ha).symm, fun hsame hnumber => ?_⟩
  have hmem : a.attemptNumber ∈ ((run.state m).store.attemptsOf c.message.intentUid).map
      DeliveryAttempt.attemptNumber := by
    refine List.mem_map_of_mem (List.mem_filter.mpr ⟨ha, ?_⟩)
    simpa using hsame.symm
  rw [hcounted.1.numbers, List.mem_range'_1] at hmem
  omega

/-- A worker that may finish records its attempt, and settles the delivery. -/
theorem next_finish (hstart : Undelivered (run.state 0)) (hfresh : FreshAttempts run)
    {attemptUid : Uid} (hevent : run.event m = .finish k attemptUid)
    (hsent : (run.state m).phase k = .sent c startedAt outcome completedAt)
    (hmay : (fleet.worker k).MayFinish c (run.state m).store i
      ((fleet.worker k).leased startedAt d)) :
    (fleet.worker k).attemptRow c ((fleet.worker k).leased startedAt d) startedAt outcome
        completedAt attemptUid ∈ (run.state (m + 1)).store.attemptsOf c.message.intentUid ∧
      (run.state (m + 1)).store.delivery c.message.intentUid =
        some ((fleet.worker k).settled outcome completedAt
          ((fleet.worker k).leased startedAt d)) := by
  have hrun := DeliveryWorker.finish_of_mayFinish hmay
    (attemptRow_free hstart hfresh hevent hmay.delivery outcome completedAt)
  obtain ⟨-, hnext⟩ := run.steps m
  rw [hevent] at hnext
  simp only [Fleet.next, hsent, hrun, stateAfter] at hnext
  constructor
  · rw [hnext, DeliveryStore.attemptsOf]
    refine List.mem_filter.mpr ⟨List.mem_append_right _ (List.mem_singleton_self _), ?_⟩
    simp [DeliveryWorker.attemptRow]
  · rw [hnext]
    refine (DeliveryStore.delivery_mapDeliveries _
      ((fleet.worker k).settle_intentUid outcome completedAt _) _).trans ?_
    refine (congrArg (Option.map _) hmay.delivery).trans ?_
    rw [Option.map_some, DeliveryWorker.settle_self]

end Row

/-- A completed send is recorded exactly when no claim swept the intent meanwhile. -/
theorem completed_send_recorded_iff (hstart : Undelivered (run.state 0))
    (hnormal : ∀ j, (run.state j).store.metadata.isNormal = true ∧
      (run.state j).store.metadata.restoreGeneration =
        (run.state 0).store.metadata.restoreGeneration)
    (hfresh : FreshAttempts run) (clock : WallClock run)
    (h : CompletedSend run n m k c startedAt completedAt outcome)
    (hlease : clock.time m < startedAt + (fleet.worker k).lease) :
    Recorded run m c ↔ Unswept run n m c := by
  obtain ⟨hgeneration, i, hi, huid, hintentGeneration, d, hd⟩ := h.leased hstart
  -- Until a sweep the worker holds the intent.
  have hrow : ∀ {j}, n < j → j ≤ m → Unswept run n j c →
      (run.state j).store.delivery c.message.intentUid =
        some ((fleet.worker k).leased startedAt d) := fun hnj hjm hunswept =>
    (congrArg Lease.Job.row (CompletedSend.job_eq hstart clock (fun j => (hnormal j).2) h hlease
      hnj hjm hunswept)).trans hd
  constructor
  · -- The first sweep closes the delivery, which then stays `EXPIRED`.
    rintro ⟨-, hrecorded⟩
    by_contra hswept
    obtain ⟨d', hd', hdelivered⟩ := hrecorded (m + 1) m.lt_succ_self
    obtain ⟨l, k', now, hnl, hlm, hunswept, hevent, hidle, i', hi', huid', hexpired⟩ :=
      exists_first_sweep hswept
    obtain ⟨d'', hd'', hstatus⟩ := expired_of_sweep hstart (hnormal l).1 hevent hidle hi' huid'
      hexpired (hrow hnl hlm.le hunswept)
    have hend := delivery_of_finished run hstart (show l + 1 ≤ m + 1 by omega) hd''
      (by rw [hstatus]; rfl)
    rw [hd'] at hend
    cases hend
    rw [hdelivered] at hstatus
    cases hstatus
  · -- The worker still holds the intent, and its attempt has the next number.
    intro hunswept
    obtain ⟨attemptUid, hevent⟩ := h.finish
    have hintent : (run.state m).store.intent c.message.intentUid = some i := by
      have := lookupBy_of_mem (deliveryLedger run hstart m).keys.nodup
        (intents_of_le run hstart h.lt.le hi).1
      rwa [huid] at this
    have hmay : (fleet.worker k).MayFinish c (run.state m).store i
        ((fleet.worker k).leased startedAt d) := by
      refine ⟨(hnormal m).1, ?_, hintent, hrow h.lt le_rfl hunswept, ?_⟩
      · rw [(hnormal m).2, ← (hnormal n).2, hgeneration]
      · rw [DeliveryWorker.holds, decide_eq_true_eq]
        exact ⟨hintentGeneration, rfl, rfl⟩
    obtain ⟨hattempt, hdelivery⟩ := next_finish hstart hfresh hevent h.sent hmay
    have hverdict : (fleet.worker k).verdict (d.attemptCount + 1) outcome completedAt =
        (.delivered, .delivered, none) := by
      rw [DeliveryWorker.verdict, if_pos h.delivered]
    have hstatus : ((fleet.worker k).settled outcome completedAt
        ((fleet.worker k).leased startedAt d)).deliveryStatus = .delivered :=
      congrArg Prod.fst hverdict
    exact ⟨⟨_, hattempt, congrArg (fun v => v.2.1) hverdict⟩, fun j hj =>
      ⟨_, delivery_of_finished run hstart hj hdelivery (by rw [hstatus]; rfl), hstatus⟩⟩

end Sends

/-! ## A send that is recorded -/

/-- The second worker begins a claim just before the intent is over. -/
def unsweptDelivery : DeliveryRun sampleFleet :=
  sampleRun [.claim false (290 * microsPerSecond), .check false,
    .send false (some ⟨true, false, none, none⟩) (291 * microsPerSecond),
    .claim true (299 * microsPerSecond), .finish false "attempt-1"] (by simp)

/-- The steps are four seconds apart. -/
def unsweptClock : WallClock unsweptDelivery where
  time n := 290 * microsPerSecond + n * (4 * microsPerSecond)
  monotone := by
    intro n m h
    exact Nat.add_le_add_left (Nat.mul_le_mul_right _ h) _
  claim_le := by
    intro n k now h
    match n with
    | 0 => cases h; decide
    | 1 | 2 | 4 => cases h
    | 3 => cases h; decide
    | n + 5 => cases h

def sampleClaim : Claim := ⟨⟨"intent", "key", .inApp, .obj []⟩, 0⟩

/-- The first execution completes its send. -/
theorem completedSend_unsweptDelivery : CompletedSend unsweptDelivery 0 4 false sampleClaim
    (290 * microsPerSecond) (291 * microsPerSecond) ⟨true, false, none, none⟩ where
  lt := by decide
  claim := rfl
  idle := rfl
  claimed := by rfl
  busy := by
    intro j hj hj' hidle
    match j with
    | 0 => omega
    | 1 | 2 | 3 | 4 => cases hidle
    | j + 5 => omega
  sent := by rfl
  delivered := rfl
  finish := ⟨_, rfl⟩

theorem metadata_unsweptDelivery : ∀ j, (unsweptDelivery.state j).store.metadata = ⟨0, none⟩
  | 0 | 1 | 2 | 3 | 4 | 5 => by decide +kernel
  | j + 6 => metadata_unsweptDelivery (j + 5)

/-- Without a sweep the send of the first worker is recorded. -/
theorem unsweptDelivery_recorded : Recorded unsweptDelivery 4 sampleClaim := by
  have hstart : Undelivered (unsweptDelivery.state 0) := undelivered_sampleRun
  refine (completed_send_recorded_iff hstart (fun j => ?_) ?_ unsweptClock
    completedSend_unsweptDelivery (by decide)).mpr ?_
  · rw [metadata_unsweptDelivery j, metadata_unsweptDelivery 0]
    exact ⟨by decide, rfl⟩
  · intro n k attemptUid hevent a ha
    match n with
    | 0 | 1 | 2 | 3 => cases hevent
    | 4 =>
      have hnone : (unsweptDelivery.state 4).store.deliveryAttempt = [] := by decide +kernel
      rw [hnone] at ha
      cases ha
    | n + 5 => cases hevent
  · intro j k now hj hj' hevent _ i hi _
    match j with
    | 1 | 2 => cases hevent
    | 3 =>
      have hintents : (unsweptDelivery.state 3).store.intents = [sampleIntent] := by
        decide +kernel
      rw [hintents] at hi
      rw [List.mem_singleton.mp hi]
      cases hevent
      decide
    | j + 4 => omega

/-! ## A send that is forgotten -/

/-- The second worker begins a claim when the intent is over, while the first is sending. -/
def sweptDelivery : DeliveryRun sampleFleet :=
  sampleRun [.claim false (290 * microsPerSecond), .check false,
    .send false (some ⟨true, false, none, none⟩) (291 * microsPerSecond),
    .claim true (300 * microsPerSecond), .finish false "attempt-1"] (by simp)

/-- The steps are four seconds apart. -/
def sweptClock : WallClock sweptDelivery where
  time n := 290 * microsPerSecond + n * (4 * microsPerSecond)
  monotone := by
    intro n m h
    exact Nat.add_le_add_left (Nat.mul_le_mul_right _ h) _
  claim_le := by
    intro n k now h
    match n with
    | 0 => cases h; decide
    | 1 | 2 | 4 => cases h
    | 3 => cases h; decide
    | n + 5 => cases h

/-- The first worker claims, is sent the reply that the message was delivered, and finishes
within its lease. -/
theorem completedSend_sweptDelivery : CompletedSend sweptDelivery 0 4 false sampleClaim
    (290 * microsPerSecond) (291 * microsPerSecond) ⟨true, false, none, none⟩ where
  lt := by decide
  claim := rfl
  idle := rfl
  claimed := by rfl
  busy := by
    intro j hj hj' hidle
    match j with
    | 0 => omega
    | 1 | 2 | 3 | 4 => cases hidle
    | j + 5 => omega
  sent := by rfl
  delivered := rfl
  finish := ⟨_, rfl⟩

/-- A send completed in its lease ends `EXPIRED`, and no attempt remains of it. -/
theorem sweep_forgets_completed_send :
    CompletedSend sweptDelivery 0 4 false sampleClaim (290 * microsPerSecond)
      (291 * microsPerSecond) ⟨true, false, none, none⟩ ∧
    sweptClock.time 4 < 290 * microsPerSecond + (sampleFleet.worker false).lease ∧
    (sweptDelivery.state 5).store.deliveryAttempt = [] ∧
    ((sweptDelivery.state 5).store.delivery "intent").map
      NotificationDeliveryState.deliveryStatus = some .expired ∧
    ¬Recorded sweptDelivery 4 sampleClaim := by
  have hnone : (sweptDelivery.state 5).store.deliveryAttempt = [] := by decide +kernel
  refine ⟨completedSend_sweptDelivery, by decide, hnone, by decide +kernel, ?_⟩
  rintro ⟨⟨a, ha, -⟩, -⟩
  rw [DeliveryStore.attemptsOf, hnone] at ha
  cases ha

end MarketMonitor
