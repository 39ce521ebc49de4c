import MarketMonitor.Library.Lease
import MarketMonitor.Notifications.Outbox

/-!
# What a step does to the delivery of an intent

An intent is a job (`Lease.Job`) : its row is its delivery state, and its attempts are the
rows of `delivery_attempt` in the order of their insertion. Every step of the system is one
move of the job of each intent, and `Explains` says what the move tells about the step.
-/

namespace MarketMonitor

open Transaction Keyed

/-! ## Rows -/

namespace DeliveryStore

variable (s : DeliveryStore) {f : NotificationDeliveryState → NotificationDeliveryState}
  {uid : Uid}

@[simp] theorem intents_mapDeliveries : (s.mapDeliveries f).intents = s.intents := rfl

@[simp] theorem intent_mapDeliveries : (s.mapDeliveries f).intent uid = s.intent uid := rfl

@[simp] theorem deliveries_mapDeliveries :
    (s.mapDeliveries f).deliveries = s.deliveries.map f := rfl

@[simp] theorem metadata_mapDeliveries : (s.mapDeliveries f).metadata = s.metadata := rfl

@[simp] theorem deliveryAttempt_mapDeliveries :
    (s.mapDeliveries f).deliveryAttempt = s.deliveryAttempt := rfl

theorem delivery_mapDeliveries (hf : ∀ d, (f d).intentUid = d.intentUid) (uid : Uid) :
    (s.mapDeliveries f).delivery uid = (s.delivery uid).map f :=
  lookupBy_map hf

/-- The attempts of an intent. -/
def attemptsOf (uid : Uid) : List DeliveryAttempt :=
  s.deliveryAttempt.filter fun a => a.intentUid = uid

@[simp] theorem attemptsOf_mapDeliveries : (s.mapDeliveries f).attemptsOf uid = s.attemptsOf uid :=
  rfl

/-- Every intent has one delivery state. -/
structure Keys : Prop where
  same : s.deliveries.map NotificationDeliveryState.intentUid =
    s.intents.map NotificationIntent.intentUid
  nodup : (s.intents.map NotificationIntent.intentUid).Nodup

variable {s}

theorem Keys.nodup_deliveries (h : s.Keys) :
    (s.deliveries.map NotificationDeliveryState.intentUid).Nodup :=
  h.same ▸ h.nodup

theorem Keys.mapDeliveries (h : s.Keys) (hf : ∀ d, (f d).intentUid = d.intentUid) :
    (s.mapDeliveries f).Keys := by
  refine ⟨?_, h.nodup⟩
  rw [deliveries_mapDeliveries, List.map_map, intents_mapDeliveries, ← h.same]
  exact List.map_congr_left fun d _ => hf d

theorem mem_of_delivery {d : NotificationDeliveryState} (h : s.delivery uid = some d) :
    d ∈ s.deliveries ∧ d.intentUid = uid :=
  ⟨mem_of_lookupBy h, key_of_lookupBy h⟩

end DeliveryStore

/-! ## The job of an intent -/

/-- Who holds a delivery. -/
def deliveryHold : Option NotificationDeliveryState → Lease.Hold String
  | none => .waiting
  | some d =>
    match d.deliveryStatus with
    | .pending | .retryWait => .waiting
    | .processing => d.leaseOwner.elim .waiting .held
    | .delivered | .failed | .cancelled | .expired => .closed

theorem deliveryHold_eq_closed {d : NotificationDeliveryState} :
    deliveryHold (some d) = .closed ↔ d.deliveryStatus.unfinished = false := by
  cases hstatus : d.deliveryStatus <;> cases howner : d.leaseOwner <;>
    simp [deliveryHold, DeliveryStatus.unfinished, hstatus, howner]

theorem deliveryHold_eq_held {d : NotificationDeliveryState} {owner : String} :
    deliveryHold (some d) = .held owner ↔
      d.deliveryStatus = .processing ∧ d.leaseOwner = some owner := by
  cases hstatus : d.deliveryStatus <;> cases howner : d.leaseOwner <;>
    simp [deliveryHold, hstatus, howner]

/-- The job of an intent. -/
def DeliveryStore.job (s : DeliveryStore) (uid : Uid) :
    Lease.Job (Option NotificationDeliveryState) DeliveryAttempt :=
  ⟨s.delivery uid, s.attemptsOf uid⟩

/-- A move of the job of an intent. -/
abbrev DeliveryMove := Lease.Move String DeliveryAttempt

/-- A step of the job of an intent. -/
abbrev JobStep (move : DeliveryMove) (s s' : DeliveryStore) (uid : Uid) : Prop :=
  Lease.Step deliveryHold move (s.job uid) (s'.job uid)

variable {s s' : DeliveryStore} {uid : Uid} {d : NotificationDeliveryState}

theorem JobStep.of_eq (hdelivery : s'.delivery uid = s.delivery uid)
    (hattempts : s'.attemptsOf uid = s.attemptsOf uid) : JobStep .idle s s' uid := by
  have hjob : s'.job uid = s.job uid := by
    rw [DeliveryStore.job, hdelivery, hattempts, DeliveryStore.job]
  rw [JobStep, hjob]
  exact .idle _

/-! ## Claiming -/

theorem expireDelivery_intentUid (intents : List NotificationIntent) (now : Instant)
    (d : NotificationDeliveryState) : (expireDelivery intents now d).intentUid = d.intentUid := by
  unfold expireDelivery
  split <;> rfl

theorem cancelDelivery_intentUid (occurredAt : Instant) (d : NotificationDeliveryState) :
    (cancelDelivery occurredAt d).intentUid = d.intentUid := by
  unfold cancelDelivery
  split <;> rfl

/-- The store after the expiry sweep. -/
def DeliveryStore.swept (s : DeliveryStore) (now : Instant) : DeliveryStore :=
  s.mapDeliveries (expireDelivery s.intents now)

theorem delivery_swept (now : Instant) (uid : Uid) :
    (s.swept now).delivery uid = (s.delivery uid).map (expireDelivery s.intents now) :=
  s.delivery_mapDeliveries (expireDelivery_intentUid _ _) uid

/-- A delivery that the sweep leaves unfinished is as it was. -/
theorem eq_of_unfinished_expireDelivery {intents : List NotificationIntent} {now : Instant}
    (h : (expireDelivery intents now d).deliveryStatus.unfinished = true) :
    expireDelivery intents now d = d := by
  unfold expireDelivery at h ⊢
  split at h
  · cases h
  · rename_i hnot
    rw [if_neg hnot]

namespace DeliveryWorker

variable (worker : DeliveryWorker) {now : Instant}

theorem takeLease_intentUid (now : Instant) (row d : NotificationDeliveryState) :
    (worker.takeLease now row d).intentUid = d.intentUid := by
  unfold takeLease
  split <;> rfl

/-- The row whose lease is taken. -/
def leased (now : Instant) (row : NotificationDeliveryState) : NotificationDeliveryState :=
  { row with
    deliveryStatus := .processing
    leaseOwner := some worker.workerId
    leaseUntil := some (now + worker.lease)
    version := row.version + 1
    updatedAt := now }

theorem takeLease_self (row : NotificationDeliveryState) :
    worker.takeLease now row row = worker.leased now row := by
  rw [takeLease, if_pos ⟨rfl, rfl⟩, leased]

theorem takeLease_of_ne {row : NotificationDeliveryState} (h : d.intentUid ≠ row.intentUid) :
    worker.takeLease now row d = d := by
  rw [takeLease, if_neg fun hand => h hand.1]

/-- The claim of an intent. -/
def claimOf (s : DeliveryStore) (i : NotificationIntent) (context : Json.Value) : Claim :=
  ⟨⟨i.intentUid, i.idempotencyKey, i.channel, context⟩, s.metadata.restoreGeneration⟩

/-- An intent that is claimed next : it and its delivery state, after the sweep. -/
theorem nextClaim_eq_some {i : NotificationIntent} {row : NotificationDeliveryState}
    (h : nextClaim s now = some (i, row)) :
    i ∈ s.intents ∧ s.delivery i.intentUid = some row ∧ claimable s now (i, row) = true := by
  obtain ⟨hjoined, hclaimable⟩ := List.mem_filter.mp (mem_of_earliest h)
  obtain ⟨i', hi', hmap⟩ := List.mem_filterMap.mp hjoined
  obtain ⟨row', hrow', heq⟩ := Option.map_eq_some_iff.mp hmap
  cases heq
  exact ⟨hi', hrow', hclaimable⟩

/-- Under unique keys the update of a claim changes one row. -/
theorem countP_claimed (hkeys : s.Keys) {row : NotificationDeliveryState}
    (hrow : s.delivery uid = some row) : (s.deliveries.countP fun d =>
      d.intentUid = row.intentUid ∧ d.version = row.version) = 1 := by
  obtain ⟨hmem, huid⟩ := DeliveryStore.mem_of_delivery hrow
  have hfilter : ∀ {rows : List NotificationDeliveryState},
      (rows.map NotificationDeliveryState.intentUid).Nodup → row ∈ rows →
      (rows.countP fun d => d.intentUid = row.intentUid ∧ d.version = row.version) = 1 := by
    intro rows hnodup hmem
    induction rows with
    | nil => cases hmem
    | cons a rows ih =>
      rw [List.map_cons, List.nodup_cons] at hnodup
      by_cases ha : a = row
      · subst ha
        have hrest : (rows.countP fun d =>
            d.intentUid = a.intentUid ∧ d.version = a.version) = 0 := by
          rw [List.countP_eq_zero]
          intro b hb hand
          refine hnodup.1 (List.mem_map.mpr ⟨b, hb, ?_⟩)
          simpa using (of_decide_eq_true hand).1
        rw [List.countP_cons, hrest]
        simp
      · have hrow : row ∈ rows := (List.mem_cons.mp hmem).resolve_left fun h => ha h.symm
        have hne : a.intentUid ≠ row.intentUid := fun h =>
          hnodup.1 (h ▸ List.mem_map_of_mem hrow)
        rw [List.countP_cons, ih hnodup.2 hrow]
        simp [hne]
  exact hfilter hkeys.nodup_deliveries hmem

/-- A claim does nothing out of `NORMAL`; in `NORMAL` it sweeps, and takes the lease of the
next intent. -/
theorem claim_cases (hkeys : s.Keys) (now : Instant) :
    (s.metadata.isNormal = false ∧ (worker.claim now).run s = .ok none s) ∨
    (s.metadata.isNormal = true ∧ nextClaim (s.swept now) now = none ∧
      (worker.claim now).run s = .ok none (s.swept now)) ∨
    (s.metadata.isNormal = true ∧ ∃ i row, nextClaim (s.swept now) now = some (i, row) ∧
      ((¬i.Readable ∧ ∃ e, (worker.claim now).run s = .error e s) ∨
        ∃ context, (worker.claim now).run s = .ok (some (claimOf s i context))
          ((s.swept now).mapDeliveries (worker.takeLease now row)))) := by
  cases hnormal : s.metadata.isNormal with
  | false =>
    refine Or.inl ⟨rfl, run_atomically_eq_ok.mpr ?_⟩
    rw [run_bind_of_ok (run_get s), hnormal]
    rfl
  | true =>
    refine Or.inr ?_
    cases hnext : nextClaim (s.swept now) now with
    | none =>
      refine Or.inl ⟨rfl, rfl, run_atomically_eq_ok.mpr ?_⟩
      rw [run_bind_of_ok (run_get s), hnormal]
      rw [DeliveryStore.swept] at hnext
      simp only [if_true, hnext]
      rfl
    | some p =>
      obtain ⟨i, row⟩ := p
      obtain ⟨-, hrow, -⟩ := nextClaim_eq_some hnext
      have hcount := countP_claimed
        (hkeys.mapDeliveries (expireDelivery_intentUid s.intents now)) hrow
      refine Or.inr ⟨rfl, i, row, rfl, ?_⟩
      rw [DeliveryStore.swept] at hnext
      cases hscan : Json.scan i.frozenContextJson.toList with
      | none =>
        refine Or.inl ⟨by simp [NotificationIntent.Readable, hscan], ⟨.valueError,
          "Expecting value"⟩, @run_atomically_of_error _ _ _ _ _ _
            ((s.swept now).mapDeliveries (worker.takeLease now row)) ?_⟩
        rw [run_bind_of_ok (run_get s), hnormal]
        simp only [if_true, hnext, hcount, hscan, Option.map_none]
        rfl
      | some context =>
        refine Or.inr ⟨Json.toDict context, run_atomically_eq_ok.mpr ?_⟩
        rw [run_bind_of_ok (run_get s), hnormal]
        simp only [if_true, hnext, hcount, hscan, Option.map_some]
        rfl

/-! ## Finishing -/

theorem settle_intentUid (outcome : DeliveryResult) (completedAt : Instant)
    (row d : NotificationDeliveryState) :
    (worker.settle outcome completedAt row d).intentUid = d.intentUid := by
  unfold settle
  split <;> rfl

/-- The row after an attempt. -/
def settled (outcome : DeliveryResult) (completedAt : Instant) (row : NotificationDeliveryState) :
    NotificationDeliveryState :=
  { row with
    deliveryStatus := (worker.verdict (row.attemptCount + 1) outcome completedAt).1
    attemptCount := row.attemptCount + 1
    nextAttemptAt := (worker.verdict (row.attemptCount + 1) outcome completedAt).2.2
    leaseOwner := none
    leaseUntil := none
    lastErrorCode := outcome.errorCode
    version := row.version + 1
    updatedAt := completedAt }

theorem settle_self (outcome : DeliveryResult) (completedAt : Instant)
    (row : NotificationDeliveryState) :
    worker.settle outcome completedAt row row = worker.settled outcome completedAt row := by
  rw [settle, if_pos ⟨rfl, rfl⟩, settled]

theorem settle_of_ne {outcome : DeliveryResult} {completedAt : Instant}
    {row : NotificationDeliveryState} (h : d.intentUid ≠ row.intentUid) :
    worker.settle outcome completedAt row d = d := by
  rw [settle, if_neg fun hand => h hand.1]

/-- The attempt that is recorded. -/
def attemptRow (claimed : Claim) (row : NotificationDeliveryState) (startedAt : Instant)
    (outcome : DeliveryResult) (completedAt : Instant) (attemptUid : Uid) : DeliveryAttempt where
  attemptUid := attemptUid
  intentUid := claimed.message.intentUid
  attemptNumber := row.attemptCount + 1
  outcome := (worker.verdict (row.attemptCount + 1) outcome completedAt).2.1
  startedAt := startedAt
  completedAt := completedAt
  providerReference := outcome.providerReference
  errorCode := outcome.errorCode

/-- The store with an attempt recorded. -/
def record (s : DeliveryStore) (claimed : Claim) (row : NotificationDeliveryState)
    (startedAt : Instant) (outcome : DeliveryResult) (completedAt : Instant) (attemptUid : Uid) :
    DeliveryStore :=
  DeliveryStore.mapDeliveries
    { s with deliveryAttempt := s.deliveryAttempt ++
        [worker.attemptRow claimed row startedAt outcome completedAt attemptUid] }
    (worker.settle outcome completedAt row)

/-- The worker may record an attempt of its claim. -/
structure MayFinish (claimed : Claim) (s : DeliveryStore) (i : NotificationIntent)
    (row : NotificationDeliveryState) : Prop where
  normal : s.metadata.isNormal = true
  generation : s.metadata.restoreGeneration = claimed.generation
  intent : s.intent claimed.message.intentUid = some i
  delivery : s.delivery claimed.message.intentUid = some row
  holds : worker.holds claimed i row = true

variable {worker} {claimed : Claim} {startedAt completedAt : Instant} {outcome : DeliveryResult}
  {attemptUid : Uid}

/-- A worker that may finish records its attempt, unless the row clashes. -/
theorem finish_of_mayFinish {i : NotificationIntent} {row : NotificationDeliveryState}
    (h : worker.MayFinish claimed s i row)
    (hfree : ∀ a ∈ s.deliveryAttempt, deliveryAttemptTable.clash
      (worker.attemptRow claimed row startedAt outcome completedAt attemptUid) a = false) :
    (worker.finish claimed startedAt outcome completedAt attemptUid).run s =
      .ok true (worker.record s claimed row startedAt outcome completedAt attemptUid) := by
  refine run_atomically_eq_ok.mpr ?_
  rw [run_bind_of_ok (run_get s)]
  simp only [h.normal, h.generation, h.intent, h.delivery, h.holds, and_self, if_true]
  have hinsert : (insertInto deliveryAttemptTable integrityError
      (worker.attemptRow claimed row startedAt outcome completedAt attemptUid)).run s = .ok () _ :=
    run_insertInto_eq_ok.mpr ⟨hfree, rfl⟩
  exact run_bind_of_ok hinsert

/-- A worker either records its attempt or leaves the store. -/
theorem finish_cases (worker : DeliveryWorker) (claimed : Claim) (startedAt : Instant)
    (outcome : DeliveryResult) (completedAt : Instant) (attemptUid : Uid) (s : DeliveryStore) :
    stateAfter ((worker.finish claimed startedAt outcome completedAt attemptUid).run s) = s ∨
    ∃ i row, worker.MayFinish claimed s i row ∧
      (∀ a ∈ s.deliveryAttempt, deliveryAttemptTable.clash
        (worker.attemptRow claimed row startedAt outcome completedAt attemptUid) a = false) ∧
      (worker.finish claimed startedAt outcome completedAt attemptUid).run s =
        .ok true (worker.record s claimed row startedAt outcome completedAt attemptUid) := by
  cases hrun : (worker.finish claimed startedAt outcome completedAt attemptUid).run s with
  | error e s' => exact Or.inl (run_atomically_eq_error hrun)
  | ok result s' =>
    have hcommand := hrun
    rw [finish, run_atomically_eq_ok, run_bind_eq_ok] at hcommand
    obtain ⟨_, _, hget, hcommand⟩ := hcommand
    obtain ⟨rfl, rfl⟩ := run_get_eq_ok.mp hget
    split at hcommand
    · rename_i hmetadata
      split at hcommand
      · rename_i i row hintent hdelivery
        split at hcommand
        · rename_i hholds
          simp only [run_bind_eq_ok, run_insertInto_eq_ok, run_modify_eq_ok,
            run_pure_eq_ok] at hcommand
          obtain ⟨_, _, ⟨hfree, rfl⟩, _, _, rfl, rfl, rfl⟩ := hcommand
          exact Or.inr ⟨i, row, ⟨hmetadata.1, hmetadata.2, hintent, hdelivery, hholds⟩, hfree, rfl⟩
        · exact Or.inl (run_pure_eq_ok.mp hcommand).2.symm
      · exact Or.inl (run_pure_eq_ok.mp hcommand).2.symm
    · exact Or.inl (run_pure_eq_ok.mp hcommand).2.symm

end DeliveryWorker

/-! ## The effect of a step on an intent -/

variable {ι : Type} {maxAttempts : ℕ}

/-- What a step of the system does to the delivery and the attempts of an intent. -/
inductive Effect (fleet : Fleet ι maxAttempts) (e : DeliveryEvent ι) (s s' : DeliverySystem ι)
    (uid : Uid) : DeliveryMove → Prop where
  | idle (delivery : s'.store.delivery uid = s.store.delivery uid)
      (attempts : s'.store.attemptsOf uid = s.store.attemptsOf uid) : Effect fleet e s s' uid .idle
  | enqueue (d : NotificationDeliveryState) (before : s.store.delivery uid = none)
      (delivery : s'.store.delivery uid = some d) (pending : d.deliveryStatus = .pending)
      (attemptCount : d.attemptCount = 0)
      (attempts : s'.store.attemptsOf uid = s.store.attemptsOf uid) : Effect fleet e s s' uid .wait
  | lease (k : ι) (now : Instant) (c : Claim) (d : NotificationDeliveryState)
      (event : e = .claim k now) (before : s.phase k = .idle) (after : s'.phase k = .claimed c now)
      (intentUid : c.message.intentUid = uid) (row : s.store.delivery uid = some d)
      (unfinished : d.deliveryStatus.unfinished = true)
      (free : d.deliveryStatus = .processing → d.leaseUntil.any (fun t => t ≤ now) = true)
      (delivery : s'.store.delivery uid = some ((fleet.worker k).leased now d))
      (attempts : s'.store.attemptsOf uid = s.store.attemptsOf uid) :
      Effect fleet e s s' uid (.take (fleet.worker k).workerId)
  | expire (k : ι) (now : Instant) (d d' : NotificationDeliveryState) (i : NotificationIntent)
      (event : e = .claim k now) (before : s.phase k = .idle)
      (row : s.store.delivery uid = some d) (unfinished : d.deliveryStatus.unfinished = true)
      (intent : i ∈ s.store.intents) (intentUid : i.intentUid = uid) (expired : i.expiresAt ≤ now)
      (delivery : s'.store.delivery uid = some d') (status : d'.deliveryStatus = .expired)
      (attemptCount : d'.attemptCount = d.attemptCount)
      (attempts : s'.store.attemptsOf uid = s.store.attemptsOf uid) : Effect fleet e s s' uid .close
  | cancel (d d' : NotificationDeliveryState)
      (generation : s'.store.metadata.restoreGeneration = s.store.metadata.restoreGeneration + 1)
      (row : s.store.delivery uid = some d) (unfinished : d.deliveryStatus.unfinished = true)
      (delivery : s'.store.delivery uid = some d') (status : d'.deliveryStatus = .cancelled)
      (attemptCount : d'.attemptCount = d.attemptCount)
      (attempts : s'.store.attemptsOf uid = s.store.attemptsOf uid) : Effect fleet e s s' uid .close
  | attempt (k : ι) (attemptUid : Uid) (c : Claim) (startedAt completedAt : Instant)
      (outcome : DeliveryResult) (i : NotificationIntent) (d : NotificationDeliveryState)
      (event : e = .finish k attemptUid)
      (before : s.phase k = .sent c startedAt outcome completedAt)
      (intentUid : c.message.intentUid = uid)
      (mayFinish : (fleet.worker k).MayFinish c s.store i d)
      (delivery : s'.store.delivery uid = some ((fleet.worker k).settled outcome completedAt d))
      (attempts : s'.store.attemptsOf uid = s.store.attemptsOf uid ++
        [(fleet.worker k).attemptRow c d startedAt outcome completedAt attemptUid]) :
      Effect fleet e s s' uid (.finish (fleet.worker k).workerId
        ((fleet.worker k).attemptRow c d startedAt outcome completedAt attemptUid))

variable {fleet : Fleet ι maxAttempts} {e : DeliveryEvent ι} {s s' : DeliverySystem ι}
  {move : DeliveryMove}

theorem verdict_ne_processing (worker : DeliveryWorker) (attempt : ℕ) (outcome : DeliveryResult)
    (completedAt : Instant) : (worker.verdict attempt outcome completedAt).1 ≠ .processing := by
  unfold DeliveryWorker.verdict
  split
  · simp
  · split <;> simp

/-- Every effect is a move of the job of the intent. -/
theorem Effect.jobStep (h : Effect fleet e s s' uid move) : JobStep move s.store s'.store uid := by
  cases h with
  | idle delivery attempts => exact .of_eq delivery attempts
  | enqueue d before delivery pending attemptCount attempts =>
    rw [JobStep, DeliveryStore.job, DeliveryStore.job, delivery, before, attempts]
    exact .wait _ rfl (by simp [deliveryHold, pending])
  | lease k now c d event before after intentUid row unfinished free delivery attempts =>
    rw [JobStep, DeliveryStore.job, DeliveryStore.job, delivery, row, attempts]
    refine .take _ (fun hclosed => ?_) (deliveryHold_eq_held.mpr ⟨rfl, rfl⟩)
    rw [deliveryHold_eq_closed, unfinished] at hclosed
    cases hclosed
  | expire k now d d' i event before row unfinished intent intentUid expired delivery status
      attemptCount attempts =>
    rw [JobStep, DeliveryStore.job, DeliveryStore.job, delivery, row, attempts]
    refine .close _ (fun hclosed => ?_) (deliveryHold_eq_closed.mpr (by rw [status]; rfl))
    rw [deliveryHold_eq_closed, unfinished] at hclosed
    cases hclosed
  | cancel d d' generation row unfinished delivery status attemptCount attempts =>
    rw [JobStep, DeliveryStore.job, DeliveryStore.job, delivery, row, attempts]
    refine .close _ (fun hclosed => ?_) (deliveryHold_eq_closed.mpr (by rw [status]; rfl))
    rw [deliveryHold_eq_closed, unfinished] at hclosed
    cases hclosed
  | attempt k attemptUid c startedAt completedAt outcome i d event before intentUid mayFinish
      delivery attempts =>
    have hrow : s.store.delivery uid = some d := intentUid ▸ mayFinish.delivery
    have hholds := mayFinish.holds
    rw [DeliveryWorker.holds, decide_eq_true_eq] at hholds
    rw [JobStep, DeliveryStore.job, DeliveryStore.job, delivery, hrow, attempts]
    refine .finish _ (deliveryHold_eq_held.mpr hholds.2) fun owner hheld => ?_
    exact verdict_ne_processing _ _ _ _ (deliveryHold_eq_held.mp hheld).1

/-! ## Every step has an effect -/

/-- A claim that sweeps, seen from an intent it does not take. -/
theorem exists_effect_of_swept {k : ι} {now : Instant} (hevent : e = .claim k now)
    (hbefore : s.phase k = .idle)
    (hdelivery : s'.store.delivery uid =
      (s.store.delivery uid).map (expireDelivery s.store.intents now))
    (hattempts : s'.store.attemptsOf uid = s.store.attemptsOf uid) :
    ∃ move, Effect fleet e s s' uid move := by
  cases hrow : s.store.delivery uid with
  | none =>
    refine ⟨_, .idle ?_ hattempts⟩
    rw [hdelivery, hrow]
    rfl
  | some d =>
    rw [hrow, Option.map_some] at hdelivery
    by_cases hexpired : d.deliveryStatus.unfinished ∧ s.store.intents.any fun i =>
        i.intentUid = d.intentUid ∧ i.expiresAt ≤ now
    · obtain ⟨i, hi, hand⟩ := List.any_eq_true.mp hexpired.2
      obtain ⟨huid, hle⟩ := of_decide_eq_true hand
      rw [(DeliveryStore.mem_of_delivery hrow).2] at huid
      refine ⟨_, .expire k now d _ i hevent hbefore hrow hexpired.1 hi huid hle hdelivery ?_ ?_
        hattempts⟩
      · rw [expireDelivery, if_pos hexpired]
      · rw [expireDelivery, if_pos hexpired]
    · refine ⟨_, .idle ?_ hattempts⟩
      rw [hdelivery, hrow, expireDelivery, if_neg hexpired]

/-- Rows that stay as they are for an intent. -/
theorem map_delivery_eq_self {s : DeliveryStore}
    {f : NotificationDeliveryState → NotificationDeliveryState}
    (hf : ∀ d, d.intentUid = uid → f d = d) : (s.delivery uid).map f = s.delivery uid := by
  cases hrow : s.delivery uid with
  | none => rfl
  | some d => rw [Option.map_some, hf d (DeliveryStore.mem_of_delivery hrow).2]

/-- The other services append deliveries, or cancel those that are not over. -/
theorem exists_effect_of_outboxStep
    (h : OutboxStep s.store.database s'.store.database)
    (hattempts : s'.store.deliveryAttempt = s.store.deliveryAttempt) :
    ∃ move, Effect fleet e s s' uid move := by
  have hattemptsOf : s'.store.attemptsOf uid = s.store.attemptsOf uid := by
    rw [DeliveryStore.attemptsOf, hattempts, DeliveryStore.attemptsOf]
  cases h with
  | enqueue h =>
    obtain ⟨rows, -, hdeliveries, hrows, -⟩ := h
    have hlookup : s'.store.delivery uid = (s.store.delivery uid).or
        (lookupBy NotificationDeliveryState.intentUid uid (rows.map Prod.snd)) := by
      rw [DeliveryStore.delivery, DeliveryStore.deliveries, hdeliveries, lookupBy,
        List.find?_append]
      rfl
    cases hrow : s.store.delivery uid with
    | some d =>
      rw [hrow, Option.some_or] at hlookup
      exact ⟨_, .idle (hlookup.trans hrow.symm) hattemptsOf⟩
    | none =>
      rw [hrow, Option.none_or] at hlookup
      cases hnew : lookupBy NotificationDeliveryState.intentUid uid (rows.map Prod.snd) with
      | none => exact ⟨_, .idle ((hlookup.trans hnew).trans hrow.symm) hattemptsOf⟩
      | some d =>
        obtain ⟨p, hp, rfl⟩ := List.mem_map.mp (mem_of_lookupBy hnew)
        exact ⟨_, .enqueue _ hrow (hlookup.trans hnew) (hrows p hp).pending
          (hrows p hp).attemptCount hattemptsOf⟩
  | cancel occurredAt _ hdeliveries hgeneration =>
    have hlookup : s'.store.delivery uid =
        (s.store.delivery uid).map (cancelDelivery occurredAt) := by
      rw [DeliveryStore.delivery, DeliveryStore.deliveries, hdeliveries]
      exact lookupBy_map (cancelDelivery_intentUid occurredAt)
    cases hrow : s.store.delivery uid with
    | none =>
      rw [hrow] at hlookup
      exact ⟨_, .idle (hlookup.trans hrow.symm) hattemptsOf⟩
    | some d =>
      rw [hrow, Option.map_some] at hlookup
      by_cases hunfinished : d.deliveryStatus.unfinished = true
      · refine ⟨_, .cancel d _ hgeneration hrow hunfinished hlookup ?_ ?_ hattemptsOf⟩
        · rw [cancelDelivery, if_pos hunfinished]
        · rw [cancelDelivery, if_pos hunfinished]
      · rw [cancelDelivery, if_neg hunfinished] at hlookup
        exact ⟨_, .idle (hlookup.trans hrow.symm) hattemptsOf⟩

variable [DecidableEq ι]

/-- What a claim does to each intent. -/
theorem claim_effect (hkeys : s.store.Keys) (k : ι) (now : Instant) (uid : Uid) :
    ∃ move, Effect fleet (.claim k now) s (fleet.next (.claim k now) s) uid move := by
  cases hphase : s.phase k with
  | idle =>
    obtain ⟨-, hrun⟩ | ⟨-, -, hrun⟩ | ⟨-, i, row, hnext, ⟨-, e, hrun⟩ | ⟨context, hrun⟩⟩ :=
      (fleet.worker k).claim_cases hkeys now
    · simp only [Fleet.next, hphase, hrun]
      exact ⟨_, .idle rfl rfl⟩
    · simp only [Fleet.next, hphase, hrun]
      exact exists_effect_of_swept rfl hphase (delivery_swept now uid) rfl
    · simp only [Fleet.next, hphase, hrun]
      exact ⟨_, .idle rfl rfl⟩
    · simp only [Fleet.next, hphase, hrun]
      obtain ⟨-, hrow, hclaimable⟩ := DeliveryWorker.nextClaim_eq_some hnext
      have hrowUid := (DeliveryStore.mem_of_delivery hrow).2
      have hdelivery := (s.store.swept now).delivery_mapDeliveries
        ((fleet.worker k).takeLease_intentUid now row) uid
      by_cases huid : uid = row.intentUid
      · subst huid
        rw [hrowUid] at hdelivery ⊢
        rw [delivery_swept] at hrow
        obtain ⟨d, hd, hexpire⟩ := Option.map_eq_some_iff.mp hrow
        simp only [claimable, decide_eq_true_eq] at hclaimable
        obtain ⟨-, -, -, hstatus⟩ := hclaimable
        have hunfinished : row.deliveryStatus.unfinished = true := by
          rcases hstatus with ⟨h | h, -⟩ | ⟨h, -⟩ <;> rw [h] <;> rfl
        have hrowd : d = row := by
          rw [← hexpire] at hunfinished ⊢
          exact (eq_of_unfinished_expireDelivery hunfinished).symm
        subst hrowd
        refine ⟨_, .lease k now _ d rfl hphase (Function.update_self ..) rfl hd hunfinished ?_ ?_
          rfl⟩
        · intro hprocessing
          rcases hstatus with ⟨h | h, -⟩ | ⟨-, hfree⟩
          · rw [h] at hprocessing
            cases hprocessing
          · rw [h] at hprocessing
            cases hprocessing
          · exact hfree
        · rw [hdelivery, delivery_swept, hd, Option.map_some, hexpire, Option.map_some,
            DeliveryWorker.takeLease_self]
      · refine exists_effect_of_swept rfl hphase ?_ rfl
        rw [hdelivery, map_delivery_eq_self, delivery_swept]
        intro d hd
        exact (fleet.worker k).takeLease_of_ne (hd ▸ huid)
  | _ =>
    simp only [Fleet.next, hphase]
    exact ⟨_, .idle rfl rfl⟩

/-- What the end of an attempt does to each intent. -/
theorem finish_effect (k : ι) (attemptUid : Uid) (uid : Uid) :
    ∃ move, Effect fleet (.finish k attemptUid) s (fleet.next (.finish k attemptUid) s) uid
      move := by
  cases hphase : s.phase k with
  | sent c startedAt outcome completedAt =>
    obtain hsame | ⟨i, row, hmay, -, hrun⟩ :=
      (fleet.worker k).finish_cases c startedAt outcome completedAt attemptUid s.store
    · simp only [Fleet.next, hphase, hsame]
      exact ⟨_, .idle rfl rfl⟩
    · simp only [Fleet.next, hphase, hrun, stateAfter]
      have hrowUid := (DeliveryStore.mem_of_delivery hmay.delivery).2
      have hdelivery := DeliveryStore.delivery_mapDeliveries
        { s.store with deliveryAttempt := s.store.deliveryAttempt ++
          [(fleet.worker k).attemptRow c row startedAt outcome completedAt attemptUid] }
        ((fleet.worker k).settle_intentUid outcome completedAt row) uid
      have hattempts : ((fleet.worker k).record s.store c row startedAt outcome completedAt
          attemptUid).attemptsOf uid = s.store.attemptsOf uid ++
            if c.message.intentUid = uid then
              [(fleet.worker k).attemptRow c row startedAt outcome completedAt attemptUid]
            else [] := by
        rw [DeliveryWorker.record, DeliveryStore.attemptsOf_mapDeliveries,
          DeliveryStore.attemptsOf, List.filter_append, DeliveryStore.attemptsOf]
        by_cases huid : c.message.intentUid = uid <;>
          simp [DeliveryWorker.attemptRow, huid]
      by_cases huid : c.message.intentUid = uid
      · rw [if_pos huid] at hattempts
        refine ⟨_, .attempt k attemptUid c startedAt completedAt outcome i row rfl hphase huid hmay
          ?_ hattempts⟩
        refine hdelivery.trans ?_
        rw [show DeliveryStore.delivery _ uid = some row from huid ▸ hmay.delivery,
          Option.map_some, DeliveryWorker.settle_self]
      · rw [if_neg huid, List.append_nil] at hattempts
        refine ⟨_, .idle (hdelivery.trans ?_) hattempts⟩
        refine map_delivery_eq_self fun d hd => (fleet.worker k).settle_of_ne ?_
        rw [hd, hrowUid]
        exact fun h => huid h.symm
  | _ =>
    simp only [Fleet.next, hphase]
    exact ⟨_, .idle rfl rfl⟩

/-- Every step has an effect on every intent. -/
theorem exists_effect (hkeys : s.store.Keys)
    (hunique : s.store.database.analysis.ProjectionsUnique) (h : fleet.step e s s') (uid : Uid) :
    ∃ move, Effect fleet e s s' uid move := by
  obtain ⟨hother, rfl⟩ := h
  cases e with
  | claim k now => exact claim_effect hkeys k now uid
  | finish k attemptUid => exact finish_effect k attemptUid uid
  | check k =>
    cases hphase : s.phase k <;> simp only [Fleet.next, hphase] <;> exact ⟨_, .idle rfl rfl⟩
  | send k reply completedAt =>
    cases hphase : s.phase k <;> simp only [Fleet.next, hphase] <;> exact ⟨_, .idle rfl rfl⟩
  | abandon k => exact ⟨_, .idle rfl rfl⟩
  | commit files uids request =>
    exact exists_effect_of_outboxStep (commit_keepsOutbox hunique files uids request).1 rfl
  | advanceRestoreGeneration auditUid occurredAt =>
    exact exists_effect_of_outboxStep
      (advanceRestoreGeneration_keepsOutbox _ auditUid occurredAt).1 rfl
  | startRecovery generationAudit recoveryAudit watermarks startedAt manifestSha256 =>
    exact exists_effect_of_outboxStep (startRecovery_keepsOutbox _ generationAudit recoveryAudit
      watermarks startedAt manifestSha256).1 rfl
  | setRecoveryState value => exact ⟨_, .idle rfl rfl⟩
  | updateNotificationSettings enabled => exact ⟨_, .idle rfl rfl⟩
  | other database =>
    exact exists_effect_of_outboxStep (hother database rfl).keepsOutbox.1 rfl

/-- A claim that is taken : the intent, and its delivery state with the new lease. -/
theorem next_claim_claimed (hkeys : s.store.Keys) {k : ι} {now t : Instant} {c : Claim}
    (hbefore : s.phase k = .idle)
    (hafter : (fleet.next (.claim k now) s).phase k = .claimed c t) :
    t = now ∧ s.store.metadata.restoreGeneration = c.generation ∧
      ∃ i ∈ s.store.intents, i.intentUid = c.message.intentUid ∧
        i.restoreGeneration = c.generation ∧
        ∃ d, (fleet.next (.claim k now) s).store.delivery c.message.intentUid =
          some ((fleet.worker k).leased now d) := by
  obtain ⟨-, hrun⟩ | ⟨-, -, hrun⟩ | ⟨-, i, row, hnext, ⟨-, e, hrun⟩ | ⟨context, hrun⟩⟩ :=
    (fleet.worker k).claim_cases hkeys now
  · simp only [Fleet.next, hbefore, hrun] at hafter
    cases hafter
  · simp only [Fleet.next, hbefore, hrun] at hafter
    cases hafter
  · simp only [Fleet.next, hbefore, hrun] at hafter
    cases hafter
  · simp only [Fleet.next, hbefore, hrun] at hafter ⊢
    rw [Function.update_self] at hafter
    cases hafter
    obtain ⟨hi, hrow, hclaimable⟩ := DeliveryWorker.nextClaim_eq_some hnext
    simp only [claimable, decide_eq_true_eq] at hclaimable
    refine ⟨rfl, rfl, i, hi, rfl, hclaimable.1, row, ?_⟩
    have hdelivery := (s.store.swept now).delivery_mapDeliveries
      ((fleet.worker k).takeLease_intentUid now row) i.intentUid
    rw [hrow, Option.map_some, DeliveryWorker.takeLease_self] at hdelivery
    exact hdelivery

/-- In `NORMAL` a claim expires the deliveries of the intents that are over by then. -/
theorem next_claim_expires (fleet : Fleet ι maxAttempts) (hkeys : s.store.Keys)
    (hreadable : ∀ i ∈ s.store.intents, i.Readable)
    (hnormal : s.store.metadata.isNormal = true) {k : ι} {now : Instant}
    (hbefore : s.phase k = .idle) {i : NotificationIntent} (hi : i ∈ s.store.intents)
    (hexpired : i.expiresAt ≤ now) {d : NotificationDeliveryState}
    (hrow : s.store.delivery i.intentUid = some d)
    (hunfinished : d.deliveryStatus.unfinished = true) :
    ∃ d', (fleet.next (.claim k now) s).store.delivery i.intentUid = some d' ∧
      d'.deliveryStatus = .expired := by
  have hand : d.deliveryStatus.unfinished ∧ s.store.intents.any fun i' =>
      i'.intentUid = d.intentUid ∧ i'.expiresAt ≤ now := by
    refine ⟨hunfinished, List.any_eq_true.mpr ⟨i, hi, ?_⟩⟩
    simpa [(DeliveryStore.mem_of_delivery hrow).2] using hexpired
  have hswept : (s.store.swept now).delivery i.intentUid =
      some (expireDelivery s.store.intents now d) := by
    rw [delivery_swept, hrow, Option.map_some]
  have hstatus : (expireDelivery s.store.intents now d).deliveryStatus = .expired := by
    rw [expireDelivery, if_pos hand]
  obtain ⟨hnot, -⟩ | ⟨-, -, hrun⟩ | ⟨-, i', row, hnext, ⟨hunreadable, -⟩ | ⟨context, hrun⟩⟩ :=
    (fleet.worker k).claim_cases hkeys now
  · rw [hnormal] at hnot
    cases hnot
  · simp only [Fleet.next, hbefore, hrun]
    exact ⟨_, hswept, hstatus⟩
  · exact absurd (hreadable i' (DeliveryWorker.nextClaim_eq_some hnext).1) hunreadable
  · simp only [Fleet.next, hbefore, hrun]
    have hdelivery := (s.store.swept now).delivery_mapDeliveries
      ((fleet.worker k).takeLease_intentUid now row) i.intentUid
    obtain ⟨-, hrow', hclaimable⟩ := DeliveryWorker.nextClaim_eq_some hnext
    -- The intent that is claimed is another, since it is not over.
    have hne : row.intentUid ≠ i.intentUid := by
      intro heq
      rw [← (DeliveryStore.mem_of_delivery hrow').2, heq, hswept] at hrow'
      cases hrow'
      simp [claimable, hstatus] at hclaimable
    refine ⟨_, hdelivery.trans ?_, hstatus⟩
    rw [map_delivery_eq_self fun d hd => (fleet.worker k).takeLease_of_ne (hd ▸ hne.symm)]
    exact hswept

end MarketMonitor
