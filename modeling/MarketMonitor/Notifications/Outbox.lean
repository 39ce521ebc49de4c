import MarketMonitor.Notifications.Worker

/-!
# What reaches the outbox

A commit appends intents of the current generation, each with a delivery state that is
pending (`Enqueues`); an advance of the restore generation cancels the deliveries that
are not over. `OutboxStep` puts together what the services other than the workers do to
the intents and their delivery states.
-/

namespace MarketMonitor

open Json (Value)
open Transaction Keyed

/-! ## The frozen contexts are readable -/

theorem integralFields_mergeFields {earlier later : List (String × Value)}
    (hearlier : Json.integralFields earlier = true) (hlater : Json.integralFields later = true) :
    Json.integralFields (mergeFields earlier later) = true := by
  unfold mergeFields
  induction later generalizing earlier with
  | nil => exact hearlier
  | cons f later ih =>
    rw [Json.integralFields, Bool.and_eq_true] at hlater
    exact ih (Json.integralFields_bindField hearlier hlater.1) hlater.2

theorem integral_optional (s : Option String) : Json.integral (Value.optional s) = true := by
  cases s <;> rfl

/-- The numbers of the evidence are integral. -/
theorem integralFields_attributes {db : Database} {t : AnalysisTables} {guardianUid scoutUid : Uid}
    {item : EvidenceItem} (h : item ∈ frozenEvidence db t guardianUid scoutUid) :
    Json.integralFields item.attributes = true := by
  have hitem : ∀ {tagKey tag : String} {severity : Option String} {reasonCode : String}
      {factUid : Uid}, evidenceItem db tagKey tag severity reasonCode factUid = some item →
      Json.integralFields item.attributes = true := by
    intro tagKey tag severity reasonCode factUid h
    simp only [evidenceItem, Option.bind_eq_bind, Option.bind_eq_some_iff, Option.pure_def,
      Option.some.injEq] at h
    obtain ⟨fact, -, execution, -, rfl⟩ := h
    cases severity <;> simp [Json.integralFields, Json.integral]
  rw [frozenEvidence, List.mem_insertionSort, List.mem_append] at h
  rcases h with h | h
  · obtain ⟨r, -, hr⟩ := List.mem_flatMap.mp h
    obtain ⟨e, -, he⟩ := List.mem_filterMap.mp hr
    exact hitem he
  · obtain ⟨o, -, ho⟩ := List.mem_flatMap.mp h
    obtain ⟨e, -, he⟩ := List.mem_filterMap.mp ho
    exact hitem he

/-- So are those of the reason. -/
theorem integralFields_frozenReasonContext {evidence : List EvidenceItem} {factUid : Option Uid}
    {reasonCode : String} {attributes : List (String × Value)}
    (hevidence : ∀ item ∈ evidence, Json.integralFields item.attributes = true)
    (hattributes : Json.integralFields attributes = true) :
    Json.integralFields (frozenReasonContext evidence factUid reasonCode attributes) = true := by
  unfold frozenReasonContext
  split
  · rename_i item hitem
    obtain ⟨uid, -, hfind⟩ := Option.bind_eq_some_iff.mp hitem
    rw [List.findRev?_eq_find?_reverse] at hfind
    simp [EvidenceItem.fields, Json.integralFields, Json.integral,
      hevidence item (List.mem_reverse.mp (List.mem_of_find?_eq_some hfind))]
  · simp [Json.integralFields, Json.integral, integral_optional, hattributes]

theorem integral_confidence (availabilityState : String) (health : DataHealthStatus)
    (fitness : FitnessStatus) (evidence : EvidenceSufficiency) :
    Json.integral (confidence availabilityState health fitness evidence) = true := by
  unfold confidence
  split
  · rfl
  · split
    · rfl
    · split <;> rfl

/-- What a commit freezes has no number with a fraction. -/
theorem integralFields_frozenContext (db : Database) (t : AnalysisTables) (uids : CommitUids)
    (snapshot : CommitSnapshot) (request : AnalysisCommitRequest) (guardian : GuardianFindings)
    (scout : ScoutFindings) (limitations : List (String × String)) :
    Json.integralFields (frozenContext db t uids snapshot request guardian scout limitations) =
      true := by
  have hevidence : ∀ item ∈ frozenEvidence db t uids.guardian uids.scout,
      Json.integralFields item.attributes = true := fun _ h => integralFields_attributes h
  simp only [frozenContext, Json.integralFields, Json.integral, integral_confidence,
    Json.integralItems_iff, List.forall_mem_map, Bool.and_true, Bool.true_and, Bool.and_eq_true]
  refine ⟨fun item _ => ?_, fun item _ => ?_, ⟨fun item hitem => ?_, by simp⟩, fun _ _ => trivial⟩
  · exact integralFields_mergeFields (by simp [Json.integralFields, Json.integral])
      (integralFields_frozenReasonContext hevidence
        (by simp [Json.integralFields, Json.integral]))
  · exact integralFields_mergeFields (by simp [Json.integralFields, Json.integral])
      (integralFields_frozenReasonContext hevidence
        (by simp [Json.integralFields, Json.integral]))
  · simp [EvidenceItem.fields, Json.integralFields, Json.integral, hevidence item hitem]

/-- The frozen context of an intent is the text of a document. -/
def NotificationIntent.Readable (i : NotificationIntent) : Prop :=
  (Json.scan i.frozenContextJson.toList).isSome

theorem EventContext.readable_intentRow {ctx : EventContext}
    (h : Json.integralFields ctx.context = true) (kind : EventKind) (change : EventChange)
    (channel : Channel) : (ctx.intentRow kind change channel).Readable := by
  have hfrozen : Json.integral (ctx.frozen change) = true :=
    integralFields_mergeFields h (by simp [Json.integralFields, Json.integral])
  have hsorted : Json.integral (Json.sortKeys (ctx.frozen change)) = true := by
    rw [Json.integral_sortKeys, hfrozen]
  rw [NotificationIntent.Readable, EventContext.intentRow, String.toList_ofList,
    Json.scan_dumps hsorted]
  rfl

/-! ## Commits -/

/-- The intents of a table have identifiers of their own. -/
def AnalysisTables.IntentsUnique (t : AnalysisTables) : Prop :=
  (t.notificationIntent.map NotificationIntent.intentUid).Nodup

/-- An intent with its delivery state, as a commit appends it. -/
structure Enqueued (generation : ℕ) (p : NotificationIntent × NotificationDeliveryState) :
    Prop where
  intentUid : p.2.intentUid = p.1.intentUid
  pending : p.2.deliveryStatus = .pending
  attemptCount : p.2.attemptCount = 0
  restoreGeneration : p.1.restoreGeneration = generation
  readable : p.1.Readable

/-- Intents of a generation were appended with their delivery states, and nothing else
happened to the outbox. -/
def Enqueues (generation : ℕ) (t t' : AnalysisTables) : Prop :=
  ∃ rows : List (NotificationIntent × NotificationDeliveryState),
    t'.notificationIntent = t.notificationIntent ++ rows.map Prod.fst ∧
    t'.notificationDeliveryState = t.notificationDeliveryState ++ rows.map Prod.snd ∧
    (∀ p ∈ rows, Enqueued generation p) ∧ (t.IntentsUnique → t'.IntentsUnique)

variable {generation : ℕ} {t t' t'' : AnalysisTables}

theorem Enqueues.of_eq (hintents : t'.notificationIntent = t.notificationIntent)
    (hdeliveries : t'.notificationDeliveryState = t.notificationDeliveryState) :
    Enqueues generation t t' := by
  refine ⟨[], by simp [hintents], by simp [hdeliveries], by simp, fun h => ?_⟩
  rw [AnalysisTables.IntentsUnique, hintents]
  exact h

theorem Enqueues.trans (h : Enqueues generation t t') (h' : Enqueues generation t' t'') :
    Enqueues generation t t'' := by
  obtain ⟨rows, hintents, hdeliveries, hrows, hunique⟩ := h
  obtain ⟨rows', hintents', hdeliveries', hrows', hunique'⟩ := h'
  refine ⟨rows ++ rows', ?_, ?_, ?_, hunique' ∘ hunique⟩
  · rw [hintents', hintents, List.map_append, List.append_assoc]
  · rw [hdeliveries', hdeliveries, List.map_append, List.append_assoc]
  · intro p hp
    exact (List.mem_append.mp hp).elim (hrows p) (hrows' p)

/-- An intent is enqueued with its delivery. -/
theorem insertIntent_enqueues {ctx : EventContext} {kind : EventKind} {change : EventChange}
    {channel : Channel} {u : Unit} (hcontext : Json.integralFields ctx.context = true)
    (h : (insertIntent ctx kind change channel).run t = .ok u t') :
    Enqueues ctx.generation t t' := by
  simp only [insertIntent, run_bind_eq_ok, run_insertInto_eq_ok] at h
  obtain ⟨_, _, ⟨hfree, rfl⟩, -, rfl⟩ := h
  refine ⟨[(ctx.intentRow kind change channel, ctx.deliveryRow kind channel)], rfl, rfl, ?_, ?_⟩
  · intro p hp
    rw [List.mem_singleton.mp hp]
    exact ⟨rfl, rfl, rfl, rfl, ctx.readable_intentRow hcontext kind change channel⟩
  · intro hunique
    have hnew : (ctx.intentRow kind change channel).intentUid ∉
        t.notificationIntent.map NotificationIntent.intentUid := by
      intro hmem
      obtain ⟨i, hi, huid⟩ := List.mem_map.mp hmem
      have hclash := hfree i hi
      simp [notificationIntentTable, huid] at hclash
    have happend : ((t.notificationIntent ++ [ctx.intentRow kind change channel]).map
        NotificationIntent.intentUid).Nodup := by
      rw [List.map_append, List.map_singleton]
      exact hunique.append (List.nodup_singleton _) (List.disjoint_singleton.mpr hnew)
    exact happend

/-- So are the intents of all channels. -/
theorem insertIntents_enqueues {ctx : EventContext} {kind : EventKind} {change : EventChange}
    {channels : List Channel} {u : Unit} (hcontext : Json.integralFields ctx.context = true)
    (h : (forM channels (insertIntent ctx kind change)).run t = .ok u t') :
    Enqueues ctx.generation t t' := by
  induction channels generalizing t with
  | nil =>
    rw [run_forM_nil_eq_ok] at h
    exact h ▸ Enqueues.of_eq rfl rfl
  | cons channel channels ih =>
    obtain ⟨t₁, hchannel, hchannels⟩ := run_forM_cons_eq_ok.mp h
    exact (insertIntent_enqueues hcontext hchannel).trans (ih hchannels)

/-- The projection of an event enqueues nothing. -/
theorem writeEventProjection_enqueues {ctx : EventContext} {kind : EventKind}
    {change : EventChange} {current : Option EventProjection} {u : Unit}
    (h : (writeEventProjection ctx kind current change).run t = .ok u t') :
    Enqueues generation t t' := by
  unfold writeEventProjection at h
  cases current with
  | none =>
    obtain ⟨-, rfl⟩ := run_insertInto_eq_ok.mp h
    exact .of_eq rfl rfl
  | some p =>
    rw [run_modify_eq_ok] at h
    exact h ▸ .of_eq rfl rfl

/-- A decision enqueues the intents of its version. -/
theorem decideEvent_enqueues {ctx : EventContext} {kind : EventKind}
    {result : List Uid × List Uid} (hcontext : Json.integralFields ctx.context = true)
    (h : (decideEvent ctx kind).run t = .ok result t') : Enqueues ctx.generation t t' := by
  simp only [decideEvent, run_bind_eq_ok, run_get_eq_ok] at h
  obtain ⟨_, _, ⟨rfl, rfl⟩, h⟩ := h
  split at h
  · exact (run_pure_eq_ok.mp h).2 ▸ .of_eq rfl rfl
  · simp only [writeEvent, run_bind_eq_ok, run_insertInto_eq_ok, run_pure_eq_ok] at h
    obtain ⟨_, _, ⟨_, t₁, hcreate, _, _, ⟨-, rfl⟩, _, t₂, hevidence, _, t₃, hprojection,
      hintents⟩, -, rfl⟩ := h
    obtain ⟨-, rfl⟩ := createEvent_ok hcreate
    obtain rfl := run_forM_insertInto_eq_ok hevidence
    refine (Enqueues.trans ?_ (writeEventProjection_enqueues hprojection)).trans
      (insertIntents_enqueues hcontext hintents)
    exact .of_eq rfl rfl

/-- A commit enqueues intents of the generation it was made in. -/
theorem commitCommand_enqueues {db : Database} {uids : CommitUids}
    {request : AnalysisCommitRequest} {verified : VerifiedRequest}
    {result : AnalysisCommitResult} (hunique : t.ProjectionsUnique)
    (h : (commitCommand db uids request verified).run t = .ok result t') :
    Enqueues db.metadata.restoreGeneration t t' := by
  simp only [commitCommand, decideEvents, run_bind_eq_ok, run_get_eq_ok, run_require_eq_ok,
    run_fromExcept_eq_ok, run_insertInto_eq_ok, run_pure_eq_ok] at h
  obtain ⟨_, _, ⟨rfl, rfl⟩, _, _, ⟨-, rfl⟩, snapshot, _, ⟨-, rfl⟩, state, t₁, hstate,
    guardian, t₂, hguardian, scout, t₃, hscout, _, _, ⟨-, rfl⟩, _, _, ⟨rfl, rfl⟩,
    _, _, ⟨_, t₄, hrisk, _, _, hwatch, -, rfl⟩, _, _, ⟨-, rfl⟩, -, rfl⟩ := h
  obtain ⟨rfl, availability, lifecycle, hstate⟩ := insertState_ok hunique hstate
  have hcontext := fun context => integralFields_frozenContext db context uids snapshot request
    guardian.1 scout.1 (limitationsOf db snapshot.qualityContextUid)
  have hbefore : Enqueues db.metadata.restoreGeneration t t₃ := .of_eq
    (by rw [(insertScout_ok hscout).tables, (insertGuardian_ok hguardian).tables, hstate.tables])
    (by rw [(insertScout_ok hscout).tables, (insertGuardian_ok hguardian).tables, hstate.tables])
  have hrisk := decideEvent_enqueues (hcontext _) hrisk
  have hwatch := decideEvent_enqueues (hcontext _) hwatch
  refine ((hbefore.trans (Enqueues.trans ?_ hrisk)).trans hwatch).trans ?_
  · exact .of_eq rfl rfl
  · exact .of_eq rfl rfl

/-! ## The services other than the workers -/

/-- What the services other than the workers do to the outbox : intents are appended, or
the generation advances and the deliveries that are not over are cancelled. -/
inductive OutboxStep (db db' : Database) : Prop where
  | enqueue (h : Enqueues db.metadata.restoreGeneration db.analysis db'.analysis)
      (generation : db'.metadata.restoreGeneration = db.metadata.restoreGeneration)
  | cancel (occurredAt : Instant)
      (intents : db'.analysis.notificationIntent = db.analysis.notificationIntent)
      (deliveries : db'.analysis.notificationDeliveryState =
        db.analysis.notificationDeliveryState.map (cancelDelivery occurredAt))
      (generation : db'.metadata.restoreGeneration = db.metadata.restoreGeneration + 1)

variable {db db' : Database}

theorem OutboxStep.of_eq (hintents : db'.analysis.notificationIntent =
      db.analysis.notificationIntent)
    (hdeliveries : db'.analysis.notificationDeliveryState =
      db.analysis.notificationDeliveryState)
    (hgeneration : db'.metadata.restoreGeneration = db.metadata.restoreGeneration) :
    OutboxStep db db' :=
  .enqueue (.of_eq hintents hdeliveries) hgeneration

/-- The outbox makes a step, and the lifecycle projections keep their key. -/
def KeepsOutbox (db db' : Database) : Prop :=
  OutboxStep db db' ∧ (db.analysis.ProjectionsUnique → db'.analysis.ProjectionsUnique)

theorem KeepsOutbox.refl (db : Database) : KeepsOutbox db db :=
  ⟨.of_eq rfl rfl rfl, id⟩

theorem OutboxUnrelated.keepsOutbox (h : OutboxUnrelated db db') : KeepsOutbox db db' :=
  ⟨.of_eq h.intents h.deliveries (by rw [h.metadata]), h.projections⟩

/-- A commit keeps the outbox. -/
theorem commit_keepsOutbox (hunique : db.analysis.ProjectionsUnique) (files : ArtifactFiles)
    (uids : CommitUids) (request : AnalysisCommitRequest) :
    KeepsOutbox db (stateAfter ((commit files uids request).run db)) := by
  obtain ⟨e, hrun⟩ | ⟨verified, result, hrun, -⟩ |
    ⟨verified, result, t', hrun, hverify, hexisting, course, rfl⟩ :=
      commit_cases files uids request hunique
  · rw [hrun]
    exact .refl db
  · rw [hrun]
    exact .refl db
  · rw [hrun]
    refine ⟨.enqueue ?_ rfl, course.projectionsUnique⟩
    rw [commit_of_new hverify hexisting, submit_eq_ok] at hrun
    obtain ⟨t', hcommand, heq⟩ := hrun
    have hafter : t' = course.after := (congrArg Database.analysis heq).symm
    exact commitCommand_enqueues hunique (hafter ▸ hcommand)

/-- So does the next generation. -/
theorem advanceRestoreGeneration_keepsOutbox (db : Database) (auditUid : Uid)
    (occurredAt : Instant) :
    KeepsOutbox db (stateAfter ((advanceRestoreGeneration auditUid occurredAt).run db)) := by
  cases hrun : (advanceRestoreGeneration auditUid occurredAt).run db with
  | error e db' =>
    rw [stateAfter, run_atomically_eq_error hrun]
    exact .refl db
  | ok result db' =>
    simp only [advanceRestoreGeneration, run_atomically_eq_ok, run_bind_eq_ok, run_get_eq_ok,
      run_set_eq_ok, submit_eq_ok, run_insertInto_eq_ok, run_pure_eq_ok] at hrun
    obtain ⟨_, _, ⟨rfl, rfl⟩, _, _, rfl, _, _, ⟨_, ⟨-, rfl⟩, rfl⟩, -, rfl⟩ := hrun
    exact ⟨.cancel occurredAt rfl rfl rfl, id⟩

/-- The projections are replaced, and the outbox stays. -/
theorem replaceProjections_keeps {states : List StateProjection} {events : List EventProjection}
    {u : Unit} (h : (replaceProjections states events).run t = .ok u t') :
    t'.notificationIntent = t.notificationIntent ∧
      t'.notificationDeliveryState = t.notificationDeliveryState ∧ t'.ProjectionsUnique := by
  simp only [replaceProjections, run_bind_eq_ok, run_modify_eq_ok] at h
  obtain ⟨_, _, rfl, _, t₁, hstates, _, _, rfl, hevents⟩ := h
  have hpairwise := pairwise_of_run_forM_insertInto
    (show (currentStateProjectionTable.rows _).Pairwise _ from List.Pairwise.nil) hstates
  obtain rfl := run_forM_insertInto_eq_ok hstates
  obtain rfl := run_forM_insertInto_eq_ok hevents
  refine ⟨rfl, rfl, ?_⟩
  rw [AnalysisTables.ProjectionsUnique, List.Nodup, List.pairwise_map]
  refine hpairwise.imp fun hclash heq => ?_
  simp [currentStateProjectionTable, heq] at hclash

/-- So does a recovery. -/
theorem startRecovery_keepsOutbox (db : Database) (generationAudit recoveryAudit : Uid)
    (watermarks : ℕ) (startedAt : Instant) (manifestSha256 : String) :
    KeepsOutbox db (stateAfter ((startRecovery generationAudit recoveryAudit watermarks startedAt
      manifestSha256).run db)) := by
  cases hrun : (startRecovery generationAudit recoveryAudit watermarks startedAt
      manifestSha256).run db with
  | error e db' =>
    rw [stateAfter, run_atomically_eq_error hrun]
    exact .refl db
  | ok u db' =>
    simp only [startRecovery, rebuildProjections, run_atomically_eq_ok, run_bind_eq_ok,
      run_get_eq_ok, run_set_eq_ok, submit_eq_ok, run_insertInto_eq_ok, run_pure_eq_ok] at hrun
    obtain ⟨_, _, ⟨rfl, rfl⟩, _, _, rfl, _, _,
      ⟨_, _, ⟨rfl, rfl⟩, _, _, ⟨t₁, hreplace, rfl⟩, -, rfl⟩,
      _, _, ⟨_, ⟨-, rfl⟩, rfl⟩, _, ⟨-, rfl⟩, rfl⟩ := hrun
    obtain ⟨hintents, hdeliveries, hunique⟩ := replaceProjections_keeps hreplace
    exact ⟨.cancel startedAt hintents hdeliveries rfl, fun _ => hunique⟩

end MarketMonitor
