import MarketMonitor.Persistence.BarRetention
import MarketMonitor.Persistence.RetentionSpec

/-!
# Complete retention of minute bars

As long as a statement has room for the bars that the manifests list, a plan is made and
applied, and an application that stops midway has deleted nothing but candidates and is
finished by the next one (`bar_retention_complete`).
-/

namespace MarketMonitor

open Json (Value)
open Transaction

variable {t t' : BarTables} {files : ArtifactFiles} {cutoff now : Instant} {p uids : List Uid}
  {plan : TdxBarRetentionPlan} {batchSize : ℕ} {auditUid : Uid}

/-! ## Chunks -/

theorem flatten_chunks {α : Type} {size : ℕ} (hsize : 0 < size) (values : List α) :
    (chunks size values).flatten = values := by
  fun_induction chunks size values with
  | case1 values h =>
    rcases h with rfl | h
    · rfl
    · omega
  | case2 values h ih => rw [List.flatten_cons, ih, List.take_append_drop]

theorem length_le_of_mem_chunks {α : Type} {size : ℕ} {values : List α} {chunk : List α}
    (h : chunk ∈ chunks size values) : chunk.length ≤ size := by
  fun_induction chunks size values with
  | case1 values hvalues => cases h
  | case2 values hvalues ih =>
    rcases List.mem_cons.mp h with rfl | h
    · exact List.length_take_le ..
    · exact ih h

theorem candidateVariables_eq (p : List Uid) (limit : Option ℕ) :
    candidateVariables p limit = 1 + p.length + if limit.isSome then 1 else 0 := by
  rw [candidateVariables, ← List.length_flatten, flatten_chunks (by decide)]

theorem bindVariables_eq_ok {count : ℕ} :
    bindVariables count = .ok () ↔ count ≤ maxVariables := check_eq_ok

/-! ## Candidates -/

/-- A bar that retention may delete when `p` are the listed ones. -/
def TdxBarRow.Candidate (cutoff : Instant) (p : List Uid) (b : TdxBarRow) : Prop :=
  b.intervalKind = .minute ∧ b.sourceTime < cutoff ∧ b.barUid ∉ p

instance (cutoff : Instant) (p : List Uid) (b : TdxBarRow) : Decidable (b.Candidate cutoff p) :=
  inferInstanceAs (Decidable (_ ∧ _))

theorem tdxBarCandidates_eq (cutoff : Instant) (p : List Uid) (t : BarTables) :
    tdxBarCandidates cutoff p t = ((t.tdxBar.filter fun b => b.Candidate cutoff p).map
      TdxBarRow.barUid).insertionSort (· ≤ ·) := by
  have hmem (uid : Uid) : (∀ chunk ∈ chunks 400 p, uid ∉ chunk) ↔ uid ∉ p := by
    conv_rhs => rw [← @flatten_chunks Uid 400 (by decide) p]
    simp
  unfold tdxBarCandidates
  congr 2
  refine List.filter_congr fun b _ => ?_
  rw [Bool.eq_iff_iff, decide_eq_true_iff, decide_eq_true_iff, hmem, TdxBarRow.Candidate]

theorem mem_tdxBarCandidates {uid : Uid} : uid ∈ tdxBarCandidates cutoff p t ↔
    ∃ b ∈ t.tdxBar, b.Candidate cutoff p ∧ b.barUid = uid := by
  simp [tdxBarCandidates_eq, and_assoc]

theorem nodup_tdxBarCandidates : (tdxBarCandidates cutoff p t).Nodup := by
  rw [tdxBarCandidates_eq, (List.perm_insertionSort _ _).nodup_iff]
  exact t.barKey.sublist (List.filter_sublist.map _)

/-- The candidates that are left are those that were not deleted. -/
theorem tdxBarCandidates_without : tdxBarCandidates cutoff p (t.without uids) =
    (tdxBarCandidates cutoff p t).filter (· ∉ uids) := by
  have hsorted (t : BarTables) : (tdxBarCandidates cutoff p t).Pairwise (· ≤ ·) := by
    rw [tdxBarCandidates_eq]
    exact List.pairwise_insertionSort _ _
  refine List.Perm.eq_of_pairwise' (hsorted _) ((hsorted t).filter _) ?_
  refine (List.perm_ext_iff_of_nodup nodup_tdxBarCandidates (nodup_tdxBarCandidates.filter _)).mpr
    fun uid => ?_
  rw [List.mem_filter, mem_tdxBarCandidates, mem_tdxBarCandidates, decide_eq_true_iff]
  constructor
  · rintro ⟨b, hb, hcandidate, rfl⟩
    obtain ⟨hb, huid⟩ := List.mem_filter.mp hb
    exact ⟨⟨b, hb, hcandidate, rfl⟩, decide_eq_true_iff.mp huid⟩
  · rintro ⟨⟨b, hb, hcandidate, rfl⟩, huid⟩
    exact ⟨b, List.mem_filter.mpr ⟨hb, decide_eq_true huid⟩, hcandidate, rfl⟩

theorem tdxBarCandidates_without_all :
    tdxBarCandidates cutoff p (t.without (tdxBarCandidates cutoff p t)) = [] := by
  rw [tdxBarCandidates_without, List.filter_eq_nil_iff]
  exact fun uid huid hnot => of_decide_eq_true hnot huid

theorem filter_notMem_take {l : List Uid} (h : l.Nodup) (n : ℕ) :
    l.filter (· ∉ l.take n) = l.drop n := by
  have hdisjoint : (l.take n).Disjoint (l.drop n) :=
    List.disjoint_of_nodup_append ((List.take_append_drop n l).symm ▸ h)
  conv_lhs => rw [← List.take_append_drop n l, List.filter_append, List.take_append_drop]
  rw [List.filter_eq_nil_iff.mpr, List.filter_eq_self.mpr, List.nil_append]
  · exact fun uid hmem => decide_eq_true fun htake => hdisjoint htake hmem
  · exact fun uid hmem hnot => of_decide_eq_true hnot hmem

/-! ## Deletions -/

theorem BarTables.ext_bars (h : t'.tables = t.tables) (hbars : t'.tdxBar = t.tdxBar) : t' = t := by
  cases t
  cases t'
  cases h
  cases hbars
  rfl

theorem without_without (t : BarTables) (uids uids' : List Uid) :
    (t.without uids).without uids' = t.without (uids ++ uids') := by
  refine BarTables.ext_bars rfl (List.filter_filter.trans (List.filter_congr fun b _ => ?_))
  simp only [List.mem_append, not_or, Bool.decide_and, Bool.and_comm]

theorem without_nil (t : BarTables) : t.without [] = t :=
  BarTables.ext_bars rfl (List.filter_eq_self.mpr fun _ _ => decide_eq_true List.not_mem_nil)

/-- The rows of different bars that are all there are as many as the bars. -/
theorem length_filter_barUid (hnodup : uids.Nodup)
    (hmem : ∀ uid ∈ uids, ∃ b ∈ t.tdxBar, b.barUid = uid) :
    (t.tdxBar.filter fun b => b.barUid ∈ uids).length = uids.length := by
  rw [← List.length_map (f := TdxBarRow.barUid)]
  refine ((List.perm_ext_iff_of_nodup (t.barKey.sublist (List.filter_sublist.map _)) hnodup).mpr
    fun uid => ?_).length_eq
  rw [List.mem_map]
  constructor
  · rintro ⟨b, hb, rfl⟩
    exact of_decide_eq_true (List.mem_filter.mp hb).2
  · intro huid
    obtain ⟨b, hb, rfl⟩ := hmem uid huid
    exact ⟨b, List.mem_filter.mpr ⟨hb, decide_eq_true huid⟩, rfl⟩

/-- Different bars that are all there are deleted, in any chunks. -/
theorem run_deleteBars {rest : List (List Uid)}
    (hsize : ∀ chunk ∈ rest, chunk.length ≤ maxVariables)
    (hnodup : rest.flatten.Nodup) (hmem : ∀ uid ∈ rest.flatten, ∃ b ∈ t.tdxBar, b.barUid = uid) :
    (deleteBars rest).run t = .ok rest.flatten.length (t.without rest.flatten) := by
  induction rest generalizing t with
  | nil => rw [List.flatten_nil, without_nil]; rfl
  | cons chunk rest ih =>
    rw [List.flatten_cons] at hnodup hmem
    have hchunk : (deleteChunk chunk).run t = .ok chunk.length (t.without chunk) := by
      rw [deleteChunk, run_bind_of_ok (run_fromExcept_of_ok
        (bindVariables_eq_ok.mpr (hsize chunk List.mem_cons_self))),
        run_bind_of_ok (run_get t)]
      rw [← length_filter_barUid (hnodup.sublist (List.sublist_append_left ..))
        fun uid h => hmem uid (List.mem_append_left _ h)]
      rfl
    have hrest : (deleteBars rest).run (t.without chunk) =
        .ok rest.flatten.length ((t.without chunk).without rest.flatten) := by
      refine ih (fun c hc => hsize c (List.mem_cons_of_mem _ hc))
        (hnodup.sublist (List.sublist_append_right ..)) fun uid huid => ?_
      obtain ⟨b, hb, rfl⟩ := hmem uid (List.mem_append_right _ huid)
      have hdisjoint := List.disjoint_of_nodup_append hnodup
      exact ⟨b, List.mem_filter.mpr ⟨hb, decide_eq_true fun h => hdisjoint h huid⟩, rfl⟩
    rw [deleteBars, run_bind_of_ok hchunk, run_bind_of_ok hrest, List.flatten_cons,
      List.length_append, without_without]
    rfl

/-! ## Batches -/

/-- A statement has room for the protected bars, with the cutoff and a limit. -/
def Room (p : List Uid) : Prop := p.length + 2 ≤ maxVariables

/-- The tables a plan was made for, as far as its batches check them. -/
structure Fenced (plan : TdxBarRetentionPlan) (t : BarTables) : Prop where
  catalog : t.tables.manifestCatalogHash = plan.manifestCatalogHash
  room : Room plan.protectedBarUids

/-- The candidates of a plan. -/
abbrev TdxBarRetentionPlan.candidates (plan : TdxBarRetentionPlan) (t : BarTables) : List Uid :=
  tdxBarCandidates plan.cutoff plan.protectedBarUids t

theorem run_fenceManifests (h : Fenced plan t) : (fenceManifests plan).run t = .ok () t := by
  rw [fenceManifests, run_bind_of_ok (run_get t)]
  exact run_require_eq_ok.mpr ⟨h.catalog, rfl⟩

/-- A batch deletes the first candidates. -/
theorem run_deleteBatch (batchSize : ℕ) (h : Fenced plan t) : (deleteBatch plan batchSize).run t =
    .ok ((plan.candidates t).take batchSize).length
      (t.without ((plan.candidates t).take batchSize)) := by
  have hroom : candidateVariables plan.protectedBarUids (some batchSize) ≤ maxVariables := by
    rw [candidateVariables_eq, Option.isSome_some, if_pos rfl]
    have := h.room
    unfold Room at this
    omega
  rw [deleteBatch, run_bind_of_ok (run_fenceManifests h),
    run_bind_of_ok (run_fromExcept_of_ok (bindVariables_eq_ok.mpr hroom)),
    run_bind_of_ok (run_get t)]
  dsimp only
  by_cases hnil : (plan.candidates t).take batchSize = []
  · rw [if_pos hnil, hnil, without_nil]
    rfl
  · rw [if_neg hnil]
    have hflatten := @flatten_chunks Uid 500 (by decide) ((plan.candidates t).take batchSize)
    have hdelete := @run_deleteBars t (chunks 500 ((plan.candidates t).take batchSize))
      (fun chunk hchunk => (length_le_of_mem_chunks hchunk).trans (by decide))
      (by rw [hflatten]; exact nodup_tdxBarCandidates.sublist (List.take_sublist ..))
      (fun uid huid => by
        rw [hflatten] at huid
        obtain ⟨b, hb, -, heq⟩ := mem_tdxBarCandidates.mp (List.mem_of_mem_take huid)
        exact ⟨b, hb, heq⟩)
    rw [hflatten] at hdelete
    rw [run_bind_of_ok hdelete, run_bind_of_ok (run_require_of rfl)]
    rfl

theorem run_submitTransaction_of_ok {α : Type} (message : String) {command : BarCommand α} {a : α}
    (h : command.run t = .ok a t') :
    (submitTransaction none message command).run t = .ok a t' := by
  have hrun : (atomically command).run t = .ok a t' := run_atomically_eq_ok.mpr h
  show submitTransaction none message command t = _
  rw [submitTransaction, hrun]

/-- A transaction leaves the tables as they were, or as its command does. -/
theorem stateAfter_submitTransaction {α : Type} (fault : Option WriterFault) (message : String)
    {command : BarCommand α} {a : α} (h : command.run t = .ok a t') :
    stateAfter ((submitTransaction fault message command).run t) = t ∨
      stateAfter ((submitTransaction fault message command).run t) = t' := by
  have hrun : (atomically command).run t = .ok a t' := run_atomically_eq_ok.mpr h
  show stateAfter (submitTransaction fault message command t) = t ∨
    stateAfter (submitTransaction fault message command t) = t'
  cases fault with
  | none =>
    rw [submitTransaction, hrun]
    exact .inr rfl
  | some fault =>
    cases fault with
    | refused e => exact .inl rfl
    | lost e =>
      refine .inr ?_
      rw [submitTransaction, hrun]
      rfl

/-- Some candidates are deleted, and nothing else has changed. -/
def Shrunk (cutoff : Instant) (p : List Uid) (t t' : BarTables) : Prop :=
  ∃ uids, (∀ uid ∈ uids, uid ∈ tdxBarCandidates cutoff p t) ∧ t' = t.without uids

theorem Shrunk.refl (cutoff : Instant) (p : List Uid) (t : BarTables) : Shrunk cutoff p t t :=
  ⟨[], fun _ h => (List.not_mem_nil h).elim, (without_nil t).symm⟩

theorem Shrunk.trans {t'' : BarTables} (h : Shrunk cutoff p t t') (h' : Shrunk cutoff p t' t'') :
    Shrunk cutoff p t t'' := by
  obtain ⟨uids, hmem, rfl⟩ := h
  obtain ⟨uids', hmem', rfl⟩ := h'
  refine ⟨uids ++ uids', fun uid huid => ?_, without_without ..⟩
  rcases List.mem_append.mp huid with huid | huid
  · exact hmem uid huid
  · have huid := hmem' uid huid
    rw [tdxBarCandidates_without] at huid
    exact List.mem_of_mem_filter huid

theorem Fenced.without (h : Fenced plan t) (uids : List Uid) : Fenced plan (t.without uids) :=
  ⟨h.catalog, h.room⟩

/-- Without faults, the batches delete the candidates that are left. -/
theorem run_deleteBatches (h : Fenced plan t) (hbatch : 1 ≤ batchSize)
    (submitted deleted : ℕ) (hcount : deleted + (plan.candidates t).length = plan.candidateCount) :
    ∃ k, (deleteBatches (fun _ => none) plan batchSize submitted deleted).run t =
      .ok (k, plan.candidateCount) (t.without (plan.candidates t)) := by
  have hrunBatch (t : BarTables) (h : Fenced plan t) := run_submitTransaction_of_ok
    "tdx_bar retention database apply failed" (run_deleteBatch batchSize h)
  unfold EStateM.run
  fun_induction deleteBatches (fun _ => none) plan batchSize submitted deleted t with
  | case1 submitted deleted t hlt e t₁ hrun => cases hrun.symm.trans (hrunBatch t h)
  | case2 submitted deleted t hlt t₁ hrun =>
    have htake := (EStateM.Result.ok.inj (hrun.symm.trans (hrunBatch t h))).1
    rw [List.length_take] at htake
    omega
  | case3 submitted deleted t hlt removed t₁ hrun hremoved ih =>
    obtain ⟨rfl, rfl⟩ := EStateM.Result.ok.inj (hrun.symm.trans (hrunBatch t h))
    have hleft : plan.candidates (t.without ((plan.candidates t).take batchSize)) =
        (plan.candidates t).drop batchSize :=
      tdxBarCandidates_without.trans (filter_notMem_take nodup_tdxBarCandidates batchSize)
    obtain ⟨k, hk⟩ := ih _ (h.without _) (by
      rw [hleft, ← hcount, Nat.add_assoc, ← List.length_append, List.take_append_drop])
    refine ⟨k, hk.trans ?_⟩
    rw [hleft, without_without, List.take_append_drop]
  | case4 submitted deleted t hlt =>
    have hnil : plan.candidates t = [] := List.length_eq_zero_iff.mp (by omega)
    rw [hnil, without_nil]
    rw [hnil, List.length_nil, Nat.add_zero] at hcount
    exact ⟨submitted, by rw [hcount]⟩

/-- Whatever goes wrong, the batches delete candidates only. -/
theorem shrunk_deleteBatches (faults : ℕ → Option WriterFault) (h : Fenced plan t)
    (batchSize submitted deleted : ℕ) : Shrunk plan.cutoff plan.protectedBarUids t
      (stateAfter ((deleteBatches faults plan batchSize submitted deleted).run t)) := by
  have hbatch (t : BarTables) (h : Fenced plan t) (submitted : ℕ) :
      Shrunk plan.cutoff plan.protectedBarUids t (stateAfter ((submitTransaction (faults submitted)
        "tdx_bar retention database apply failed" (deleteBatch plan batchSize)).run t)) := by
    rcases stateAfter_submitTransaction (faults submitted)
      "tdx_bar retention database apply failed" (run_deleteBatch batchSize h) with hsame | hdeleted
    · rw [hsame]
      exact Shrunk.refl ..
    · rw [hdeleted]
      exact ⟨_, fun uid huid => List.mem_of_mem_take huid, rfl⟩
  unfold EStateM.run
  fun_induction deleteBatches faults plan batchSize submitted deleted t with
  | case1 submitted deleted t hlt e t₁ hrun =>
    have := hbatch t h submitted
    rwa [hrun] at this
  | case2 submitted deleted t hlt t₁ hrun =>
    have := hbatch t h submitted
    rwa [hrun] at this
  | case3 submitted deleted t hlt removed t₁ hrun hremoved ih =>
    have hstep := hbatch t h submitted
    rw [hrun] at hstep
    obtain ⟨uids, hmem, hwithout⟩ := hstep
    subst hwithout
    exact Shrunk.trans ⟨uids, hmem, rfl⟩ (ih _ (h.without uids))
  | case4 submitted deleted t hlt => exact Shrunk.refl ..

/-! ## Manifests -/

/-- The document of a manifest whose artifact is intact. -/
structure HasDocument (files : ArtifactFiles) (row : InputManifest) (document : Value) : Prop where
  opened : ∃ raw, openVerified files row.artifactSha256 = .ok raw ∧
    Json.decode raw = some document
  uniqueKeys : Json.uniqueKeys document = true
  isObject : ∃ fields, document = .obj fields

/-- The bars that a document lists in a field. -/
def ListsBars (document : Value) (field : String) (uids : List Uid) : Prop :=
  document.get? field = some (.arr (uids.map Value.str))

/-- A manifest that can be read, with valid lists of bars. -/
structure IntactManifest (files : ArtifactFiles) (row : InputManifest) (document : Value) : Prop
    extends HasDocument files row document where
  lists : ∀ field ∈ manifestBarFields, document.get? field = none ∨
    ∃ uids, ListsBars document field uids ∧ ∀ uid ∈ uids, uid ≠ "" ∧ uid.length ≤ 256

/-- Some manifest lists a bar. -/
def Listed (files : ArtifactFiles) (t : BarTables) (uid : Uid) : Prop :=
  ∃ row ∈ t.tables.inputManifest, ∃ document, HasDocument files row document ∧
    ∃ field ∈ manifestBarFields, ∃ uids, ListsBars document field uids ∧ uid ∈ uids

theorem readTexts_map_str (texts : List String) : readTexts (texts.map Value.str) = some texts := by
  induction texts with
  | nil => rfl
  | cons text texts ih => rw [List.map_cons, readTexts, ih]; rfl

theorem HasDocument.unique {row : InputManifest} {document document' : Value}
    (h : HasDocument files row document) (h' : HasDocument files row document') :
    document = document' := by
  obtain ⟨raw, hopen, hdecode⟩ := h.opened
  obtain ⟨raw', hopen', hdecode'⟩ := h'.opened
  cases hopen.symm.trans hopen'
  exact Option.some.inj (hdecode.symm.trans hdecode')

/-- What an intact manifest lists is read. -/
theorem readBarField_of_intact {row : InputManifest} {document : Value} {field : String}
    (h : IntactManifest files row document) (hfield : field ∈ manifestBarFields) :
    ∃ list, readBarField document field = .ok list ∧
      ∀ uid, uid ∈ list ↔ ∃ uids, ListsBars document field uids ∧ uid ∈ uids := by
  unfold readBarField ListsBars
  rcases h.lists field hfield with hnone | ⟨uids, hlists, hvalid⟩
  · refine ⟨[], by rw [hnone], fun uid => ?_⟩
    rw [hnone]
    simp
  · refine ⟨uids, ?_, fun uid => ?_⟩
    · rw [hlists]
      dsimp only
      rw [readTexts_map_str]
      exact except_bind_eq_ok.mpr ⟨(), check_eq_ok.mpr hvalid, rfl⟩
    · rw [hlists]
      constructor
      · exact fun huid => ⟨uids, rfl, huid⟩
      · rintro ⟨uids', heq, huid⟩
        have hmap := Value.arr.inj (Option.some.inj heq)
        rwa [List.map_injective_iff.mpr (fun _ _ => Value.str.inj) hmap]

/-- Lists that can be read one by one are read one after the other. -/
theorem exists_mapM_flatten {α : Type} {f : α → Except Exn (List Uid)} {P : α → Uid → Prop}
    {xs : List α} (h : ∀ x ∈ xs, ∃ list, f x = .ok list ∧ ∀ uid, uid ∈ list ↔ P x uid) :
    ∃ lists, xs.mapM f = .ok lists ∧ ∀ uid, uid ∈ lists.flatten ↔ ∃ x ∈ xs, P x uid := by
  induction xs with
  | nil => exact ⟨[], rfl, by simp⟩
  | cons x xs ih =>
    obtain ⟨hx, hxs⟩ := List.forall_mem_cons.mp h
    obtain ⟨list, hlist, hmem⟩ := hx
    obtain ⟨lists, hlists, hmems⟩ := ih hxs
    refine ⟨list :: lists, ?_, fun uid => ?_⟩
    · rw [List.mapM_cons, hlist, hlists]
      rfl
    · rw [List.flatten_cons, List.mem_append, hmem, hmems, List.exists_mem_cons_iff]

/-- The bars that an intact manifest lists. -/
theorem readBarManifest_of_intact {row : InputManifest} {document : Value}
    (h : IntactManifest files row document) : ∃ list, readBarManifest files row = .ok list ∧
      ∀ uid, uid ∈ list ↔ ∃ field ∈ manifestBarFields, ∃ uids, ListsBars document field uids ∧
        uid ∈ uids := by
  obtain ⟨raw, hopen, hdecode⟩ := h.opened
  obtain ⟨fields, rfl⟩ := h.isObject
  obtain ⟨lists, hlists, hmem⟩ := exists_mapM_flatten fun field hfield =>
    readBarField_of_intact h hfield
  refine ⟨lists.flatten, ?_, hmem⟩
  unfold readBarManifest
  rw [hopen]
  dsimp only
  rw [hdecode]
  refine except_bind_eq_ok.mpr ⟨(), check_eq_ok.mpr h.uniqueKeys, ?_⟩
  dsimp only
  rw [hlists]
  rfl

/-- Every manifest can be read. -/
def Intact (files : ArtifactFiles) (t : BarTables) : Prop :=
  ∀ row ∈ t.tables.inputManifest, ∃ document, IntactManifest files row document

/-- The protected bars are the listed ones, each of them once. -/
theorem protectedTdxBarUids_of_intact (h : Intact files t) :
    ∃ p, protectedTdxBarUids files t = .ok p ∧ p.Nodup ∧ ∀ uid, uid ∈ p ↔ Listed files t uid := by
  have hrow (row : InputManifest) (hmem : row ∈ t.tables.manifestRows) :
      ∃ list, readBarManifest files row = .ok list ∧ ∀ uid, uid ∈ list ↔
        ∃ document, HasDocument files row document ∧ ∃ field ∈ manifestBarFields, ∃ uids,
          ListsBars document field uids ∧ uid ∈ uids := by
    obtain ⟨document, hintact⟩ := h row ((List.mem_insertionSort _).mp hmem)
    obtain ⟨list, hlist, hlisted⟩ := readBarManifest_of_intact hintact
    refine ⟨list, hlist, fun uid => (hlisted uid).trans ?_⟩
    constructor
    · exact fun hfield => ⟨document, hintact.toHasDocument, hfield⟩
    · rintro ⟨document', hdocument, hfield⟩
      rwa [hintact.toHasDocument.unique hdocument]
  obtain ⟨lists, hlists, hmem⟩ := exists_mapM_flatten hrow
  refine ⟨lists.flatten.dedup.insertionSort (· ≤ ·), ?_, ?_, fun uid => ?_⟩
  · unfold protectedTdxBarUids
    rw [hlists]
    rfl
  · exact (List.perm_insertionSort _ _).nodup_iff.mpr (List.nodup_dedup _)
  · rw [List.mem_insertionSort, List.mem_dedup, hmem]
    unfold Listed RetentionTables.manifestRows
    simp only [List.mem_insertionSort]

/-! ## Plans -/

/-- The plan of some protected bars. -/
def barPlanOf (cutoff now : Instant) (p : List Uid) (t : BarTables) : TdxBarRetentionPlan where
  candidateCount := (tdxBarCandidates cutoff p t).length
  candidateHash := tdxBarRetentionHash cutoff (tdxBarCandidates cutoff p t).length
    (Sha256.hexdigest ((tdxBarCandidates cutoff p t).flatMap fun uid => uid.toUTF8.toList ++ [0]))
    t.tables.manifestCatalogHash
  cutoff
  plannedAt := now
  manifestCatalogHash := t.tables.manifestCatalogHash
  protectedBarUids := p

theorem scanTdxBarCandidates_eq (hroom : Room p) : scanTdxBarCandidates cutoff p t =
    .ok ((tdxBarCandidates cutoff p t).length, Sha256.hexdigest
      ((tdxBarCandidates cutoff p t).flatMap fun uid => uid.toUTF8.toList ++ [0])) := by
  have hbind : candidateVariables p none ≤ maxVariables := by
    rw [candidateVariables_eq]
    unfold Room at hroom
    simp only [Option.isSome_none, Bool.false_eq_true, if_false]
    omega
  exact except_bind_eq_ok.mpr ⟨(), bindVariables_eq_ok.mpr hbind, rfl⟩

theorem planTdxBarRetention_eq (hp : protectedTdxBarUids files t = .ok p) (hroom : Room p)
    (hcutoff : cutoff < now) (hbatch : 1 ≤ batchSize ∧ batchSize ≤ 5000) :
    planTdxBarRetention files t cutoff now batchSize = .ok (barPlanOf cutoff now p t) := by
  refine except_bind_eq_ok.mpr ⟨(), check_eq_ok.mpr hbatch, ?_⟩
  refine except_bind_eq_ok.mpr ⟨(), check_eq_ok.mpr hcutoff, ?_⟩
  refine except_bind_eq_ok.mpr ⟨p, hp, ?_⟩
  exact except_bind_eq_ok.mpr ⟨_, scanTdxBarCandidates_eq hroom, rfl⟩

theorem protectedTdxBarUids_congr (h : t'.tables.inputManifest = t.tables.inputManifest) :
    protectedTdxBarUids files t' = protectedTdxBarUids files t := by
  rw [protectedTdxBarUids, RetentionTables.manifestRows, h]
  rfl

/-! ## Applying a plan -/

/-- The tables with the audit record of a plan. -/
def BarTables.audited (t : BarTables) (auditUid : Uid) (plan : TdxBarRetentionPlan)
    (now : Instant) : BarTables :=
  { t with tables := { t.tables with durable := { t.tables.durable with
    analysis := { t.tables.durable.analysis with
      auditRecord := t.tables.durable.analysis.auditRecord ++ [barAudit auditUid plan now] } } } }

/-- The identifier of an audit record is new. -/
def FreshAudit (auditUid : Uid) (t : BarTables) : Prop :=
  ∀ r ∈ t.tables.durable.analysis.auditRecord, r.auditUid ≠ auditUid

theorem run_recordBarAudit (now : Instant) (h : Fenced plan t) (hfresh : FreshAudit auditUid t) :
    (recordBarAudit plan auditUid now).run t = .ok () (t.audited auditUid plan now) := by
  rw [recordBarAudit, run_bind_of_ok (run_fenceManifests h), run_bind_of_ok (run_get t),
    @run_insertAudit t.tables (barAudit auditUid plan now) hfresh]
  rfl

theorem fenced_barPlanOf (cutoff planAt : Instant) (hroom : Room p) :
    Fenced (barPlanOf cutoff planAt p t) t := ⟨rfl, hroom⟩

/-- A plan is the same when it is made again. -/
theorem run_applyTdxBarRetention_eq (faults : ℕ → Option WriterFault)
    (hp : protectedTdxBarUids files t = .ok p) (hroom : Room p) {planAt : Instant}
    (hcutoff : cutoff < now) (hbatch : 1 ≤ batchSize ∧ batchSize ≤ 5000) :
    (applyTdxBarRetention faults files (barPlanOf cutoff planAt p t) auditUid now batchSize).run t =
      (applyFenced faults (barPlanOf cutoff planAt p t) auditUid now batchSize).run t := by
  have hrefreshed : planTdxBarRetention files t (barPlanOf cutoff planAt p t).cutoff now batchSize =
      .ok (barPlanOf cutoff now p t) := planTdxBarRetention_eq hp hroom hcutoff hbatch
  have hvalid : validateBatchSize batchSize = .ok () := check_eq_ok.mpr hbatch
  rw [applyTdxBarRetention, run_bind_of_ok (run_fromExcept_of_ok hvalid),
    run_bind_of_ok (run_get t), run_bind_of_ok (run_fromExcept_eq_ok.mpr ⟨hrefreshed, rfl⟩),
    run_bind_of_ok (run_require_of ⟨rfl, rfl, rfl, rfl, rfl⟩)]

/-- Without faults, the candidates are deleted, and an audit record says so if there were
any. -/
theorem run_applyFenced (hroom : Room p) {planAt : Instant} (hbatch : 1 ≤ batchSize)
    (hfresh : FreshAudit auditUid t) :
    let plan := barPlanOf cutoff planAt p t
    let left := t.without (tdxBarCandidates cutoff p t)
    (applyFenced (fun _ => none) plan auditUid now batchSize).run t =
      .ok ⟨plan.candidateCount, plan.candidateHash⟩
        (if plan.candidateCount = 0 then left else left.audited auditUid plan now) := by
  intro plan left
  have hfenced : Fenced plan t := fenced_barPlanOf cutoff planAt hroom
  have hfenced' : Fenced plan left := hfenced.without _
  unfold applyFenced
  by_cases hcount : plan.candidateCount = 0
  · rw [if_pos hcount, if_pos hcount]
    have hnil : tdxBarCandidates cutoff p t = [] := List.length_eq_zero_iff.mp hcount
    have hleft : left = t := by
      show t.without (tdxBarCandidates cutoff p t) = t
      rw [hnil, without_nil]
    rw [hleft, hcount]
    rfl
  · rw [if_neg hcount, if_neg hcount]
    obtain ⟨k, hk⟩ := run_deleteBatches hfenced hbatch 0 0 (Nat.zero_add _)
    have hscan : scanTdxBarCandidates plan.cutoff plan.protectedBarUids left = _ :=
      scanTdxBarCandidates_eq hroom
    have hnone : tdxBarCandidates plan.cutoff plan.protectedBarUids left = [] :=
      tdxBarCandidates_without_all
    rw [hnone] at hscan
    change _ = EStateM.Result.ok _ left at hk
    rw [run_bind_of_ok hk]
    dsimp only
    rw [run_bind_of_ok (run_require_of rfl), run_bind_of_ok (run_fenceManifests hfenced'),
      run_bind_of_ok (run_get _), run_bind_of_ok (run_fromExcept_eq_ok.mpr ⟨hscan, rfl⟩)]
    dsimp only
    rw [run_bind_of_ok (run_require_of List.length_nil),
      run_bind_of_ok (run_submitTransaction_of_ok _
      (run_recordBarAudit now hfenced' hfresh))]
    rfl

/-- What holds of the tables after a sequence of two commands. -/
theorem stateAfter_bind {α β : Type} {P : BarTables → Prop} {x : BarCommand α}
    {f : α → BarCommand β} (herror : ∀ e t', x.run t = .error e t' → P t')
    (hok : ∀ a t', x.run t = .ok a t' → P (stateAfter ((f a).run t'))) :
    P (stateAfter ((x >>= f).run t)) := by
  cases hx : x.run t with
  | error e t' =>
    rw [run_bind_of_error hx]
    exact herror e t' hx
  | ok a t' =>
    rw [run_bind_of_ok hx]
    exact hok a t' hx

theorem stateAfter_require_bind {β : Type} {P : BarTables → Prop} {q : Prop} [Decidable q]
    {e : Exn} {f : Unit → BarCommand β} (ht : P t) (hok : P (stateAfter ((f ()).run t))) :
    P (stateAfter ((require q e >>= f).run t)) := by
  refine stateAfter_bind (fun e' t' h => ?_) fun _ t' h => ?_
  · obtain ⟨-, -, rfl⟩ := run_require_eq_error.mp h
    exact ht
  · obtain ⟨-, rfl⟩ := run_require_eq_ok.mp h
    exact hok

theorem stateAfter_fromExcept_bind {α β : Type} {P : BarTables → Prop} {x : Except Exn α}
    {f : α → BarCommand β} (ht : P t) (hok : ∀ a, P (stateAfter ((f a).run t))) :
    P (stateAfter ((fromExcept x >>= f).run t)) := by
  refine stateAfter_bind (fun e' t' h => ?_) fun a t' h => ?_
  · obtain ⟨-, rfl⟩ := run_fromExcept_eq_error.mp h
    exact ht
  · obtain ⟨-, rfl⟩ := run_fromExcept_eq_ok.mp h
    exact hok a

/-- Some candidates are deleted, and nothing else has changed but for an audit record. -/
def Applied (plan : TdxBarRetentionPlan) (auditUid : Uid) (now : Instant) (t t' : BarTables) :
    Prop :=
  ∃ t₁, Shrunk plan.cutoff plan.protectedBarUids t t₁ ∧
    (t' = t₁ ∨ t' = t₁.audited auditUid plan now)

/-- Whatever goes wrong, nothing but candidates is deleted, and nothing but the audit record is
written. -/
theorem applied_applyFenced (now : Instant) (faults : ℕ → Option WriterFault) (batchSize : ℕ)
    (hfenced : Fenced plan t) (hfresh : FreshAudit auditUid t) :
    Applied plan auditUid now t
      (stateAfter ((applyFenced faults plan auditUid now batchSize).run t)) := by
  have hshrunk := shrunk_deleteBatches faults hfenced batchSize 0 0
  unfold applyFenced
  split
  · exact ⟨t, Shrunk.refl .., .inl rfl⟩
  refine stateAfter_bind (P := Applied plan auditUid now t) (fun e t₁ hrun => ?_)
    fun counts t₁ hrun => ?_
  · rw [hrun] at hshrunk
    exact ⟨t₁, hshrunk, .inl rfl⟩
  rw [hrun] at hshrunk
  have hnext : Fenced plan t₁ ∧ FreshAudit auditUid t₁ := by
    obtain ⟨uids, -, hwithout⟩ := hshrunk
    change t₁ = _ at hwithout
    rw [hwithout]
    exact ⟨hfenced.without uids, hfresh⟩
  have hstay : Applied plan auditUid now t t₁ := ⟨t₁, hshrunk, .inl rfl⟩
  refine stateAfter_require_bind (P := Applied plan auditUid now t) hstay ?_
  rw [run_bind_of_ok (run_fenceManifests hnext.1), run_bind_of_ok (run_get _)]
  refine stateAfter_fromExcept_bind (P := Applied plan auditUid now t) hstay fun scan =>
    stateAfter_require_bind (P := Applied plan auditUid now t) hstay ?_
  have hsubmit := stateAfter_submitTransaction (faults counts.1)
    "tdx_bar retention audit write failed" (run_recordBarAudit now hnext.1 hnext.2)
  refine stateAfter_bind (P := Applied plan auditUid now t) (fun e t₂ hrun => ?_)
    fun _ t₂ hrun => ?_
  all_goals
    rw [hrun] at hsubmit
    exact ⟨t₁, hshrunk, hsubmit⟩

/-! ## Complete retention -/

/-- A bar that nothing needs. -/
def Unneeded (files : ArtifactFiles) (cutoff : Instant) (t : BarTables) (b : TdxBarRow) : Prop :=
  b.intervalKind = .minute ∧ b.sourceTime < cutoff ∧ ¬Listed files t b.barUid

/-- A batch size that is accepted. -/
def AcceptedBatchSize (batchSize : ℕ) : Prop := 1 ≤ batchSize ∧ batchSize ≤ 5000

/-- The bars that are left are those that something needs, and a new plan is empty. -/
structure RetentionDone (files : ArtifactFiles) (cutoff : Instant) (t t' : BarTables) : Prop where
  bars : ∀ b, b ∈ t'.tdxBar ↔ b ∈ t.tdxBar ∧ ¬Unneeded files cutoff t b
  nothing_left : ∀ now batchSize, cutoff < now → AcceptedBatchSize batchSize →
    ∃ plan, planTdxBarRetention files t' cutoff now batchSize = .ok plan ∧ plan.candidateCount = 0

/-- A plan can be made in `s`, and applying it does what is left to do of the retention of
`t`. An audit record says so, unless there was nothing left. -/
def Completes (files : ArtifactFiles) (cutoff : Instant) (t s : BarTables) : Prop :=
  ∀ planAt planBatch, cutoff < planAt → AcceptedBatchSize planBatch →
    ∃ plan, planTdxBarRetention files s cutoff planAt planBatch = .ok plan ∧
      ∀ auditUid applyAt applyBatch, FreshAudit auditUid s → cutoff < applyAt →
        AcceptedBatchSize applyBatch → ∃ s',
          (applyTdxBarRetention (fun _ => none) files plan auditUid applyAt applyBatch).run s =
            .ok ⟨plan.candidateCount, plan.candidateHash⟩ s' ∧
          RetentionDone files cutoff t s' ∧
          s'.tables = if plan.candidateCount = 0 then s.tables
            else (s.audited auditUid plan applyAt).tables

/-- Some bars of `t` that nothing needs are not in `s`, and the manifests are the same. -/
structure Pruned (files : ArtifactFiles) (cutoff : Instant) (t s : BarTables) : Prop where
  manifests : s.tables.inputManifest = t.tables.inputManifest
  subset : ∀ b ∈ s.tdxBar, b ∈ t.tdxBar
  deleted : ∀ b ∈ t.tdxBar, b ∉ s.tdxBar → Unneeded files cutoff t b

theorem candidate_iff_unneeded (hlisted : ∀ uid, uid ∈ p ↔ Listed files t uid) {b : TdxBarRow} :
    b.Candidate cutoff p ↔ Unneeded files cutoff t b := by
  unfold TdxBarRow.Candidate Unneeded
  rw [hlisted]

/-- With its key, a bar of the table is deleted when it is a candidate. -/
theorem mem_without_candidates {b : TdxBarRow} :
    b ∈ (t.without (tdxBarCandidates cutoff p t)).tdxBar ↔
      b ∈ t.tdxBar ∧ ¬b.Candidate cutoff p := by
  unfold BarTables.without
  rw [List.mem_filter, decide_eq_true_iff, mem_tdxBarCandidates]
  refine and_congr_right fun hb => not_congr ⟨?_, fun h => ⟨b, hb, h, rfl⟩⟩
  rintro ⟨b', hb', hcandidate, heq⟩
  rwa [← List.inj_on_of_nodup_map t.barKey hb' hb heq]

/-- Retention can be completed after any part of it. -/
theorem completes_of_pruned {s : BarTables} (hp : protectedTdxBarUids files t = .ok p)
    (hlisted : ∀ uid, uid ∈ p ↔ Listed files t uid) (hroom : Room p)
    (h : Pruned files cutoff t s) : Completes files cutoff t s := by
  intro planAt planBatch hplanAt hplanBatch
  have hps : protectedTdxBarUids files s = .ok p := (protectedTdxBarUids_congr h.manifests).trans hp
  refine ⟨barPlanOf cutoff planAt p s, planTdxBarRetention_eq hps hroom hplanAt hplanBatch, ?_⟩
  intro auditUid applyAt applyBatch hfresh happlyAt happlyBatch
  let left := s.without (tdxBarCandidates cutoff p s)
  obtain ⟨s', hs', hbars, hmanifests, htables⟩ : ∃ s',
      (if (barPlanOf cutoff planAt p s).candidateCount = 0 then left
        else left.audited auditUid (barPlanOf cutoff planAt p s) applyAt) = s' ∧
      s'.tdxBar = left.tdxBar ∧ s'.tables.inputManifest = s.tables.inputManifest ∧
      s'.tables = if (barPlanOf cutoff planAt p s).candidateCount = 0 then s.tables
        else (s.audited auditUid (barPlanOf cutoff planAt p s) applyAt).tables := by
    by_cases hcount : (barPlanOf cutoff planAt p s).candidateCount = 0
    · rw [if_pos hcount, if_pos hcount]
      exact ⟨left, rfl, rfl, rfl, rfl⟩
    · rw [if_neg hcount, if_neg hcount]
      exact ⟨_, rfl, rfl, rfl, rfl⟩
  refine ⟨s', ?_, ⟨fun b => ?_, fun now batchSize hnow hbatch => ?_⟩, htables⟩
  · rw [← hs']
    exact (run_applyTdxBarRetention_eq _ hps hroom happlyAt happlyBatch).trans
      (run_applyFenced hroom happlyBatch.1 hfresh)
  · rw [hbars, mem_without_candidates, candidate_iff_unneeded hlisted]
    constructor
    · exact fun ⟨hb, hneeded⟩ => ⟨h.subset b hb, hneeded⟩
    · exact fun ⟨hb, hneeded⟩ => ⟨by_contra fun hnot => hneeded (h.deleted b hb hnot), hneeded⟩
  · refine ⟨barPlanOf cutoff now p s', planTdxBarRetention_eq
      ((protectedTdxBarUids_congr hmanifests).trans hps) hroom hnow hbatch, ?_⟩
    have hcandidates : tdxBarCandidates cutoff p s' = tdxBarCandidates cutoff p left := by
      rw [tdxBarCandidates, hbars]
      rfl
    show (tdxBarCandidates cutoff p s').length = 0
    rw [hcandidates, tdxBarCandidates_without_all, List.length_nil]

/-- What was applied of a plan is a part of it. -/
theorem Applied.pruned {auditUid : Uid} (h : Applied plan auditUid now t t')
    (hlisted : ∀ uid, uid ∈ plan.protectedBarUids ↔ Listed files t uid) :
    Pruned files plan.cutoff t t' := by
  obtain ⟨t₁, ⟨uids, hmem, rfl⟩, h⟩ := h
  have hbars : t'.tdxBar = (t.without uids).tdxBar := by
    rcases h with rfl | rfl <;> rfl
  refine ⟨?_, fun b hb => ?_, fun b hb hnot => ?_⟩
  · rcases h with rfl | rfl <;> rfl
  · rw [hbars] at hb
    exact List.mem_of_mem_filter hb
  · have huid : b.barUid ∈ uids := by
      by_contra huid
      rw [hbars] at hnot
      exact hnot (List.mem_filter.mpr ⟨hb, decide_eq_true huid⟩)
    obtain ⟨b', hb', hcandidate, heq⟩ := mem_tdxBarCandidates.mp (hmem _ huid)
    rw [← candidate_iff_unneeded hlisted, ← List.inj_on_of_nodup_map t.barKey hb' hb heq]
    exact hcandidate

/-- The manifests list no more bars than a statement has room for, with the cutoff and the limit
of a batch. -/
def FewListed (files : ArtifactFiles) (t : BarTables) : Prop :=
  ∀ uids : List Uid, uids.Nodup → (∀ uid ∈ uids, Listed files t uid) →
    uids.length + 2 ≤ maxVariables

/-- With intact manifests that list few enough bars, retention is complete, and it can be
completed when it stopped midway. -/
theorem bar_retention_complete (hintact : Intact files t) (hfew : FewListed files t)
    (cutoff : Instant) : Completes files cutoff t t ∧
      ∀ planAt planBatch plan, cutoff < planAt → AcceptedBatchSize planBatch →
        planTdxBarRetention files t cutoff planAt planBatch = .ok plan →
        ∀ faults auditUid applyAt applyBatch, FreshAudit auditUid t → cutoff < applyAt →
          AcceptedBatchSize applyBatch → ∀ e t',
          (applyTdxBarRetention faults files plan auditUid applyAt applyBatch).run t = .error e t' →
            Pruned files cutoff t t' ∧ Completes files cutoff t t' := by
  obtain ⟨p, hp, hnodup, hlisted⟩ := protectedTdxBarUids_of_intact hintact
  have hroom : Room p := hfew p hnodup fun uid huid => (hlisted uid).mp huid
  refine ⟨completes_of_pruned hp hlisted hroom ⟨rfl, fun _ hb => hb, fun b hb hnot =>
    absurd hb hnot⟩, ?_⟩
  intro planAt planBatch plan hplanAt hplanBatch hplan faults auditUid applyAt applyBatch hfresh
    happlyAt happlyBatch e t' hrun
  cases hplan.symm.trans (planTdxBarRetention_eq hp hroom hplanAt hplanBatch)
  rw [run_applyTdxBarRetention_eq faults hp hroom happlyAt happlyBatch] at hrun
  have happlied := applied_applyFenced applyAt faults applyBatch
    (fenced_barPlanOf cutoff planAt hroom) hfresh
  rw [hrun] at happlied
  have hpruned : Pruned files cutoff t t' := happlied.pruned hlisted
  exact ⟨hpruned, completes_of_pruned hp hlisted hroom hpruned⟩

/-! ## Two storages -/

/-- A manifest that lists some bars. -/
def listingDocument (uids : List Uid) : Value := .obj [("bar_uids", .arr (uids.map Value.str))]

def listingManifest (uids : List Uid) : InputManifest :=
  ⟨"manifest", canonicalHash (listingDocument uids), canonicalHash (listingDocument uids), 0⟩

/-- The artifact of the manifest. -/
def listingFiles (uids : List Uid) : ArtifactFiles := fun digest =>
  if digest = canonicalHash (listingDocument uids) then
    some (Json.canonicalBytes (listingDocument uids))
  else none

/-- The tables with the manifests of some lists, their artifacts, and some bars. -/
def listingTables (lists : List (List Uid)) (bars : List TdxBarRow)
    (barKey : (bars.map TdxBarRow.barUid).Nodup) : BarTables where
  tables :=
    { emptyTables with durable :=
      { emptyTables.durable with
        evidence := { emptyTables.durable.evidence with inputManifest := lists.map listingManifest }
        artifacts := ⟨lists.map fun uids =>
          registeredArtifact (Json.canonicalBytes (listingDocument uids)) 0, []⟩ } }
  tdxBar := bars
  barKey

theorem sortItems_map_str (uids : List Uid) :
    Json.sortItems (uids.map Value.str) = uids.map Value.str := by
  induction uids with
  | nil => rfl
  | cons uid uids ih =>
    rw [List.map_cons, Json.sortItems, ih]
    rfl

theorem listingDocument_plain (uids : List Uid) : Json.Plain (listingDocument uids) := by
  refine Json.Plain.obj (List.nodup_singleton _) fun f hf => ?_
  rw [List.mem_singleton.mp hf]
  refine Json.Plain.arr fun v hv => ?_
  obtain ⟨uid, -, rfl⟩ := List.mem_map.mp hv
  exact Json.Plain.str uid

theorem sortKeys_listingDocument (uids : List Uid) :
    Json.sortKeys (listingDocument uids) = listingDocument uids := by
  simp only [listingDocument, Json.sortKeys, Json.sortFields, sortItems_map_str]
  rfl

theorem listing_hasDocument (uids : List Uid) :
    HasDocument (listingFiles uids) (listingManifest uids) (listingDocument uids) where
  opened := by
    refine ⟨Json.canonicalBytes (listingDocument uids), openVerified_eq_ok.mpr
      ⟨if_pos rfl, (canonicalHash_eq_hexdigest _).symm⟩, ?_⟩
    rw [Json.decode_canonicalBytes (listingDocument_plain uids).integral,
      sortKeys_listingDocument]
  uniqueKeys := (listingDocument_plain uids).uniqueKeys
  isObject := ⟨_, rfl⟩

theorem listing_intact {uids : List Uid} (hvalid : ∀ uid ∈ uids, uid ≠ "" ∧ uid.length ≤ 256)
    {bars : List TdxBarRow} {barKey : (bars.map TdxBarRow.barUid).Nodup} :
    Intact (listingFiles uids) (listingTables [uids] bars barKey) := by
  intro row hrow
  rw [List.mem_singleton.mp hrow]
  refine ⟨_, listing_hasDocument uids, fun field hfield => ?_⟩
  rcases List.mem_cons.mp hfield with rfl | hfield
  · exact .inr ⟨uids, rfl, hvalid⟩
  · rw [List.mem_singleton.mp hfield]
    exact .inl rfl

/-- The listed bars are those of the document. -/
theorem listing_listed {uids : List Uid} {bars : List TdxBarRow}
    {barKey : (bars.map TdxBarRow.barUid).Nodup} {uid : Uid} :
    Listed (listingFiles uids) (listingTables [uids] bars barKey) uid ↔
      uid ∈ uids := by
  constructor
  · rintro ⟨row, hrow, document, hdocument, field, hfield, uids', hlists, huid⟩
    rw [List.mem_singleton.mp hrow] at hdocument
    rw [hdocument.unique (listing_hasDocument uids)] at hlists
    rcases List.mem_cons.mp hfield with rfl | hfield
    · have hmap : uids.map Value.str = uids'.map Value.str := Value.arr.inj (Option.some.inj hlists)
      rwa [List.map_injective_iff.mpr (fun _ _ => Value.str.inj) hmap]
    · rw [List.mem_singleton.mp hfield] at hlists
      cases hlists
  · exact fun huid => ⟨_, List.mem_singleton.mpr rfl, _, listing_hasDocument uids, _,
      List.mem_cons_self, uids, rfl, huid⟩

theorem listing_few {uids : List Uid} (hfew : uids.length + 2 ≤ maxVariables)
    {bars : List TdxBarRow} {barKey : (bars.map TdxBarRow.barUid).Nodup} :
    FewListed (listingFiles uids) (listingTables [uids] bars barKey) := by
  intro uids' hnodup hlisted
  have hlength : uids'.length ≤ uids.length := (List.subperm_of_subset hnodup fun uid huid =>
    listing_listed.mp (hlisted uid huid)).length_le
  omega

/-- An old bar that a manifest lists, and one that none lists. -/
def twoOldBars : BarTables :=
  listingTables [["listed"]] [⟨"listed", .minute, 0⟩, ⟨"unlisted", .minute, 0⟩]
    (by decide)

/-- A writer whose results do not arrive. -/
def lostResults : ℕ → Option WriterFault := fun _ => some (.lost ⟨.operationalError, "lost"⟩)

/-- A plan with candidates fails when its results are lost. -/
theorem run_applyFenced_of_lost (hcandidates : plan.candidateCount ≠ 0) :
    ∃ e t', (applyFenced lostResults plan auditUid now batchSize).run t = .error e t' := by
  have hpos : 0 < plan.candidateCount := Nat.pos_of_ne_zero hcandidates
  have hlost : (deleteBatches lostResults plan batchSize 0 0).run t =
      .error
        (retentionFailure "tdx_bar retention database apply failed" ⟨.operationalError, "lost"⟩)
        (stateAfter ((atomically (deleteBatch plan batchSize)).run t)) := by
    show deleteBatches lostResults plan batchSize 0 0 t = _
    rw [deleteBatches, if_pos hpos]
    rfl
  unfold applyFenced
  rw [if_neg hcandidates, run_bind_of_error hlost]
  exact ⟨_, _, rfl⟩

/-- Retention of the two bars is complete, also after one whose writer failed. -/
theorem two_old_bars_complete :
    Completes (listingFiles ["listed"]) (minutes 1) twoOldBars twoOldBars ∧
    ∃ plan e t', planTdxBarRetention (listingFiles ["listed"]) twoOldBars (minutes 1) (minutes 2)
        1 = .ok plan ∧
      (applyTdxBarRetention lostResults (listingFiles ["listed"]) plan "audit" (minutes 3) 1).run
        twoOldBars = .error e t' ∧
      Pruned (listingFiles ["listed"]) (minutes 1) twoOldBars t' ∧
      Completes (listingFiles ["listed"]) (minutes 1) twoOldBars t' := by
  have hintact : Intact (listingFiles ["listed"]) twoOldBars := listing_intact (by decide)
  have hfew : FewListed (listingFiles ["listed"]) twoOldBars := listing_few (by decide)
  obtain ⟨hcomplete, hfailed⟩ := bar_retention_complete hintact hfew (minutes 1)
  obtain ⟨p, hp, hnodup, hlisted⟩ := protectedTdxBarUids_of_intact hintact
  have hroom : Room p := hfew p hnodup fun uid huid => (hlisted uid).mp huid
  have hplan : planTdxBarRetention (listingFiles ["listed"]) twoOldBars (minutes 1) (minutes 2) 1 =
      .ok (barPlanOf (minutes 1) (minutes 2) p twoOldBars) :=
    planTdxBarRetention_eq hp hroom (by decide) (by decide)
  have hunlisted : "unlisted" ∈ tdxBarCandidates (minutes 1) p twoOldBars := by
    refine mem_tdxBarCandidates.mpr ⟨⟨"unlisted", .minute, 0⟩, by simp [twoOldBars, listingTables],
      ⟨rfl, by decide, fun hmem => ?_⟩, rfl⟩
    exact absurd (listing_listed.mp ((hlisted _).mp hmem)) (by decide)
  obtain ⟨e, t', hrun⟩ : ∃ e t', (applyFenced lostResults
      (barPlanOf (minutes 1) (minutes 2) p twoOldBars) "audit" (minutes 3) 1).run twoOldBars =
        .error e t' :=
    run_applyFenced_of_lost (List.length_pos_of_mem hunlisted).ne'
  have happly :=
    (run_applyTdxBarRetention_eq lostResults hp hroom (by decide) (by decide)).trans hrun
  exact ⟨hcomplete, _, e, t', hplan, happly,
    hfailed (minutes 2) 1 _ (by decide) ⟨le_rfl, by decide⟩ hplan lostResults "audit" (minutes 3) 1
      (fun r hr => by cases hr) (by decide) ⟨le_rfl, by decide⟩ e t' happly⟩

/-- Names of one character. -/
def shortUids (n : ℕ) : List Uid := (List.range n).map fun k => String.ofList [Char.ofNat (k + 256)]

theorem shortUids_nodup {n : ℕ} (hn : n ≤ 50000) : (shortUids n).Nodup := by
  refine List.Nodup.map_on (fun k hk k' hk' heq => ?_) List.nodup_range
  have htoNat (m : ℕ) (hm : m < n) : (Char.ofNat (m + 256)).toNat = m + 256 := by
    have hvalid : (m + 256).isValidChar := .inl (by omega)
    rw [Char.toNat, Char.ofNat, dif_pos hvalid]
    rfl
  have hchar := congrArg Char.toNat (List.singleton_inj.mp (String.ofList_inj.mp heq))
  rw [htoNat k (List.mem_range.mp hk), htoNat k' (List.mem_range.mp hk')] at hchar
  exact Nat.add_right_cancel hchar

theorem shortUids_valid {n : ℕ} {uid : Uid} (h : uid ∈ shortUids n) :
    uid ≠ "" ∧ uid.length ≤ 256 := by
  obtain ⟨k, -, rfl⟩ := List.mem_map.mp h
  refine ⟨fun heq => ?_, ?_⟩
  · cases String.ofList_inj.mp (heq.trans (show "" = String.ofList [] from rfl))
  · rw [String.length_ofList, List.length_singleton]
    decide

/-- A statement without room for the listed bars is not executed. -/
theorem planTdxBarRetention_of_full (hp : protectedTdxBarUids files t = .ok p)
    (hfull : maxVariables ≤ p.length) (hcutoff : cutoff < now)
    (hbatch : AcceptedBatchSize batchSize) : planTdxBarRetention files t cutoff now batchSize =
      .error ⟨.operationalError, "too many SQL variables"⟩ := by
  have hbind : bindVariables (candidateVariables p none) =
      .error ⟨.operationalError, "too many SQL variables"⟩ := by
    rw [candidateVariables_eq]
    refine if_neg fun hle => ?_
    simp only [Option.isSome_none, Bool.false_eq_true, if_false] at hle
    omega
  have hvalid : validateBatchSize batchSize = .ok () := check_eq_ok.mpr hbatch
  have hprecede : check (cutoff < now) (valueError
      "retention cutoff must precede the current time") = .ok () := check_eq_ok.mpr hcutoff
  rw [planTdxBarRetention, hvalid, hprecede, hp]
  show (scanTdxBarCandidates cutoff p t >>= _) = _
  rw [scanTdxBarCandidates, hbind]
  rfl

/-- With nothing to delete there is no audit record, and with too many listed bars there is no
plan. -/
theorem bar_retention_of_extreme_manifests :
    (∃ plan result s', planTdxBarRetention (listingFiles []) (listingTables [] [] List.nodup_nil)
        (minutes 1) (minutes 2) 1 = .ok plan ∧
      (applyTdxBarRetention (fun _ => none) (listingFiles []) plan "audit" (minutes 2) 1).run
        (listingTables [] [] List.nodup_nil) = .ok result s' ∧
      s'.tables.durable.analysis.auditRecord = []) ∧
    Intact (listingFiles (shortUids 32766))
      (listingTables [shortUids 32766] [] List.nodup_nil) ∧
    planTdxBarRetention (listingFiles (shortUids 32766))
      (listingTables [shortUids 32766] [] List.nodup_nil)
      (minutes 1) (minutes 2) 1 = .error ⟨.operationalError, "too many SQL variables"⟩ := by
  refine ⟨?_, listing_intact fun _ => shortUids_valid, ?_⟩
  · have hp : protectedTdxBarUids (listingFiles []) (listingTables [] [] List.nodup_nil) =
      .ok [] := rfl
    have hroom : Room [] := Nat.le_of_ble_eq_true rfl
    exact ⟨_, _, _, planTdxBarRetention_eq hp hroom (by decide) (by decide),
      (run_applyTdxBarRetention_eq _ hp hroom (by decide) (by decide)).trans
        (run_applyFenced hroom (by decide) (fun r hr => by cases hr)), rfl⟩
  · obtain ⟨p, hp, hnodup, hlisted⟩ := protectedTdxBarUids_of_intact
      (@listing_intact (shortUids 32766) (fun _ => shortUids_valid) [] List.nodup_nil)
    have hlength : p.length = 32766 := by
      have hperm : p.Perm (shortUids 32766) := (List.perm_ext_iff_of_nodup hnodup
        (shortUids_nodup (by decide))).mpr fun uid => (hlisted uid).trans listing_listed
      rw [hperm.length_eq, shortUids, List.length_map, List.length_range]
    exact planTdxBarRetention_of_full hp hlength.ge (by decide) ⟨le_rfl, by decide⟩

end MarketMonitor
