import MarketMonitor.MarketData.PollHistory
import MarketMonitor.Persistence.Retention

/-!
# Plans that can be applied

A plan is applied, and leaves nothing to plan, exactly when no planned row has a reference
that the candidates are not checked for (`plan_applied_iff`). The details of a quote are
such a reference : a quote of the TDX provider that is old enough to be planned makes
`apply_retention` fail.
-/

namespace MarketMonitor

open Transaction

/-! ## What the schema keeps -/

/-- The primary keys of the quotes and of the artifacts, and the check of a digest. -/
structure RetentionKeys (t : RetentionTables) : Prop where
  quotes : (t.market.marketQuote.map MarketQuote.quoteUid).Nodup
  artifacts : (t.artifactObject.map ArtifactObject.sha256).Nodup
  digest : ∀ a ∈ t.artifactObject, Sha256.IsDigest a.sha256

variable {t t' : RetentionTables} {s s' : Storage} {plan : RetentionPlan} {auditUid : Uid}
  {cutoff now planAt applyAt nextAt : Instant} {lineages : List Uid}

/-- With a key, the rows of some keys of the table are as many as the keys. -/
theorem length_filter_mem {ρ : Type} {key : ρ → String} {rows : List ρ}
    (hrows : (rows.map key).Nodup) {p : ρ → Bool} :
    (rows.filter fun r => key r ∈ (rows.filter p).map key).length =
      (((rows.filter p).map key).insertionSort (· ≤ ·)).length := by
  rw [List.length_insertionSort, List.length_map]
  congr 1
  refine List.filter_congr fun r hr => ?_
  rw [Bool.eq_iff_iff, decide_eq_true_iff]
  constructor
  · intro hmem
    obtain ⟨r', hr', heq⟩ := List.mem_map.mp hmem
    obtain ⟨hr', hp⟩ := List.mem_filter.mp hr'
    rwa [← List.inj_on_of_nodup_map hrows hr' hr heq]
  · intro hp
    exact List.mem_map_of_mem (List.mem_filter.mpr ⟨hr, hp⟩)

theorem mem_quoteCandidates {uid : Uid} : uid ∈ t.quoteCandidates cutoff lineages ↔
    ∃ q ∈ t.market.marketQuote, t.QuoteCandidate cutoff lineages q ∧ q.quoteUid = uid := by
  simp [RetentionTables.quoteCandidates, and_assoc]

theorem mem_artifactCandidates {sha256 : String} :
    sha256 ∈ t.artifactCandidates cutoff now ↔
      ∃ a ∈ t.artifactObject, t.ArtifactCandidate cutoff now a ∧ a.sha256 = sha256 := by
  simp [RetentionTables.artifactCandidates, and_assoc]

/-- With its key, a quote is planned when it is a candidate. -/
theorem mem_quoteCandidates_of_mem (h : RetentionKeys t) {q : MarketQuote}
    (hq : q ∈ t.market.marketQuote) :
    q.quoteUid ∈ t.quoteCandidates cutoff lineages ↔ t.QuoteCandidate cutoff lineages q := by
  rw [mem_quoteCandidates]
  constructor
  · rintro ⟨q', hq', hcandidate, heq⟩
    rwa [← List.inj_on_of_nodup_map h.quotes hq' hq heq]
  · exact fun hcandidate => ⟨q, hq, hcandidate, rfl⟩

theorem mem_artifactCandidates_of_mem (h : RetentionKeys t) {a : ArtifactObject}
    (ha : a ∈ t.artifactObject) :
    a.sha256 ∈ t.artifactCandidates cutoff now ↔ t.ArtifactCandidate cutoff now a := by
  rw [mem_artifactCandidates]
  constructor
  · rintro ⟨a', ha', hcandidate, heq⟩
    rwa [← List.inj_on_of_nodup_map h.artifacts ha' ha heq]
  · exact fun hcandidate => ⟨a, ha, hcandidate, rfl⟩

/-! ## What applying a plan should leave -/

/-- The tables without the planned rows, and with their audit record. -/
def removedTables (plan : RetentionPlan) (auditUid : Uid) (now : Instant) (t : RetentionTables) :
    RetentionTables :=
  let pruned := (t.setQuotes (t.market.marketQuote.filter fun q =>
    q.quoteUid ∉ plan.quoteUids)).setArtifacts
      { artifactObject := t.artifactObject.filter fun a => a.sha256 ∉ plan.artifactSha256s
        artifactLease := t.artifactLease.filter fun l =>
          ¬(l.sha256 ∈ plan.artifactSha256s ∧ julianday l.validUntil ≤ julianday now) }
  { pruned with durable := { pruned.durable with analysis := { pruned.durable.analysis with
    auditRecord := pruned.durable.analysis.auditRecord ++ [retentionAudit auditUid plan now] } } }

/-- The storage without the planned rows and files. -/
def removePlanned (plan : RetentionPlan) (auditUid : Uid) (now : Instant) (s : Storage) :
    Storage where
  tables := removedTables plan auditUid now s.tables
  files d := if d ∈ plan.artifactSha256s then none else s.files d

/-- A plan is applied at an instant : its rows and files are removed and nothing else is, and
a later plan with the same cutoff is empty. -/
def PlanApplied (plan : RetentionPlan) (auditUid : Uid) (applyAt nextAt : Instant)
    (s : Storage) : Prop :=
  (applyRetention plan auditUid applyAt).run s =
      .ok ⟨plan.quoteUids.length, plan.artifactSha256s.length, plan.candidateHash⟩
        (removePlanned plan auditUid applyAt s) ∧
    ∃ next, planRetention (removePlanned plan auditUid applyAt s) plan.cutoff nextAt = .ok next ∧
      next.quoteUids = [] ∧ next.artifactSha256s = []

/-- No candidate has a reference that the candidates are not checked for. -/
structure Deletable (cutoff now : Instant) (s : Storage) : Prop where
  quotes : ∀ lineages, s.manifestLineages = .ok lineages → ∀ q ∈ s.tables.market.marketQuote,
    s.tables.QuoteCandidate cutoff lineages q →
      q.quoteUid ∉ s.tables.market.tdxQuoteDetail.map TdxQuoteDetailRow.quoteUid
  artifacts : ∀ a ∈ s.tables.artifactObject, s.tables.ArtifactCandidate cutoff now a →
    a.sha256 ∉ s.tables.unguardedReferences

/-- No candidate of a later instant is none yet : no lease runs out in between that alone
protects an artifact. -/
def LeasesStand (cutoff now later : Instant) (t : RetentionTables) : Prop :=
  ∀ a ∈ t.artifactObject, t.ArtifactCandidate cutoff later a → t.ArtifactCandidate cutoff now a

/-! ## Candidates at other instants -/

theorem julianday_mono {a b : Instant} (h : a ≤ b) : julianday a ≤ julianday b :=
  Nat.div_le_div_right (Nat.add_le_add_right h 500)

/-- A candidate stays one. -/
theorem RetentionTables.ArtifactCandidate.mono {a : ArtifactObject}
    (h : t.ArtifactCandidate cutoff now a) {later : Instant} (hle : now ≤ later) :
    t.ArtifactCandidate cutoff later a where
  old := h.old
  unreferenced := h.unreferenced
  unleased := by
    rintro ⟨l, hl, hsha, hactive⟩
    exact h.unleased ⟨l, hl, hsha, (julianday_mono hle).trans_lt hactive⟩

theorem artifactCandidates_congr {later : Instant}
    (h : ∀ a ∈ t.artifactObject, t.ArtifactCandidate cutoff later a ↔
      t.ArtifactCandidate cutoff now a) :
    t.artifactCandidates cutoff later = t.artifactCandidates cutoff now := by
  unfold RetentionTables.artifactCandidates
  congr 2
  refine List.filter_congr fun a ha => ?_
  rw [Bool.eq_iff_iff, decide_eq_true_iff, decide_eq_true_iff]
  exact h a ha

theorem quoteCandidates_congr {lineages' : List Uid} (h : ∀ l, l ∈ lineages' ↔ l ∈ lineages) :
    t.quoteCandidates cutoff lineages' = t.quoteCandidates cutoff lineages := by
  unfold RetentionTables.quoteCandidates
  congr 2
  refine List.filter_congr fun q _ => ?_
  rw [Bool.eq_iff_iff, decide_eq_true_iff, decide_eq_true_iff]
  exact ⟨fun hq => ⟨hq.expired, hq.issues, hq.evidence, fun hl => hq.manifests ((h _).mpr hl)⟩,
    fun hq => ⟨hq.expired, hq.issues, hq.evidence, fun hl => hq.manifests ((h _).mp hl)⟩⟩

/-! ## The deletion of the rows -/

section

variable (hkeys : RetentionKeys t)

/-- The references to a candidate are its details. -/
theorem RetentionTables.QuoteCandidate.mem_quoteReferences {q : MarketQuote}
    (h : t.QuoteCandidate cutoff lineages q) (hq : q ∈ t.market.marketQuote) :
    q.quoteUid ∈ t.quoteReferences ↔
      q.quoteUid ∈ t.market.tdxQuoteDetail.map TdxQuoteDetailRow.quoteUid := by
  rw [RetentionTables.quoteReferences, List.mem_append, List.mem_append]
  refine or_iff_right ?_
  rintro (hissue | hfact)
  · exact h.issues ⟨q, hq, rfl, hissue⟩
  · exact h.evidence ⟨q, hq, rfl, hfact⟩

include hkeys

/-- The candidates among the quotes are deleted when none has details. -/
theorem run_deleteQuotes (hdetails : ∀ q ∈ t.market.marketQuote,
    t.QuoteCandidate cutoff lineages q →
      q.quoteUid ∉ t.market.tdxQuoteDetail.map TdxQuoteDetailRow.quoteUid) :
    (deleteQuotes (t.quoteCandidates cutoff lineages)).run t =
      .ok (t.quoteCandidates cutoff lineages).length
        (t.setQuotes (t.market.marketQuote.filter fun q =>
          q.quoteUid ∉ t.quoteCandidates cutoff lineages)) := by
  have hfree : ∀ q ∈ t.market.marketQuote.filter fun q =>
      q.quoteUid ∈ t.quoteCandidates cutoff lineages, q.quoteUid ∉ t.quoteReferences := by
    intro q hq
    obtain ⟨hq, hmem⟩ := List.mem_filter.mp hq
    have hcandidate := (mem_quoteCandidates_of_mem hkeys hq).mp (of_decide_eq_true hmem)
    rw [hcandidate.mem_quoteReferences hq]
    exact hdetails q hq hcandidate
  rw [deleteQuotes, run_bind_of_ok (run_get t)]
  dsimp only
  rw [run_bind_of_ok ((run_require_eq_ok (u := ())).mpr ⟨hfree, rfl⟩)]
  have hlength : (t.market.marketQuote.filter fun q =>
      q.quoteUid ∈ t.quoteCandidates cutoff lineages).length =
        (t.quoteCandidates cutoff lineages).length := by
    simp only [RetentionTables.quoteCandidates, List.mem_insertionSort]
    exact length_filter_mem hkeys.quotes
  rw [hlength]
  rfl

/-- A candidate with details makes the deletion fail. -/
theorem run_deleteQuotes_of_not {q : MarketQuote} (hq : q ∈ t.market.marketQuote)
    (hcandidate : t.QuoteCandidate cutoff lineages q)
    (hdetails : q.quoteUid ∈ t.market.tdxQuoteDetail.map TdxQuoteDetailRow.quoteUid) :
    (deleteQuotes (t.quoteCandidates cutoff lineages)).run t = .error integrityError t := by
  rw [deleteQuotes, run_bind_of_ok (run_get t)]
  dsimp only
  refine run_bind_of_error (run_require_eq_error.mpr ⟨fun hfree => ?_, rfl, rfl⟩)
  refine hfree q (List.mem_filter.mpr ⟨hq, decide_eq_true ?_⟩)
    ((hcandidate.mem_quoteReferences hq).mpr hdetails)
  exact (mem_quoteCandidates_of_mem hkeys hq).mpr hcandidate

omit hkeys in
/-- Once the leases of the candidates that have run out are deleted, the references to a
candidate are those that are not checked for. -/
theorem mem_artifactReferences {t₁ : RetentionTables} {a : ArtifactObject}
    (hcandidate : t.ArtifactCandidate cutoff now a)
    (hmem : a.sha256 ∈ t.artifactCandidates cutoff now)
    (hguarded : t₁.guardedReferences = t.guardedReferences)
    (hunguarded : t₁.unguardedReferences = t.unguardedReferences)
    (hleases : t₁.artifactLease = t.artifactLease.filter fun l =>
      ¬(l.sha256 ∈ t.artifactCandidates cutoff now ∧ julianday l.validUntil ≤ julianday now)) :
    a.sha256 ∈ t₁.artifactReferences ↔ a.sha256 ∈ t.unguardedReferences := by
  rw [RetentionTables.artifactReferences, List.mem_append, List.mem_append, hguarded, hunguarded,
    or_iff_left, or_iff_right hcandidate.unreferenced]
  rintro hlease
  rw [hleases] at hlease
  obtain ⟨l, hl, heq⟩ := List.mem_map.mp hlease
  obtain ⟨hl, hstands⟩ := List.mem_filter.mp hl
  have hstands := of_decide_eq_true hstands
  refine hcandidate.unleased ⟨l, hl, heq, Nat.lt_of_not_le fun hle => hstands ⟨heq ▸ hmem, hle⟩⟩

end

theorem run_insertAudit {row : AuditRecord}
    (h : ∀ r ∈ t.durable.analysis.auditRecord, r.auditUid ≠ row.auditUid) :
    (insertAudit row).run t = .ok () { t with durable := { t.durable with
      analysis := { t.durable.analysis with
        auditRecord := t.durable.analysis.auditRecord ++ [row] } } } := by
  have hfree : (t.durable.analysis.auditRecord.all fun r => r.auditUid ≠ row.auditUid) = true :=
    List.all_eq_true.mpr fun r hr => decide_eq_true (h r hr)
  rw [insertAudit, run_bind_of_ok (run_get t),
    run_bind_of_ok ((run_require_eq_ok (u := ())).mpr ⟨hfree, rfl⟩)]
  rfl

/-- The candidates of the tables are those of a plan. -/
structure PlannedFor (plan : RetentionPlan) (now : Instant) (t : RetentionTables) : Prop where
  catalog : t.manifestCatalogHash = plan.manifestCatalogHash
  quotes : t.quoteCandidates plan.cutoff plan.protectedManifestLineages = plan.quoteUids
  artifacts : t.artifactCandidates plan.cutoff now = plan.artifactSha256s
  hash : retentionHash plan.cutoff plan.quoteUids plan.artifactSha256s
    plan.manifestCatalogHash = plan.candidateHash

/-- No planned row has a reference that the candidates are not checked for. -/
structure PlanDeletable (plan : RetentionPlan) (now : Instant) (t : RetentionTables) : Prop where
  quotes : ∀ q ∈ t.market.marketQuote,
    t.QuoteCandidate plan.cutoff plan.protectedManifestLineages q →
      q.quoteUid ∉ t.market.tdxQuoteDetail.map TdxQuoteDetailRow.quoteUid
  artifacts : ∀ a ∈ t.artifactObject, t.ArtifactCandidate plan.cutoff now a →
    a.sha256 ∉ t.unguardedReferences

section

variable (hkeys : RetentionKeys t) (hplan : PlannedFor plan now t)
  (haudit : ∀ r ∈ t.durable.analysis.auditRecord, r.auditUid ≠ auditUid)

/-- The tables without the planned quotes and the leases of planned artifacts that have run
out. -/
def prunedTables (plan : RetentionPlan) (now : Instant) (t : RetentionTables) : RetentionTables :=
  (t.setQuotes (t.market.marketQuote.filter fun q => q.quoteUid ∉ plan.quoteUids)).setArtifacts
    { t.durable.artifacts with artifactLease := t.artifactLease.filter fun l =>
        ¬(l.sha256 ∈ plan.artifactSha256s ∧ julianday l.validUntil ≤ julianday now) }

include hkeys hplan

omit hkeys in
/-- The first checks of the transaction pass. -/
theorem run_deleteMetadata_eq : (deleteMetadata plan auditUid now).run t = ((do
    let quoteDeleted ← deleteQuotes plan.quoteUids
    deleteExpiredLeases plan.artifactSha256s now
    let artifactDeleted ← deleteArtifacts plan.artifactSha256s
    require (quoteDeleted = plan.quoteUids.length ∧ artifactDeleted = plan.artifactSha256s.length)
      (retentionError "retention delete count did not match the fenced plan")
    insertAudit (retentionAudit auditUid plan now)
    return quoteDeleted : TablesCommand ℕ)).run t := by
  rw [deleteMetadata, run_bind_of_ok (run_get t),
    run_bind_of_ok ((run_require_eq_ok (u := ())).mpr ⟨hplan.catalog, rfl⟩)]
  dsimp only
  rw [hplan.quotes, hplan.artifacts, hplan.catalog,
    run_bind_of_ok ((run_require_eq_ok (u := ())).mpr ⟨⟨rfl, rfl⟩, rfl⟩),
    run_bind_of_ok ((run_require_eq_ok (u := ())).mpr ⟨hplan.hash, rfl⟩)]

/-- Once the quotes and the leases are deleted, the candidates among the artifacts are deleted
when nothing else refers to one. -/
theorem run_deleteArtifacts (t₁ : RetentionTables)
    (hobjects : t₁.artifactObject = t.artifactObject)
    (hguarded : t₁.guardedReferences = t.guardedReferences)
    (hunguarded : t₁.unguardedReferences = t.unguardedReferences)
    (hleases : t₁.artifactLease = t.artifactLease.filter fun l =>
      ¬(l.sha256 ∈ plan.artifactSha256s ∧ julianday l.validUntil ≤ julianday now)) :
    ((∀ a ∈ t.artifactObject, t.ArtifactCandidate plan.cutoff now a →
        a.sha256 ∉ t.unguardedReferences) →
      (deleteArtifacts plan.artifactSha256s).run t₁ = .ok plan.artifactSha256s.length
        (t₁.setArtifacts { t₁.durable.artifacts with
          artifactObject := t.artifactObject.filter fun a =>
            a.sha256 ∉ plan.artifactSha256s })) ∧
    (¬(∀ a ∈ t.artifactObject, t.ArtifactCandidate plan.cutoff now a →
        a.sha256 ∉ t.unguardedReferences) →
      (deleteArtifacts plan.artifactSha256s).run t₁ = .error integrityError t₁) := by
  have hreferences : ∀ a ∈ t.artifactObject, a.sha256 ∈ plan.artifactSha256s →
      (a.sha256 ∈ t₁.artifactReferences ↔ a.sha256 ∈ t.unguardedReferences) := by
    intro a ha hmem
    rw [← hplan.artifacts] at hmem hleases
    exact mem_artifactReferences ((mem_artifactCandidates_of_mem hkeys ha).mp hmem) hmem hguarded
      hunguarded hleases
  have hcandidate : ∀ a ∈ t.artifactObject,
      (a.sha256 ∈ plan.artifactSha256s ↔ t.ArtifactCandidate plan.cutoff now a) := by
    intro a ha
    rw [← hplan.artifacts]
    exact mem_artifactCandidates_of_mem hkeys ha
  constructor
  · intro hfree
    have hrequire : ∀ a ∈ t₁.artifactObject.filter fun a => a.sha256 ∈ plan.artifactSha256s,
        a.sha256 ∉ t₁.artifactReferences := by
      intro a ha
      rw [hobjects] at ha
      obtain ⟨ha, hmem⟩ := List.mem_filter.mp ha
      have hmem := of_decide_eq_true hmem
      rw [hreferences a ha hmem]
      exact hfree a ha ((hcandidate a ha).mp hmem)
    have hlength : (t₁.artifactObject.filter fun a => a.sha256 ∈ plan.artifactSha256s).length =
        plan.artifactSha256s.length := by
      rw [hobjects, ← hplan.artifacts]
      simp only [RetentionTables.artifactCandidates, List.mem_insertionSort]
      exact length_filter_mem hkeys.artifacts
    rw [deleteArtifacts, run_bind_of_ok (run_get t₁)]
    dsimp only
    rw [run_bind_of_ok ((run_require_eq_ok (u := ())).mpr ⟨hrequire, rfl⟩), hlength, hobjects]
    rfl
  · intro hnot
    rw [deleteArtifacts, run_bind_of_ok (run_get t₁)]
    dsimp only
    refine run_bind_of_error (run_require_eq_error.mpr ⟨fun hfree => hnot fun a ha hold => ?_,
      rfl, rfl⟩)
    have hmem := (hcandidate a ha).mpr hold
    rw [← hreferences a ha hmem]
    exact hfree a (List.mem_filter.mpr ⟨hobjects ▸ ha, decide_eq_true hmem⟩)

include haudit in
/-- The rows of a plan are deleted when nothing refers to them. -/
theorem run_deleteMetadata (hdeletable : PlanDeletable plan now t) :
    (deleteMetadata plan auditUid now).run t =
      .ok plan.quoteUids.length (removedTables plan auditUid now t) := by
  have hquotes := run_deleteQuotes hkeys hdeletable.quotes
  rw [hplan.quotes] at hquotes
  have hartifacts := (run_deleteArtifacts hkeys hplan (prunedTables plan now t) rfl rfl rfl rfl).1
    hdeletable.artifacts
  have hleases : ∀ t₁ : RetentionTables, (deleteExpiredLeases plan.artifactSha256s now).run t₁ =
      .ok () _ := fun _ => rfl
  rw [run_deleteMetadata_eq hplan, run_bind_of_ok hquotes, run_bind_of_ok (hleases _)]
  refine (run_bind_of_ok hartifacts).trans ?_
  rw [run_bind_of_ok ((run_require_eq_ok (u := ())).mpr ⟨⟨rfl, rfl⟩, rfl⟩)]
  exact run_bind_of_ok (run_insertAudit haudit)

omit haudit in
/-- A planned row with another reference makes the transaction fail. -/
theorem run_deleteMetadata_of_not (auditUid : Uid) (hnot : ¬PlanDeletable plan now t) :
    ∃ e t', (deleteMetadata plan auditUid now).run t = .error e t' := by
  rw [run_deleteMetadata_eq hplan]
  by_cases hdetails : ∀ q ∈ t.market.marketQuote,
      t.QuoteCandidate plan.cutoff plan.protectedManifestLineages q →
        q.quoteUid ∉ t.market.tdxQuoteDetail.map TdxQuoteDetailRow.quoteUid
  · have hquotes := run_deleteQuotes hkeys hdetails
    rw [hplan.quotes] at hquotes
    have hartifacts := (run_deleteArtifacts hkeys hplan (prunedTables plan now t) rfl rfl rfl
      rfl).2 fun hfree => hnot ⟨hdetails, hfree⟩
    refine ⟨integrityError, prunedTables plan now t, ?_⟩
    rw [run_bind_of_ok hquotes]
    have hleases : (deleteExpiredLeases plan.artifactSha256s now).run (t.setQuotes
        (t.market.marketQuote.filter fun q => q.quoteUid ∉ plan.quoteUids)) =
          .ok () (prunedTables plan now t) := rfl
    rw [run_bind_of_ok hleases]
    exact run_bind_of_error hartifacts
  · simp only [not_forall, not_not] at hdetails
    obtain ⟨q, hq, hcandidate, hmem⟩ := hdetails
    have hquotes := run_deleteQuotes_of_not hkeys hq hcandidate hmem
    rw [hplan.quotes] at hquotes
    exact ⟨_, _, run_bind_of_error hquotes⟩

end

/-! ## The removal of the files -/

theorem pathFor_of_isDigest {digest : String} (h : Sha256.IsDigest digest) :
    ∃ path, pathFor digest = .ok path := by
  rw [pathFor, if_pos h]
  exact ⟨_, rfl⟩

/-- The files of digests that nothing refers to are removed. -/
theorem run_removeFiles (now : Instant) {digests : List String}
    (hrows : ∀ d ∈ digests, ∀ a ∈ s.tables.artifactObject, a.sha256 ≠ d)
    (hguarded : ∀ d ∈ digests, d ∉ s.tables.guardedReferences)
    (hleases : ∀ d ∈ digests, ∀ l ∈ s.tables.artifactLease, l.sha256 ≠ d)
    (hdigest : ∀ d ∈ digests, Sha256.IsDigest d) :
    (removeFiles now digests).run s = .ok digests.length
      { s with files := fun d => if d ∈ digests then none else s.files d } := by
  induction digests generalizing s with
  | nil => simp [removeFiles]
  | cons digest digests ih =>
    have hmem : digest ∈ digest :: digests := List.mem_cons_self
    have hfree : ¬(s.tables.artifactObject.any (fun a => a.sha256 = digest) ∨
        digest ∈ s.tables.rawArtifact.map RawArtifact.rawArtifactSha256 ∨
        digest ∈ s.tables.inputManifest.map InputManifest.artifactSha256 ∨
        s.tables.artifactLease.any (fun l => l.sha256 = digest ∧ now < l.validUntil)) := by
      rintro (hrow | hraw | hmanifest | hlease)
      · obtain ⟨a, ha, heq⟩ := List.any_eq_true.mp hrow
        exact hrows digest hmem a ha (of_decide_eq_true heq)
      · exact hguarded digest hmem (List.mem_append_left _ (List.mem_append_left _
          (List.mem_append_left _ hraw)))
      · exact hguarded digest hmem (List.mem_append_left _ (List.mem_append_left _
          (List.mem_append_right _ hmanifest)))
      · obtain ⟨l, hl, heq⟩ := List.any_eq_true.mp hlease
        exact hleases digest hmem l hl (of_decide_eq_true heq).1
    obtain ⟨path, hpath⟩ := pathFor_of_isDigest (hdigest digest hmem)
    have hrest := ih (s := { s with files := fun d => if d = digest then none else s.files d })
      (fun d hd => hrows d (List.mem_cons_of_mem _ hd))
      (fun d hd => hguarded d (List.mem_cons_of_mem _ hd))
      (fun d hd => hleases d (List.mem_cons_of_mem _ hd))
      (fun d hd => hdigest d (List.mem_cons_of_mem _ hd))
    rw [removeFiles, run_bind_of_ok (run_get s), if_neg hfree,
      run_bind_of_ok (run_fromExcept_eq_ok.mpr ⟨hpath, rfl⟩)]
    refine (run_bind_of_ok (run_set_eq_ok (u := ⟨⟩).mpr rfl)).trans
      ((run_bind_of_ok hrest).trans ?_)
    have hfiles : (fun d => if d ∈ digests then none else
        if d = digest then none else s.files d) =
          fun d => if d ∈ digest :: digests then none else s.files d := by
      funext d
      by_cases hd : d = digest
      · simp [hd]
      · simp [hd]
    rw [hfiles]
    rfl

/-! ## The plan after a plan -/

/-- What is related element by element is related by what follows at the elements. -/
theorem forall₂_imp_mem {α β : Type} {R R' : α → β → Prop} {xs : List α} {ys : List β}
    (h : List.Forall₂ R xs ys) (himp : ∀ x ∈ xs, ∀ y ∈ ys, R x y → R' x y) :
    List.Forall₂ R' xs ys := by
  induction h with
  | nil => exact List.Forall₂.nil
  | cons hxy _ ih =>
    refine List.Forall₂.cons (himp _ List.mem_cons_self _ List.mem_cons_self hxy)
      (ih fun x hx y hy => ?_)
    exact himp x (List.mem_cons_of_mem _ hx) y (List.mem_cons_of_mem _ hy)

/-- The lineages are those of every manifest. -/
theorem manifestLineages_eq_ok : s.manifestLineages = .ok lineages ↔ ∃ lists,
    List.Forall₂ (fun row list => (do
      s.tables.validateManifestQuotes (← readManifest s.files row) row.asOfTime) = .ok list)
      s.tables.manifestRows lists ∧ lists.flatten = lineages := by
  unfold Storage.manifestLineages
  constructor
  · intro h
    cases hlists : s.tables.manifestRows.mapM fun row => do
        s.tables.validateManifestQuotes (← readManifest s.files row) row.asOfTime with
    | error e =>
      rw [hlists] at h
      cases h
    | ok lists =>
      rw [hlists] at h
      exact ⟨lists, mapM_eq_ok_iff.mp hlists, Except.ok.inj h⟩
  · rintro ⟨lists, hlists, rfl⟩
    rw [mapM_eq_ok_iff.mpr hlists]
    rfl

theorem readManifest_congr {files files' : ArtifactFiles} {row : InputManifest}
    (h : files' row.artifactSha256 = files row.artifactSha256) :
    readManifest files' row = readManifest files row := by
  unfold readManifest openVerified
  rw [h]

/-- The quotes of a manifest are kept when their lineages are. -/
theorem validateManifestQuotes_setQuotes {quoteUids : List Uid} {asOf : Instant}
    {list : List Uid} {keep : MarketQuote → Bool}
    (h : t.validateManifestQuotes quoteUids asOf = .ok list)
    (hkeep : ∀ q ∈ t.market.marketQuote, q.lineageUid ∈ list → keep q = true)
    (hrows : t'.market.marketQuote = t.market.marketQuote.filter keep) :
    t'.validateManifestQuotes quoteUids asOf = .ok list := by
  unfold RetentionTables.validateManifestQuotes at h ⊢
  have hlist : (t.market.marketQuote.filter fun q => q.quoteUid ∈ quoteUids).map
      MarketQuote.lineageUid = list := by
    simp only [except_bind_eq_ok] at h
    obtain ⟨_, -, _, -, h⟩ := h
    exact Except.ok.inj h
  have hsame : (t'.market.marketQuote.filter fun q => q.quoteUid ∈ quoteUids) =
      t.market.marketQuote.filter fun q => q.quoteUid ∈ quoteUids := by
    rw [hrows, List.filter_filter]
    refine List.filter_congr fun q hq => ?_
    by_cases hmem : q.quoteUid ∈ quoteUids
    · have hlineage : q.lineageUid ∈ list := hlist ▸
        List.mem_map_of_mem (List.mem_filter.mpr ⟨hq, decide_eq_true hmem⟩)
      simp [hmem, hkeep q hq hlineage]
    · simp [hmem]
  rw [hsame]
  exact h

/-- The quotes, artifacts and leases that are not planned stay. -/
theorem removedTables_candidate {q : MarketQuote} (hkeys : RetentionKeys t)
    (hplan : PlannedFor plan now t)
    (hq : q ∈ (removedTables plan auditUid now t).market.marketQuote)
    (h : (removedTables plan auditUid now t).QuoteCandidate plan.cutoff
      plan.protectedManifestLineages q) : False := by
  obtain ⟨hq, hnot⟩ := List.mem_filter.mp hq
  have hnot := of_decide_eq_true hnot
  -- No other quote of the lineage was removed : it would have been the only one.
  have hsame : ∀ x ∈ t.market.marketQuote, x.lineageUid = q.lineageUid →
      x.quoteUid ∉ plan.quoteUids := by
    intro x hx hlineage hmem
    rw [← hplan.quotes] at hmem
    have hcandidate := (mem_quoteCandidates_of_mem hkeys hx).mp hmem
    obtain ⟨y, hy⟩ := List.length_eq_one_iff.mp hcandidate.expired.1
    have hxy : x ∈ [y] := hy ▸ List.mem_filter.mpr ⟨hx, decide_eq_true rfl⟩
    have hqy : q ∈ [y] := hy ▸ List.mem_filter.mpr ⟨hq, decide_eq_true hlineage.symm⟩
    rw [List.mem_singleton] at hxy hqy
    exact hnot (hplan.quotes ▸ hqy ▸ hxy ▸ hmem)
  have hrows : ((removedTables plan auditUid now t).market.marketQuote.filter fun x =>
      x.lineageUid = q.lineageUid) =
        t.market.marketQuote.filter fun x => x.lineageUid = q.lineageUid := by
    change (t.market.marketQuote.filter _).filter _ = _
    rw [List.filter_filter]
    refine List.filter_congr fun x hx => ?_
    by_cases hlineage : x.lineageUid = q.lineageUid
    · simp [hlineage, hsame x hx hlineage]
    · simp [hlineage]
  have hin : ∀ uids, t.LineageIn uids q.lineageUid →
      (removedTables plan auditUid now t).LineageIn uids q.lineageUid := by
    rintro uids ⟨x, hx, hlineage, hmem⟩
    exact ⟨x, List.mem_filter.mpr ⟨hx, decide_eq_true (hsame x hx hlineage)⟩, hlineage, hmem⟩
  refine hnot (hplan.quotes ▸ (mem_quoteCandidates_of_mem hkeys hq).mpr ⟨?_,
    fun hmem => h.issues (hin _ hmem), fun hmem => h.evidence (hin _ hmem), h.manifests⟩)
  have hexpired := h.expired
  unfold RetentionTables.Expired at hexpired ⊢
  rwa [hrows] at hexpired

/-- An artifact that is not planned is a candidate as it was. -/
theorem removedTables_artifactCandidate {a : ArtifactObject} {later : Instant}
    (hnot : a.sha256 ∉ plan.artifactSha256s) :
    (removedTables plan auditUid now t).ArtifactCandidate cutoff later a ↔
      t.ArtifactCandidate cutoff later a := by
  constructor
  · rintro ⟨hold, hunreferenced, hunleased⟩
    refine ⟨hold, hunreferenced, ?_⟩
    rintro ⟨l, hl, heq, hactive⟩
    exact hunleased ⟨l, List.mem_filter.mpr ⟨hl, decide_eq_true fun hremoved =>
      hnot (heq ▸ hremoved.1)⟩, heq, hactive⟩
  · rintro ⟨hold, hunreferenced, hunleased⟩
    refine ⟨hold, hunreferenced, ?_⟩
    rintro ⟨l, hl, heq, hactive⟩
    exact hunleased ⟨l, List.mem_of_mem_filter hl, heq, hactive⟩

/-- The manifests are read after a plan as before : their artifacts and quotes are kept. -/
theorem manifestLineages_removePlanned (hkeys : RetentionKeys s.tables)
    (hplan : PlannedFor plan now s.tables)
    (hprotected : ∀ l ∈ lineages, l ∈ plan.protectedManifestLineages)
    (h : s.manifestLineages = .ok lineages) :
    (removePlanned plan auditUid now s).manifestLineages = .ok lineages := by
  obtain ⟨lists, hlists, rfl⟩ := manifestLineages_eq_ok.mp h
  refine manifestLineages_eq_ok.mpr ⟨lists, ?_, rfl⟩
  refine forall₂_imp_mem hlists fun row hrow list hlist hread => ?_
  have hartifact : row.artifactSha256 ∉ plan.artifactSha256s := by
    rw [← hplan.artifacts]
    intro hmem
    obtain ⟨a, -, hcandidate, heq⟩ := mem_artifactCandidates.mp hmem
    refine hcandidate.unreferenced (heq ▸ ?_)
    exact List.mem_append_left _ (List.mem_append_left _ (List.mem_append_right _
      (List.mem_map_of_mem ((List.mem_insertionSort _).mp hrow))))
  rw [readManifest_congr (show (removePlanned plan auditUid now s).files _ = s.files _ from
    if_neg hartifact)]
  obtain ⟨quoteUids, hquotes, hvalid⟩ := except_bind_eq_ok.mp hread
  refine except_bind_eq_ok.mpr ⟨quoteUids, hquotes, ?_⟩
  refine validateManifestQuotes_setQuotes hvalid (fun q hq hlineage => ?_) rfl
  refine decide_eq_true fun hmem => ?_
  rw [← hplan.quotes] at hmem
  exact ((mem_quoteCandidates_of_mem hkeys hq).mp hmem).manifests
    (hprotected _ (List.mem_flatten.mpr ⟨list, hlist, hlineage⟩))

/-! ## Applying a plan -/

theorem planRetention_eq_ok : planRetention s cutoff now = .ok plan ↔
    cutoff < now ∧ ∃ lineages, s.manifestLineages = .ok lineages ∧
      s.tables.planOf cutoff now lineages = plan := by
  simp only [planRetention, except_bind_eq_ok, check_eq_ok, exists_const]
  refine and_congr_right fun _ => exists_congr fun lineages => and_congr_right fun _ => ?_
  exact ⟨Except.ok.inj, congrArg _⟩

/-- A plan protects the lineages of the manifests. -/
theorem mem_planOf_protected {l : Uid} :
    l ∈ (t.planOf cutoff now lineages).protectedManifestLineages ↔ l ∈ lineages := by
  simp [RetentionTables.planOf]

theorem quoteCandidates_planOf : t.quoteCandidates cutoff
    (t.planOf cutoff now lineages).protectedManifestLineages =
      t.quoteCandidates cutoff lineages :=
  quoteCandidates_congr fun _ => mem_planOf_protected

/-- Plans of the same tables are the same when their artifacts are. -/
theorem sameRetentionCandidates_iff {later : Instant} :
    SameRetentionCandidates (t.planOf cutoff now lineages) (t.planOf cutoff later lineages) ↔
      t.artifactCandidates cutoff now = t.artifactCandidates cutoff later := by
  constructor
  · exact fun h => h.2.1
  · intro h
    refine ⟨rfl, h, ?_, ?_, rfl, rfl, rfl⟩
    · simp only [RetentionTables.planOf, h]
    · simp only [RetentionTables.planOf, h]

/-- The plan of tables is one for them as long as no artifact becomes a candidate. -/
theorem plannedFor_planOf {later : Instant}
    (h : t.artifactCandidates cutoff later = t.artifactCandidates cutoff now) :
    PlannedFor (t.planOf cutoff now lineages) later t where
  catalog := rfl
  quotes := quoteCandidates_planOf
  artifacts := h
  hash := rfl

/-- A plan is deleted when the candidates can be. -/
theorem planDeletable_planOf (hlineages : s.manifestLineages = .ok lineages) {later : Instant}
    (h : ∀ a ∈ s.tables.artifactObject, s.tables.ArtifactCandidate cutoff later a ↔
      s.tables.ArtifactCandidate cutoff now a) :
    PlanDeletable (s.tables.planOf cutoff now lineages) later s.tables ↔
      Deletable cutoff now s := by
  have hquote : ∀ q, s.tables.QuoteCandidate cutoff
      (s.tables.planOf cutoff now lineages).protectedManifestLineages q ↔
        s.tables.QuoteCandidate cutoff lineages q := by
    intro q
    have hmem : q.lineageUid ∈
        (s.tables.planOf cutoff now lineages).protectedManifestLineages ↔
          q.lineageUid ∈ lineages := mem_planOf_protected
    exact ⟨fun hq => ⟨hq.expired, hq.issues, hq.evidence, fun hl => hq.manifests (hmem.mpr hl)⟩,
      fun hq => ⟨hq.expired, hq.issues, hq.evidence, fun hl => hq.manifests (hmem.mp hl)⟩⟩
  constructor
  · rintro ⟨hquotes, hartifacts⟩
    refine ⟨fun lineages' hlineages' q hq hcandidate => ?_, fun a ha hcandidate => ?_⟩
    · obtain rfl : lineages = lineages' := Except.ok.inj (hlineages.symm.trans hlineages')
      exact hquotes q hq ((hquote q).mpr hcandidate)
    · exact hartifacts a ha ((h a ha).mpr hcandidate)
  · rintro ⟨hquotes, hartifacts⟩
    refine ⟨fun q hq hcandidate => ?_, fun a ha hcandidate => ?_⟩
    · exact hquotes lineages hlineages q hq ((hquote q).mp hcandidate)
    · exact hartifacts a ha ((h a ha).mp hcandidate)

/-- A plan of lineages is applied by its two transactions. -/
theorem run_applyRetention_eq {lineages : List Uid} (hlineages : s.manifestLineages = .ok lineages)
    (happly : cutoff < applyAt) (hsame : s.tables.artifactCandidates cutoff now =
      s.tables.artifactCandidates cutoff applyAt)
    (hplan : s.tables.planOf cutoff now lineages = plan) :
    (applyRetention plan auditUid applyAt).run s = ((do
      let quoteDeleted ← tablesTransaction "retention database apply failed"
        (deleteMetadata plan auditUid applyAt)
      let artifactDeleted ← filesTransaction
        "retention metadata was applied but artifact cleanup is incomplete"
        (removeFiles applyAt plan.artifactSha256s)
      return ⟨quoteDeleted, artifactDeleted, plan.candidateHash⟩ :
        StorageCommand RetentionResult)).run s := by
  have hrefreshed : planRetention s plan.cutoff applyAt =
      .ok (s.tables.planOf cutoff applyAt lineages) := by
    subst hplan
    exact planRetention_eq_ok.mpr ⟨happly, lineages, hlineages, rfl⟩
  rw [applyRetention, run_bind_of_ok (run_get s),
    run_bind_of_ok (run_fromExcept_eq_ok.mpr ⟨hrefreshed, rfl⟩)]
  exact run_bind_of_ok ((run_require_eq_ok (u := ())).mpr
    ⟨hplan ▸ sameRetentionCandidates_iff.mpr hsame, rfl⟩)

theorem run_tablesTransaction_of_ok {α : Type} {message : String} {command : TablesCommand α}
    {a : α} {t' : RetentionTables} (h : command.run s.tables = .ok a t') :
    (tablesTransaction message command).run s = .ok a { s with tables := t' } := by
  have hrun : (atomically command).run s.tables = _ := run_atomically_eq_ok.mpr h
  show tablesTransaction message command s = _
  rw [tablesTransaction, hrun]

theorem run_tablesTransaction_of_error {α : Type} {message : String} {command : TablesCommand α}
    {e : Exn} {t' : RetentionTables} (h : command.run s.tables = .error e t') :
    (tablesTransaction message command).run s = .error (retentionFailure message e) s := by
  have hrun : (atomically command).run s.tables = _ := run_atomically_of_error h
  show tablesTransaction message command s = _
  rw [tablesTransaction, hrun]

section

variable (hkeys : RetentionKeys s.tables)
  (haudit : ∀ r ∈ s.tables.durable.analysis.auditRecord, r.auditUid ≠ auditUid)
  (hplan : s.tables.planOf cutoff planAt lineages = plan)

include hkeys hplan

include haudit in
/-- The rows and the files of a plan are removed when its rows can be deleted. -/
theorem run_applyRetention (hlineages : s.manifestLineages = .ok lineages)
    (happly : cutoff < applyAt) (hstand : ∀ a ∈ s.tables.artifactObject,
      s.tables.ArtifactCandidate cutoff applyAt a ↔ s.tables.ArtifactCandidate cutoff planAt a)
    (hdeletable : Deletable cutoff planAt s) :
    (applyRetention plan auditUid applyAt).run s =
      .ok ⟨plan.quoteUids.length, plan.artifactSha256s.length, plan.candidateHash⟩
        (removePlanned plan auditUid applyAt s) := by
  have hsame := artifactCandidates_congr hstand
  have hplanned : PlannedFor plan applyAt s.tables := hplan ▸ plannedFor_planOf hsame
  have hmetadata := run_deleteMetadata hkeys hplanned haudit
    (hplan ▸ (planDeletable_planOf hlineages hstand).mpr hdeletable)
  have hcandidates : ∀ d ∈ plan.artifactSha256s, ∃ a ∈ s.tables.artifactObject,
      s.tables.ArtifactCandidate plan.cutoff applyAt a ∧ a.sha256 = d := by
    intro d hd
    rw [← hplanned.artifacts] at hd
    exact mem_artifactCandidates.mp hd
  rw [run_applyRetention_eq hlineages happly hsame.symm hplan,
    run_bind_of_ok (run_tablesTransaction_of_ok hmetadata)]
  have hfiles := run_removeFiles
    (s := { s with tables := removedTables plan auditUid applyAt s.tables }) applyAt
    (fun d (hd : d ∈ plan.artifactSha256s) a ha heq => by
      obtain ⟨-, hnot⟩ := List.mem_filter.mp ha
      exact of_decide_eq_true hnot (heq ▸ hd))
    (fun d hd hreferenced => by
      obtain ⟨a, -, hcandidate, rfl⟩ := hcandidates d hd
      exact hcandidate.unreferenced hreferenced)
    (fun d hd l hl heq => by
      -- A lease that is left is active, and no lease of a candidate is.
      obtain ⟨a, -, hcandidate, rfl⟩ := hcandidates d hd
      obtain ⟨hl, hstands⟩ := List.mem_filter.mp hl
      refine hcandidate.unleased ⟨l, hl, heq, Nat.lt_of_not_le fun hle => ?_⟩
      exact of_decide_eq_true hstands ⟨heq ▸ hd, hle⟩)
    (fun d hd => by
      obtain ⟨a, ha, -, rfl⟩ := hcandidates d hd
      exact hkeys.digest a ha)
  have hremoved : (filesTransaction
      "retention metadata was applied but artifact cleanup is incomplete"
      (removeFiles applyAt plan.artifactSha256s)).run
        { s with tables := removedTables plan auditUid applyAt s.tables } =
      .ok plan.artifactSha256s.length (removePlanned plan auditUid applyAt s) := by
    show filesTransaction _ _ _ = _
    rw [filesTransaction, hfiles]
    rfl
  exact run_bind_of_ok hremoved

/-- After a plan that was applied, no quote is planned, and of the artifacts those that have
become candidates since. -/
theorem planRetention_removePlanned (auditUid : Uid) (hlineages : s.manifestLineages = .ok lineages)
    (hnext : cutoff < nextAt) (hsame : s.tables.artifactCandidates cutoff applyAt =
      s.tables.artifactCandidates cutoff planAt) :
    ∃ next, planRetention (removePlanned plan auditUid applyAt s) cutoff nextAt = .ok next ∧
      next.quoteUids = [] ∧ (next.artifactSha256s = [] ↔
        LeasesStand cutoff planAt nextAt s.tables) := by
  have hplanned : PlannedFor plan applyAt s.tables := hplan ▸ plannedFor_planOf hsame
  have hcutoff : plan.cutoff = cutoff := hplan ▸ rfl
  have hlineages' : (removePlanned plan auditUid applyAt s).manifestLineages = .ok lineages :=
    manifestLineages_removePlanned hkeys hplanned
      (fun l hl => hplan ▸ mem_planOf_protected.mpr hl) hlineages
  refine ⟨_, planRetention_eq_ok.mpr ⟨hnext, lineages, hlineages', rfl⟩, ?_, ?_⟩
  · refine List.eq_nil_iff_forall_not_mem.mpr fun uid huid => ?_
    obtain ⟨q, hq, hcandidate, -⟩ := mem_quoteCandidates.mp huid
    refine removedTables_candidate hkeys hplanned hq ?_
    rw [hcutoff]
    exact ⟨hcandidate.expired, hcandidate.issues, hcandidate.evidence, fun hl =>
      hcandidate.manifests (mem_planOf_protected.mp (hplan ▸ hl))⟩
  · have hmem : ∀ a ∈ s.tables.artifactObject, a.sha256 ∈ plan.artifactSha256s ↔
        s.tables.ArtifactCandidate cutoff planAt a := by
      intro a ha
      rw [← hplan]
      exact mem_artifactCandidates_of_mem hkeys ha
    constructor
    · intro hempty a ha hcandidate
      by_contra hnot
      have hkept : a.sha256 ∉ plan.artifactSha256s := fun h => hnot ((hmem a ha).mp h)
      refine List.eq_nil_iff_forall_not_mem.mp hempty a.sha256
        (mem_artifactCandidates.mpr ⟨a, ?_, ?_, rfl⟩)
      · exact List.mem_filter.mpr ⟨ha, decide_eq_true hkept⟩
      · exact (removedTables_artifactCandidate hkept).mpr hcandidate
    · intro hstand
      refine List.eq_nil_iff_forall_not_mem.mpr fun sha hsha => ?_
      obtain ⟨a, ha, hcandidate, -⟩ := mem_artifactCandidates.mp hsha
      obtain ⟨ha, hkept⟩ := List.mem_filter.mp ha
      have hkept := of_decide_eq_true hkept
      exact hkept ((hmem a ha).mpr (hstand a ha
        ((removedTables_artifactCandidate hkept).mp hcandidate)))

/-- A plan that is applied has the candidates of the instant it is applied at, and they can be
deleted. -/
theorem deletable_of_run_applyRetention {result : RetentionResult} {s' : Storage}
    (hlineages : s.manifestLineages = .ok lineages)
    (h : (applyRetention plan auditUid applyAt).run s = .ok result s') :
    s.tables.artifactCandidates cutoff applyAt = s.tables.artifactCandidates cutoff planAt ∧
      Deletable cutoff planAt s := by
  obtain ⟨happly, hsame⟩ : cutoff < applyAt ∧ s.tables.artifactCandidates cutoff applyAt =
      s.tables.artifactCandidates cutoff planAt := by
    subst hplan
    rw [applyRetention, run_bind_of_ok (run_get s)] at h
    obtain ⟨refreshed, s₁, hrefreshed, h⟩ := run_bind_eq_ok.mp h
    obtain ⟨hrefreshed, -⟩ := run_fromExcept_eq_ok.mp hrefreshed
    obtain ⟨_, s₂, hrequire, -⟩ := run_bind_eq_ok.mp h
    obtain ⟨happly, lineages', -, rfl⟩ := planRetention_eq_ok.mp hrefreshed
    exact ⟨happly, (run_require_eq_ok.mp hrequire).1.2.1.symm⟩
  have hstand : ∀ a ∈ s.tables.artifactObject, s.tables.ArtifactCandidate cutoff applyAt a ↔
      s.tables.ArtifactCandidate cutoff planAt a := by
    intro a ha
    rw [← mem_artifactCandidates_of_mem hkeys ha, hsame, mem_artifactCandidates_of_mem hkeys ha]
  refine ⟨hsame, (planDeletable_planOf hlineages hstand).mp (by_contra fun hnot => ?_)⟩
  obtain ⟨e, t', hmetadata⟩ := run_deleteMetadata_of_not hkeys
    (plannedFor_planOf hsame) auditUid hnot
  rw [run_applyRetention_eq hlineages happly hsame.symm hplan, hplan.symm,
    run_bind_of_error (run_tablesTransaction_of_error hmetadata)] at h
  cases h

end

/-- A plan that nothing is written after is applied, and leaves nothing to plan, exactly when
its candidates can be deleted and no lease runs out before the later plan. -/
theorem plan_applied_iff (hkeys : RetentionKeys s.tables)
    (hplan : planRetention s cutoff planAt = .ok plan)
    (haudit : ∀ r ∈ s.tables.durable.analysis.auditRecord, r.auditUid ≠ auditUid)
    (happly : planAt ≤ applyAt) (hnext : applyAt ≤ nextAt) :
    PlanApplied plan auditUid applyAt nextAt s ↔
      Deletable cutoff planAt s ∧ LeasesStand cutoff planAt nextAt s.tables := by
  obtain ⟨hcutoff, lineages, hlineages, hplan⟩ := planRetention_eq_ok.mp hplan
  have hplanCutoff : plan.cutoff = cutoff := hplan ▸ rfl
  constructor
  · rintro ⟨hrun, next, hnextPlan, -, hempty⟩
    obtain ⟨hsame, hdeletable⟩ := deletable_of_run_applyRetention hkeys hplan hlineages hrun
    refine ⟨hdeletable, ?_⟩
    obtain ⟨next', hnextPlan', -, hiff⟩ := planRetention_removePlanned
      hkeys hplan auditUid hlineages ((hcutoff.trans_le happly).trans_le hnext) hsame
    rw [hplanCutoff] at hnextPlan
    obtain rfl : next = next' := Except.ok.inj (hnextPlan.symm.trans hnextPlan')
    exact hiff.mp hempty
  · rintro ⟨hdeletable, hleases⟩
    have hstand : ∀ a ∈ s.tables.artifactObject, s.tables.ArtifactCandidate cutoff applyAt a ↔
        s.tables.ArtifactCandidate cutoff planAt a := fun a ha =>
      ⟨fun h => hleases a ha (h.mono hnext), fun h => h.mono happly⟩
    refine ⟨run_applyRetention hkeys haudit hplan hlineages (hcutoff.trans_le happly) hstand
      hdeletable, ?_⟩
    obtain ⟨next, hnextPlan, hquotes, hiff⟩ := planRetention_removePlanned
      hkeys hplan auditUid hlineages ((hcutoff.trans_le happly).trans_le hnext)
        (artifactCandidates_congr hstand)
    exact ⟨next, hplanCutoff ▸ hnextPlan, hquotes, hiff.mpr hleases⟩

/-! ## Two storages -/

/-- Tables without rows. -/
def emptyTables : RetentionTables where
  market := .empty
  durable := ⟨⟨[], [], [], [], [], [], [], [], []⟩, ⟨[], [], [], [], []⟩, .empty, ⟨[], []⟩, [],
    ⟨0, none⟩⟩
  rawArtifact := []
  factSpecificEvidence := []
  sectorContextMappingVersion := []

/-- The row of an artifact that was registered at an instant. -/
def registeredArtifact (content : List UInt8) (createdAt : Instant) : ArtifactObject where
  sha256 := Sha256.hexdigest content
  sizeBytes := content.length
  mediaType := "application/json"
  relativePath := (pathFor (Sha256.hexdigest content)).toOption.getD ""
  createdAt := createdAt

/-- A storage with market data, and with one artifact that all its batches are from. -/
def plainStorage (market : MarketTables) (content : List UInt8) (createdAt : Instant) :
    Storage where
  tables := { emptyTables.setArtifacts ⟨[registeredArtifact content createdAt], []⟩ with
    market := market
    rawArtifact := market.marketDataBatch.map fun b => ⟨b.batchUid, Sha256.hexdigest content⟩ }
  files d := if d = Sha256.hexdigest content then some content else none

theorem plainStorage_keys {market : MarketTables} {content : List UInt8} {createdAt : Instant}
    (hquotes : (market.marketQuote.map MarketQuote.quoteUid).Nodup) :
    RetentionKeys (plainStorage market content createdAt).tables := by
  refine ⟨hquotes, List.nodup_singleton _, fun a ha => ?_⟩
  rw [List.mem_singleton.mp ha]
  exact Sha256.hexdigest_isDigest content

theorem plainStorage_plan {market : MarketTables} {content : List UInt8} {createdAt : Instant}
    (h : cutoff < now) : planRetention (plainStorage market content createdAt) cutoff now =
      .ok ((plainStorage market content createdAt).tables.planOf cutoff now []) :=
  planRetention_eq_ok.mpr ⟨h, [], rfl, rfl⟩

/-- A file of a download that no batch was made of. -/
def abandonedStorage : Storage := plainStorage .empty (Json.canonicalBytes .null) 0

/-- It is planned and removed. -/
theorem old_artifact_is_removed : ∃ plan,
    planRetention abandonedStorage (minutes 1) (minutes 2) = .ok plan ∧
      PlanApplied plan "audit" (minutes 3) (minutes 4) abandonedStorage := by
  have hkeys : RetentionKeys abandonedStorage.tables := plainStorage_keys List.nodup_nil
  refine ⟨_, plainStorage_plan (by decide), (plan_applied_iff hkeys
    (plainStorage_plan (by decide)) (fun r hr => ?_) (by decide) (by decide)).mpr ⟨⟨?_, ?_⟩, ?_⟩⟩
  · cases hr
  · intro lineages hlineages q hq
    cases hq
  · intro a ha hcandidate hreferenced
    cases hreferenced
  · rintro a ha ⟨hold, hunreferenced, -⟩
    refine ⟨hold, hunreferenced, ?_⟩
    rintro ⟨l, hl, -⟩
    cases hl

/-- A provider that has polled one quote, whose source time is one. -/
def polledTables : MarketTables :=
  ((QuoteCall.poll { clockedProvider with parseRfc3339 := canonicalInstant? }
    (repeatedPoll (minutes 100) 'a')).next "epoch" (.new oneMappingTables)).tables

/-- Its storage, with the records of the poll. -/
def polledStorage : Storage :=
  plainStorage polledTables (Json.canonicalBytes (.obj [("records", .arr [.obj
    [("code", .str "1:600000"), ("price", .str "10")]])])) (minutes 100)

/-- The quote is a candidate, and has details. -/
theorem polledStorage_candidate : ∃ q ∈ polledStorage.tables.market.marketQuote,
    polledStorage.tables.QuoteCandidate (minutes 200) [] q ∧
      q.quoteUid ∈ polledStorage.tables.market.tdxQuoteDetail.map TdxQuoteDetailRow.quoteUid := by
  decide +kernel

theorem quote_details_block_retention : ∃ plan,
    planRetention polledStorage (minutes 200) (minutes 300) = .ok plan ∧
      ¬PlanApplied plan "audit" (minutes 300) (minutes 300) polledStorage := by
  refine ⟨_, plainStorage_plan (by decide), fun happlied => ?_⟩
  obtain ⟨-, hdeletable⟩ := deletable_of_run_applyRetention
    (plainStorage_keys (by decide +kernel)) rfl rfl happlied.1
  obtain ⟨q, hq, hcandidate, hdetails⟩ := polledStorage_candidate
  exact hdeletable.quotes [] rfl q hq hcandidate hdetails

end MarketMonitor
