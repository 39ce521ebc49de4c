import MarketMonitor.Library.JsonText
import MarketMonitor.Persistence.Artifacts
import MarketMonitor.Persistence.MarketSchema

/-!
# Retention

`plan_retention` lists the quotes and the artifacts that nothing needs any more, and
`apply_retention` deletes them : the rows in one transaction, the files in another. A row that
another refers to is not deleted (`ON DELETE RESTRICT`), and the transaction fails.
-/

namespace MarketMonitor

open Json (Value)
open Transaction

/-! ## The storage -/

/-- The column `raw_artifact_sha256` of `market_data_batch`. -/
structure RawArtifact where
  batchUid : Uid
  rawArtifactSha256 : String
  deriving DecidableEq, Repr

/-- `fact_specific_evidence` -/
structure FactSpecificEvidence where
  factUid : Uid
  quoteUid : Uid
  deriving DecidableEq, Repr

/-- `sector_context_mapping_version` -/
structure SectorContextMappingVersion where
  mappingVersionUid : Uid
  sourceArtifactSha256 : String
  deriving DecidableEq, Repr

/-- The tables that retention reads. -/
structure RetentionTables where
  market : MarketTables
  durable : Database
  rawArtifact : List RawArtifact
  factSpecificEvidence : List FactSpecificEvidence
  sectorContextMappingVersion : List SectorContextMappingVersion

/-- The database and the files of the artifact store. -/
structure Storage where
  tables : RetentionTables
  files : ArtifactFiles

abbrev StorageCommand (α : Type) := EStateM Exn Storage α

def retentionError (message : String) : Exn := ⟨.retentionError, message⟩

/-- `julianday(…)` of a text with microseconds : SQLite counts whole milliseconds. -/
def julianday (t : Instant) : ℕ := (t + 500) / 1000

namespace RetentionTables

variable (t : RetentionTables)

def artifactObject : List ArtifactObject := t.durable.artifacts.artifactObject

def artifactLease : List ArtifactLease := t.durable.artifacts.artifactLease

def inputManifest : List InputManifest := t.durable.evidence.inputManifest

/-! ## Candidates -/

/-- The lineages of one quote, which is old. -/
def Expired (cutoff : Instant) (lineageUid : Uid) : Prop :=
  let rows := t.market.marketQuote.filter fun x => x.lineageUid = lineageUid
  rows.length = 1 ∧ (rows.map fun x => julianday x.receivedAt).foldr max 0 < julianday cutoff

instance (cutoff : Instant) (lineageUid : Uid) : Decidable (t.Expired cutoff lineageUid) :=
  inferInstanceAs (Decidable (_ ∧ _))

/-- The quotes of a lineage are in a table. -/
def LineageIn (quoteUids : List Uid) (lineageUid : Uid) : Prop :=
  ∃ x ∈ t.market.marketQuote, x.lineageUid = lineageUid ∧ x.quoteUid ∈ quoteUids

instance (quoteUids : List Uid) (lineageUid : Uid) : Decidable (t.LineageIn quoteUids lineageUid) :=
  inferInstanceAs (Decidable (∃ x ∈ t.market.marketQuote, _ ∧ _))

/-- A quote that retention may delete : the only one of an old lineage, without an issue,
without the evidence of a fact and without a manifest. -/
structure QuoteCandidate (cutoff : Instant) (lineages : List Uid) (q : MarketQuote) : Prop where
  expired : t.Expired cutoff q.lineageUid
  issues : ¬t.LineageIn (t.market.quoteQualityIssue.map QuoteQualityIssue.quoteUid) q.lineageUid
  evidence : ¬t.LineageIn (t.factSpecificEvidence.map FactSpecificEvidence.quoteUid) q.lineageUid
  manifests : q.lineageUid ∉ lineages

instance (cutoff : Instant) (lineages : List Uid) (q : MarketQuote) :
    Decidable (t.QuoteCandidate cutoff lineages q) :=
  decidable_of_iff (t.Expired cutoff q.lineageUid ∧
    ¬t.LineageIn (t.market.quoteQualityIssue.map QuoteQualityIssue.quoteUid) q.lineageUid ∧
    ¬t.LineageIn (t.factSpecificEvidence.map FactSpecificEvidence.quoteUid) q.lineageUid ∧
    q.lineageUid ∉ lineages)
    ⟨fun ⟨h, h', h'', h'''⟩ => ⟨h, h', h'', h'''⟩, fun ⟨h, h', h'', h'''⟩ => ⟨h, h', h'', h'''⟩⟩

/-- `_quote_candidates(connection, cutoff, manifest_lineages)`. -/
def quoteCandidates (cutoff : Instant) (lineages : List Uid) : List Uid :=
  ((t.market.marketQuote.filter fun q => t.QuoteCandidate cutoff lineages q).map
    MarketQuote.quoteUid).insertionSort (· ≤ ·)

/-- The references to artifacts that the candidates are checked for. -/
def guardedReferences : List String :=
  t.rawArtifact.map RawArtifact.rawArtifactSha256 ++
    t.inputManifest.map InputManifest.artifactSha256 ++
    t.durable.thresholds.thresholdValidation.map ThresholdValidation.reportSha256 ++
    (t.durable.thresholds.thresholdActivationEvidence.flatMap fun e =>
      [e.evidenceSha256, e.replayEvidenceSha256])

/-- An artifact has a lease that is active at an instant. -/
def Leased (now : Instant) (sha256 : String) : Prop :=
  ∃ l ∈ t.artifactLease, l.sha256 = sha256 ∧ julianday now < julianday l.validUntil

instance (now : Instant) (sha256 : String) : Decidable (t.Leased now sha256) :=
  inferInstanceAs (Decidable (∃ l ∈ t.artifactLease, _ ∧ _))

/-- An artifact that retention may delete : old, without a guarded reference and without an
active lease. -/
structure ArtifactCandidate (cutoff now : Instant) (a : ArtifactObject) : Prop where
  old : julianday a.createdAt < julianday cutoff
  unreferenced : a.sha256 ∉ t.guardedReferences
  unleased : ¬t.Leased now a.sha256

instance (cutoff now : Instant) (a : ArtifactObject) :
    Decidable (t.ArtifactCandidate cutoff now a) :=
  decidable_of_iff (julianday a.createdAt < julianday cutoff ∧ a.sha256 ∉ t.guardedReferences ∧
    ¬t.Leased now a.sha256)
    ⟨fun ⟨h, h', h''⟩ => ⟨h, h', h''⟩, fun ⟨h, h', h''⟩ => ⟨h, h', h''⟩⟩

/-- `_artifact_candidates(connection, cutoff, now)`. -/
def artifactCandidates (cutoff now : Instant) : List String :=
  ((t.artifactObject.filter fun a => t.ArtifactCandidate cutoff now a).map
    ArtifactObject.sha256).insertionSort (· ≤ ·)

/-! ## Manifests -/

/-- The manifests, in the order they are read in. -/
def manifestRows : List InputManifest :=
  t.inputManifest.insertionSort fun m m' => m.manifestUid ≤ m'.manifestUid

/-- `_manifest_catalog_hash(connection)`. -/
def manifestCatalogHash : String :=
  canonicalHash (.arr (t.manifestRows.map fun m => .arr [.str m.manifestUid,
    .str m.canonicalHash, .str m.artifactSha256, .str (formatRfc3339 m.asOfTime)]))

/-- `_validate_manifest_quotes(connection, quote_uids, as_of)` : the lineages of the quotes. -/
def validateManifestQuotes (quoteUids : List Uid) (asOf : Instant) : Except Exn (List Uid) := do
  let rows := t.market.marketQuote.filter fun q => q.quoteUid ∈ quoteUids
  check (rows.length = quoteUids.length)
    (retentionError "an Input Manifest references an unknown quote")
  check (∀ q ∈ rows, q.receivedAt ≤ asOf)
    (retentionError "an Input Manifest references future input")
  return rows.map MarketQuote.lineageUid

end RetentionTables

/-- The texts of a list of texts. -/
def readTexts : List Value → Option (List String)
  | [] => some []
  | .str text :: items => (text :: ·) <$> readTexts items
  | _ :: _ => none

/-- `_read_manifest(artifacts, row)` : the quotes of a manifest whose artifact is as its row
says. -/
def readManifest (files : ArtifactFiles) (row : InputManifest) : Except Exn (List Uid) := do
  let malformed := retentionError "an Input Manifest is missing, corrupt, or malformed"
  match openVerified files row.artifactSha256 with
  | .error _ => throw malformed
  | .ok raw =>
    match Json.decode raw with
    | none => throw malformed
    | some document =>
      check (Json.uniqueKeys document)
        (retentionError "an Input Manifest contains duplicate keys")
      match document with
      | .obj fields =>
        check ((fields.map Prod.fst).insertionSort (· ≤ ·) = ["as_of_time", "quote_uids"])
          (retentionError "an Input Manifest has an invalid shape")
      | _ => throw (retentionError "an Input Manifest has an invalid shape")
      -- The text of the row is one of an instant, and is parsed as such.
      check (document.get? "as_of_time" = some (.str (formatRfc3339 row.asOfTime)))
        (retentionError "an Input Manifest as-of value does not match metadata")
      let invalid := retentionError "an Input Manifest quote list is invalid"
      match document.get? "quote_uids" with
      | some (.arr items) =>
        match readTexts items with
        | none => throw invalid
        | some quoteUids =>
          check (quoteUids ≠ [] ∧ (∀ uid ∈ quoteUids, uid ≠ "" ∧ uid.length ≤ 256) ∧
            quoteUids.Pairwise (· < ·)) invalid
          check (raw = Json.canonicalBytes document ∧ canonicalHash document = row.canonicalHash)
            (retentionError "an Input Manifest canonical hash does not match")
          return quoteUids
      | _ => throw invalid

/-- The lineages of the quotes of all manifests. -/
def Storage.manifestLineages (s : Storage) : Except Exn (List Uid) :=
  List.flatten <$> s.tables.manifestRows.mapM fun row => do
    s.tables.validateManifestQuotes (← readManifest s.files row) row.asOfTime

/-! ## Plans -/

/-- `RetentionPlan`. -/
structure RetentionPlan where
  quoteUids : List Uid
  artifactSha256s : List String
  candidateCount : ℕ
  candidateHash : String
  cutoff : Instant
  plannedAt : Instant
  manifestCatalogHash : String
  protectedManifestLineages : List Uid
  deriving DecidableEq, Repr

/-- `_retention_hash(…)`. -/
def retentionHash (cutoff : Instant) (quoteUids : List Uid) (artifactSha256s : List String)
    (manifestCatalogHash : String) : String :=
  canonicalHash (.obj [("artifact_sha256s", .arr (artifactSha256s.map Value.str)),
    ("cutoff", .str (formatRfc3339 cutoff)), ("manifest_catalog_hash", .str manifestCatalogHash),
    ("quote_uids", .arr (quoteUids.map Value.str))])

/-- The plan of some candidates. -/
def RetentionTables.planOf (t : RetentionTables) (cutoff now : Instant) (lineages : List Uid) :
    RetentionPlan :=
  let quoteUids := t.quoteCandidates cutoff lineages
  let artifactSha256s := t.artifactCandidates cutoff now
  { quoteUids := quoteUids
    artifactSha256s := artifactSha256s
    candidateCount := quoteUids.length + artifactSha256s.length
    candidateHash := retentionHash cutoff quoteUids artifactSha256s t.manifestCatalogHash
    cutoff := cutoff
    plannedAt := now
    manifestCatalogHash := t.manifestCatalogHash
    protectedManifestLineages := lineages.dedup.insertionSort (· ≤ ·) }

/-- `plan_retention(runtime, artifacts, cutoff, now=…)`. -/
def planRetention (s : Storage) (cutoff now : Instant) : Except Exn RetentionPlan := do
  check (cutoff < now) (valueError "retention cutoff must precede the current time")
  return s.tables.planOf cutoff now (← s.manifestLineages)

/-- `_same_retention_candidates(left, right)`. -/
def SameRetentionCandidates (left right : RetentionPlan) : Prop :=
  left.quoteUids = right.quoteUids ∧ left.artifactSha256s = right.artifactSha256s ∧
    left.candidateCount = right.candidateCount ∧ left.candidateHash = right.candidateHash ∧
    left.cutoff = right.cutoff ∧ left.manifestCatalogHash = right.manifestCatalogHash ∧
    left.protectedManifestLineages = right.protectedManifestLineages

instance (left right : RetentionPlan) : Decidable (SameRetentionCandidates left right) :=
  inferInstanceAs (Decidable (_ ∧ _))

/-! ## Deletions -/

namespace RetentionTables

/-- The foreign keys to `market_quote`. -/
def quoteReferences (t : RetentionTables) : List Uid :=
  t.market.quoteQualityIssue.map QuoteQualityIssue.quoteUid ++
    t.factSpecificEvidence.map FactSpecificEvidence.quoteUid ++
    t.market.tdxQuoteDetail.map TdxQuoteDetailRow.quoteUid

/-- The references to artifacts that the candidates are not checked for. -/
def unguardedReferences (t : RetentionTables) : List String :=
  t.market.tdxBlockArtifactVersion.map TdxBlockArtifactVersion.artifactSha256 ++
    t.sectorContextMappingVersion.map SectorContextMappingVersion.sourceArtifactSha256 ++
    t.market.instrumentIdentityVersion.filterMap
      InstrumentIdentityVersion.listingEvidenceSha256

/-- The foreign keys to `artifact_object`. -/
def artifactReferences (t : RetentionTables) : List String :=
  t.guardedReferences ++ t.unguardedReferences ++ t.artifactLease.map ArtifactLease.sha256

/-- The tables with other quotes. -/
def setQuotes (t : RetentionTables) (rows : List MarketQuote) : RetentionTables :=
  { t with market := { t.market with marketQuote := rows } }

/-- The tables with another artifact registry. -/
def setArtifacts (t : RetentionTables) (artifacts : ArtifactTables) : RetentionTables :=
  { t with durable := { t.durable with artifacts := artifacts } }

end RetentionTables

/-- A command on the tables that retention reads. -/
abbrev TablesCommand (α : Type) := EStateM Exn RetentionTables α

/-- `_delete_values(connection, "market_quote", "quote_uid", values)`. Its statements are of
five hundred values each, in one transaction. -/
def deleteQuotes (quoteUids : List Uid) : TablesCommand ℕ := do
  let t ← get
  let deleted := t.market.marketQuote.filter fun q => q.quoteUid ∈ quoteUids
  require (∀ q ∈ deleted, q.quoteUid ∉ t.quoteReferences) integrityError
  set (t.setQuotes (t.market.marketQuote.filter fun q => q.quoteUid ∉ quoteUids))
  return deleted.length

/-- `_delete_expired_candidate_leases(connection, digests, now)`. -/
def deleteExpiredLeases (digests : List String) (now : Instant) : TablesCommand PUnit :=
  modify fun t => t.setArtifacts { t.durable.artifacts with
    artifactLease := t.artifactLease.filter fun l =>
      ¬(l.sha256 ∈ digests ∧ julianday l.validUntil ≤ julianday now) }

/-- `_delete_values(connection, "artifact_object", "sha256", values)`. -/
def deleteArtifacts (digests : List String) : TablesCommand ℕ := do
  let t ← get
  let deleted := t.artifactObject.filter fun a => a.sha256 ∈ digests
  require (∀ a ∈ deleted, a.sha256 ∉ t.artifactReferences) integrityError
  set (t.setArtifacts { t.durable.artifacts with
    artifactObject := t.artifactObject.filter fun a => a.sha256 ∉ digests })
  return deleted.length

/-- The audit record of a retention. -/
def retentionAudit (auditUid : Uid) (plan : RetentionPlan) (now : Instant) : AuditRecord :=
  ⟨auditUid, "RETENTION_APPLIED", none, none, plan.candidateHash, now⟩

/-- `INSERT INTO audit_record`. -/
def insertAudit (row : AuditRecord) : TablesCommand PUnit := do
  let t ← get
  require (t.durable.analysis.auditRecord.all fun r => r.auditUid ≠ row.auditUid) integrityError
  set { t with durable := { t.durable with analysis := { t.durable.analysis with
    auditRecord := t.durable.analysis.auditRecord ++ [row] } } }

/-- `delete_metadata(transaction)` : the number of the deleted quotes. -/
def deleteMetadata (plan : RetentionPlan) (auditUid : Uid) (now : Instant) : TablesCommand ℕ := do
  let t ← get
  require (t.manifestCatalogHash = plan.manifestCatalogHash)
    (retentionError "retention evidence catalog changed")
  let quotes := t.quoteCandidates plan.cutoff plan.protectedManifestLineages
  let artifacts := t.artifactCandidates plan.cutoff now
  require (quotes = plan.quoteUids ∧ artifacts = plan.artifactSha256s)
    (retentionError "retention candidates changed during apply")
  require (retentionHash plan.cutoff quotes artifacts t.manifestCatalogHash = plan.candidateHash)
    (retentionError "retention candidate hash is invalid")
  let quoteDeleted ← deleteQuotes quotes
  deleteExpiredLeases artifacts now
  let artifactDeleted ← deleteArtifacts artifacts
  require (quoteDeleted = quotes.length ∧ artifactDeleted = artifacts.length)
    (retentionError "retention delete count did not match the fenced plan")
  insertAudit (retentionAudit auditUid plan now)
  return quoteDeleted

/-- `remove_files(transaction)` : the number of the removed files, from a digest on. A file that
is not there counts. -/
def removeFiles (now : Instant) : List String → StorageCommand ℕ
  | [] => return 0
  | digest :: digests => do
    let s ← get
    if s.tables.artifactObject.any (fun a => a.sha256 = digest) ∨
        digest ∈ s.tables.rawArtifact.map RawArtifact.rawArtifactSha256 ∨
        digest ∈ s.tables.inputManifest.map InputManifest.artifactSha256 ∨
        s.tables.artifactLease.any (fun l => l.sha256 = digest ∧ now < l.validUntil) then
      removeFiles now digests
    else do
      let _ ← fromExcept (pathFor digest)
      set { s with files := fun d => if d = digest then none else s.files d }
      return (← removeFiles now digests) + 1

/-! ## Applying a plan -/

/-- `RetentionResult`. -/
structure RetentionResult where
  deletedQuoteCount : ℕ
  deletedArtifactCount : ℕ
  auditHash : String
  deriving DecidableEq, Repr

/-- The error of a command that is not a `RetentionError` already, with a message. -/
def retentionFailure (message : String) (e : Exn) : Exn :=
  if e.cls = .retentionError then e else retentionError message

/-- A transaction on the tables, whose error becomes a `RetentionError`. -/
def tablesTransaction {α : Type} (message : String) (command : TablesCommand α) :
    StorageCommand α := fun s =>
  match (atomically command).run s.tables with
  | .ok a tables => .ok a { s with tables := tables }
  | .error e _ => .error (retentionFailure message e) s

/-- A command on the files, whose error becomes a `RetentionError`. The files it removed
stay removed. -/
def filesTransaction {α : Type} (message : String) (command : StorageCommand α) :
    StorageCommand α := fun s =>
  match command.run s with
  | .ok a s' => .ok a s'
  | .error e s' => .error (retentionFailure message e) s'

/-- `apply_retention(runtime, writer, artifacts, plan, now=…)`. -/
def applyRetention (plan : RetentionPlan) (auditUid : Uid) (now : Instant) :
    StorageCommand RetentionResult := do
  let refreshed ← fromExcept (planRetention (← get) plan.cutoff now)
  require (SameRetentionCandidates plan refreshed)
    (retentionError "retention candidates changed; create a new dry-run plan")
  let quoteDeleted ← tablesTransaction "retention database apply failed"
    (deleteMetadata plan auditUid now)
  let artifactDeleted ← filesTransaction
    "retention metadata was applied but artifact cleanup is incomplete"
    (removeFiles now plan.artifactSha256s)
  return ⟨quoteDeleted, artifactDeleted, plan.candidateHash⟩

end MarketMonitor
