import MarketMonitor.Library.Transaction
import MarketMonitor.Persistence.Schema

/-!
# The threshold registry

The thresholds an OFFICIAL evaluation uses : the version of the latest activation at its
time, when the Owner approved it and its latest replay and shadow validations passed. A
resolved set is complete for its family.
-/

namespace MarketMonitor

open Json (Value)
open Transaction

/-- Metric values by code, in parts per million. -/
abbrev Metrics := List (String × ℤ)

/-- `dict(a) == dict(b)`. -/
def Metrics.same (a b : Metrics) : Bool :=
  (a ++ b).all fun p => a.lookup p.1 == b.lookup p.1

/-- `sorted(metrics.items())`. -/
def Metrics.sorted (metrics : Metrics) : Metrics :=
  metrics.insertionSort fun p q => p.1 ≤ q.1

/-- The pairs of a document. -/
def Metrics.document (metrics : Metrics) : Value :=
  .arr (metrics.map fun p => .arr [.str p.1, .int p.2])

/-! ## Metric codes -/

def guardianCodes : List String :=
  ["RISE_RATE_PPM", "HEAD_CONCENTRATION_PPM", "INTERNAL_DIVERGENCE_PPM", "CROWDING_PPM",
    "LIQUIDITY_WEAKENING_PPM", "CORE_WEAKENING_PPM", "BREADTH_COLLAPSE_PPM",
    "STAMPEDE_RISK_PPM", "T1_CHASING_RISK_PPM", "EARLY_SIGNAL_FAILURE_PPM"]

def scoutCodes : List String :=
  ["EARLY_ACTIVITY_PPM", "HEALTHY_BREADTH_PPM", "RELATIVE_STRENGTH_PPM",
    "TURNOVER_CONFIRMATION_PPM", "ETF_CONFIRMATION_PPM", "STYLE_SUPPORT_PPM",
    "LOW_CROWDING_PPM", "CONTINUITY_STRENGTHENING_PPM"]

/-- The codes of a threshold family. -/
def ThresholdFamily.codes : ThresholdFamily → List String
  | .guardian => guardianCodes
  | .scout => scoutCodes

/-- Every code of the family has an entry. -/
def CompleteFor (family : ThresholdFamily) (entries : Metrics) : Prop :=
  ∀ code ∈ family.codes, (entries.lookup code).isSome

instance (family : ThresholdFamily) (entries : Metrics) : Decidable (CompleteFor family entries) :=
  inferInstanceAs (Decidable (∀ code ∈ family.codes, (entries.lookup code).isSome))

/-- A resolved threshold version, with an entry for every code of its family. -/
structure ThresholdSet where
  uid : Uid
  family : ThresholdFamily
  version : String
  definitionHash : String
  entries : Metrics
  effectiveTime : Option Instant
  ownerApprovalReference : String
  complete : CompleteFor family entries

/-- `thresholds.entries[code]`. -/
def ThresholdSet.entry (thresholds : ThresholdSet) (code : String) : ℤ :=
  (thresholds.entries.lookup code).getD 0

/-! ## Resolution -/

def thresholdUnavailable (message : String) : Exn :=
  ⟨.thresholdUnavailableError, message⟩

/-- `_validated_entries(family, entries)`. -/
def validatedEntries (family : ThresholdFamily) (entries : Metrics) :
    Except String {entries : Metrics // CompleteFor family entries} :=
  let unknown := (entries.map Prod.fst).filter fun code => code ∉ family.codes
  if unknown ≠ [] then
    let quoted := (unknown.insertionSort (· ≤ ·)).map fun code => "'" ++ code ++ "'"
    .error ("unknown threshold metric code: [" ++ ", ".intercalate quoted ++ "]")
  else if complete : CompleteFor family entries then
    if entries.any fun p => p.2 < 0 ∨ 1000000 < p.2 then
      .error "threshold PPM values must be integers from zero through one million"
    else .ok ⟨entries, complete⟩
  else .error "threshold version entries must be complete for its family"

/-- `_definition_hash(family, version, entries)`. -/
def definitionHash (family : ThresholdFamily) (version : String) (entries : Metrics) : String :=
  canonicalHash (.obj [("family", .str family.text), ("version", .str version),
    ("entries", entries.sorted.document)])

/-- The entries of a version, in the order of their codes. -/
def ThresholdTables.entriesOf (tables : ThresholdTables) (versionUid : Uid) : Metrics :=
  Metrics.sorted ((tables.thresholdEntry.filter fun e => e.thresholdVersionUid = versionUid).map
    fun e => (e.metricCode, e.thresholdPpm))

/-- `_set_from_row(connection, row, family, version, effective_time)`. -/
def setFromRow (tables : ThresholdTables) (row : ThresholdVersion) (family : ThresholdFamily)
    (version : String) (effectiveTime : Option Instant) : Except Exn ThresholdSet :=
  match validatedEntries family (tables.entriesOf row.thresholdVersionUid) with
  | .error message => .error (thresholdUnavailable message)
  | .ok ⟨entries, complete⟩ =>
    let expected := definitionHash family version entries
    if row.definitionHash ≠ expected then
      .error (thresholdUnavailable "threshold definition hash does not match immutable entries")
    else
      .ok ⟨row.thresholdVersionUid, family, version, expected, entries, effectiveTime,
        row.ownerApprovalReference, complete⟩

/-- `_latest_validations_pass(connection, threshold_version_uid, at)`. -/
def latestValidationsPass (tables : ThresholdTables) (versionUid : Uid) (at_ : Instant) : Bool :=
  [ValidationKind.replay, .shadow].all fun kind =>
    let rows := tables.thresholdValidation.filter fun v =>
      v.thresholdVersionUid = versionUid ∧ v.validationKind = kind ∧ v.observedAt ≤ at_
    match latest (fun v => toLex (v.observedAt, v.validationOrder)) rows with
    | some v => v.passed
    | none => false

/-- The row of a threshold version. -/
def ThresholdTables.version? (tables : ThresholdTables) (versionUid : Uid) :
    Option ThresholdVersion :=
  tables.thresholdVersion.find? fun v => v.thresholdVersionUid = versionUid

/-- An activation with its version, when it is of a family and effective at an instant. -/
def ThresholdTables.effective (tables : ThresholdTables) (family : ThresholdFamily)
    (at_ : Instant) (a : ThresholdActivation) : Option (ThresholdActivation × ThresholdVersion) :=
  if a.family = family ∧ a.effectiveAt ≤ at_ then
    (tables.version? a.thresholdVersionUid).map fun v => (a, v)
  else none

/-- The activations of a family effective at an instant, with their versions. -/
def ThresholdTables.activations (tables : ThresholdTables) (family : ThresholdFamily)
    (at_ : Instant) : List (ThresholdActivation × ThresholdVersion) :=
  tables.thresholdActivation.filterMap (tables.effective family at_)

/-- The activation lookup of `resolve_official`. -/
def ThresholdTables.active (tables : ThresholdTables) (family : ThresholdFamily)
    (at_ : Instant) : Option (ThresholdActivation × ThresholdVersion) :=
  latest (fun p => toLex (p.1.effectiveAt, p.1.activationOrder)) (tables.activations family at_)

/-- `ThresholdRegistry.resolve_official(family, at)`. -/
def resolveOfficial (tables : ThresholdTables) (family : ThresholdFamily) (at_ : Instant) :
    Except Exn ThresholdSet :=
  match tables.active family at_ with
  | none =>
    .error (thresholdUnavailable
      ("no active " ++ family.text ++ " threshold version at " ++ formatRfc3339 at_))
  | some (activation, row) =>
    if row.approvalStatus = .legacyUncalibrated then
      .error (thresholdUnavailable "active threshold version is not Owner approved")
    else if ¬latestValidationsPass tables row.thresholdVersionUid at_ then
      .error (thresholdUnavailable "active threshold version lacks passed validation")
    else setFromRow tables row family row.version (some activation.effectiveAt)

end MarketMonitor
