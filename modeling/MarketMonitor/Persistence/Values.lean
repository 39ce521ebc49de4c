import MarketMonitor.Library.JsonBytes

/-!
# Values

Instants, their RFC 3339 text, the canonical hash of a document and the exceptions the
services raise. An instant is its number of microseconds since the first day of year 1;
the columns of the database hold its text, which has a fixed width, so that the order
and the equality of the texts are those of the instants.
-/

namespace MarketMonitor

open Json (Value)

/-! ## Exceptions -/

/-- The exception classes the modelled services raise, catch or translate. -/
inductive ExceptionClass where
  | valueError
  | typeError
  | runtimeError
  | noResultFound
  | integrityError
  | artifactPathError
  | artifactIntegrityError
  | artifactNotFoundError
  | artifactMetadataConflictError
  | officialThresholdGateError
  | thresholdUnavailableError
  | thresholdActivationError
  | projectionConflictError
  | illegalLifecycleTransitionError
  | retentionError
  | backupError
  | recoveryError
  | unknownFactCodeError
  | snapshotNotSealedError
  | officialCycleNotReadyError
  | officialCycleOverlapError
  | officialCycleJournalError
  | keyError
  | lookupError
  | osError
  | tdxTransportError
  | tdxBlockParseError
  | thresholdLineageError
  | authenticationError
  | loginRateLimitError
  | referenceNotFoundError
  | idempotencyConflictError
  | queryRateLimitError
  | tdxProtocolError
  | invalidOperation
  | indexError
  | versionConflictError
  | operationalError
  | assertionError
  | zeroDivisionError
  | overflowError
  | decimalOverflow
  deriving DecidableEq, Repr

/-- An exception with its message. -/
structure Exn where
  cls : ExceptionClass
  message : String
  deriving DecidableEq, Repr

def valueError (message : String) : Exn := ⟨.valueError, message⟩

/-- What SQLite raises when a constraint fails. -/
def integrityError : Exn := ⟨.integrityError, "constraint failed"⟩

/-! ## Instants -/

/-- Microseconds since 0001-01-01T00:00:00Z. -/
abbrev Instant := ℕ

/-- A civil date by its ordinal, day 0 being 0001-01-01. -/
abbrev Date := ℕ

def microsPerSecond : ℕ := 1000000
def microsPerDay : ℕ := 86400 * microsPerSecond

/-- `timedelta(minutes=n)`. -/
def minutes (n : ℕ) : ℕ := n * 60 * microsPerSecond

/-- The days of the common year before each month. -/
def daysBeforeMonth : List ℕ := [0, 31, 59, 90, 120, 151, 181, 212, 243, 273, 304, 334]

/-- The month and the day of month of day `n` of a year. -/
def monthDay (leap : Bool) (n : ℕ) : ℕ × ℕ :=
  let before (m : ℕ) : ℕ := daysBeforeMonth.getD m 366 + if leap ∧ 1 < m then 1 else 0
  let month := ((List.range 12).filter fun m => before m ≤ n).length
  (month, n - before (month - 1) + 1)

/-- Year, month and day of a date in the proleptic Gregorian calendar. -/
def civil (date : Date) : ℕ × ℕ × ℕ :=
  let n400 := date / 146097
  let n := date % 146097
  let n100 := n / 36524
  let n := n % 36524
  let n4 := n / 1461
  let n := n % 1461
  let n1 := n / 365
  let n := n % 365
  let year := n400 * 400 + n100 * 100 + n4 * 4 + n1 + 1
  -- The last day of a leap cycle is the 366th of the year before.
  if n1 = 4 ∨ n100 = 4 then (year - 1, 12, 31)
  else
    let leap := n1 = 3 ∧ (n4 ≠ 24 ∨ n100 = 3)
    (year, monthDay leap n)

/-- The last `k` decimal digits of a number. -/
def zeroPad : ℕ → ℕ → List Char
  | 0, _ => []
  | k + 1, n => zeroPad k (n / 10) ++ [Nat.digitChar (n % 10)]

/-- `YYYY-MM-DDTHH:MM:SS.ffffffZ`. -/
def formatRfc3339 (t : Instant) : String :=
  let (year, month, day) := civil (t / microsPerDay)
  let micros := t % microsPerDay
  let seconds := micros / microsPerSecond
  String.ofList (zeroPad 4 year ++ '-' :: zeroPad 2 month ++ '-' :: zeroPad 2 day ++
    'T' :: zeroPad 2 (seconds / 3600) ++ ':' :: zeroPad 2 (seconds / 60 % 60) ++
    ':' :: zeroPad 2 (seconds % 60) ++ '.' :: zeroPad 6 (micros % microsPerSecond) ++ ['Z'])

example : formatRfc3339 0 = "0001-01-01T00:00:00.000000Z" := by decide +kernel

example : formatRfc3339 63902745045000001 = "2025-12-31T02:30:45.000001Z" := by
  decide +kernel

/-- The date with the given year, month and day. -/
def ordinal (year month day : ℕ) : Date :=
  let past := year - 1
  let leap := year % 4 = 0 ∧ (year % 100 ≠ 0 ∨ year % 400 = 0)
  past * 365 + past / 4 - past / 100 + past / 400 + daysBeforeMonth.getD (month - 1) 0 +
    (if leap ∧ 2 < month then 1 else 0) + (day - 1)

/-- The number some decimal digits denote. -/
def decimalNumber (digits : List Char) : ℕ :=
  digits.foldl (fun n c => n * 10 + (c.toNat - '0'.toNat)) 0

/-- The instant whose canonical text is `text`, for
`format_rfc3339(parse_rfc3339(text)) == text`. -/
def canonicalInstant? (text : String) : Option Instant :=
  let field (start width : ℕ) : ℕ := decimalNumber ((text.toList.drop start).take width)
  let seconds := field 11 2 * 3600 + field 14 2 * 60 + field 17 2
  let t := ordinal (field 0 4) (field 5 2) (field 8 2) * microsPerDay +
    seconds * microsPerSecond + field 20 6
  if formatRfc3339 t = text then some t else none

example : canonicalInstant? "2025-12-31T02:30:45.000001Z" = some 63902745045000001 := by
  decide +kernel

example : canonicalInstant? "2024-02-29T23:59:59.999999Z" = some 63844847999999999 := by
  decide +kernel

/-! ## Blank texts -/

/-- `str.isspace` of a character. -/
def isSpace (c : Char) : Bool :=
  let n := c.toNat
  (9 ≤ n ∧ n ≤ 13) ∨ (28 ≤ n ∧ n ≤ 32) ∨ n = 0x85 ∨ n = 0xa0 ∨ n = 0x1680 ∨
    (0x2000 ≤ n ∧ n ≤ 0x200a) ∨ n = 0x2028 ∨ n = 0x2029 ∨ n = 0x202f ∨ n = 0x205f ∨ n = 0x3000

/-- `not text.strip()`. -/
def blank (text : String) : Bool := text.toList.all isSpace

/-! ## Hashes of documents -/

/-- `canonical_hash(value)` : the hash of the canonical bytes (`canonicalHash_eq_hexdigest`),
in the form the kernel evaluates. -/
def canonicalHash (document : Value) : String :=
  (Sha256.digest (Json.encode (Json.sortKeys document))).text

theorem canonicalHash_eq_hexdigest (document : Value) :
    canonicalHash document = Sha256.hexdigest (Json.canonicalBytes document) :=
  (Json.hexdigest_canonicalBytes document).symm

theorem canonicalHash_isDigest (document : Value) : Sha256.IsDigest (canonicalHash document) := by
  rw [canonicalHash_eq_hexdigest]
  exact Sha256.hexdigest_isDigest _

attribute [irreducible] canonicalHash

end MarketMonitor
