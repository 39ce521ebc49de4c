import MarketMonitor.Library.Decimal
import MarketMonitor.MarketData.Blocks
import MarketMonitor.Persistence.MarketSchema

/-!
# Quotes

The normalization of the quotes of the TDX provider. A quote that is valid on its own is
still rejected when a cumulative value is below that of the remembered quote of its
instrument (`normalizeQuote_eq_value_iff`).
-/

namespace MarketMonitor

open Transaction

/-! ## Instruments and quotes -/

/-- The market and the code of an instrument. -/
abbrev TdxIdentity := ℕ × String

/-- `TdxInstrument`, with the checks of its constructor. -/
structure TdxInstrument where
  market : ℕ
  code : String
  kind : InstrumentKind
  valid : (market = 0 ∨ market = 1) ∧ IsCode code.toList
  deriving DecidableEq

def TdxInstrument.identity (i : TdxInstrument) : TdxIdentity := (i.market, i.code)

/-- `TdxRawQuote`. The decoder returns finite numbers only. -/
structure TdxRawQuote where
  market : ℕ
  code : String
  price : Decimal
  lastClose : Decimal
  openPrice : Decimal
  high : Decimal
  low : Decimal
  volumeLots : ℤ
  currentVolumeLots : ℤ
  amount : Decimal
  serverTimeRaw : ℤ
  deriving DecidableEq

def TdxRawQuote.identity (raw : TdxRawQuote) : TdxIdentity := (raw.market, raw.code)

inductive TdxQuoteStatus where
  | value | noValidQuote
  deriving DecidableEq, Repr

def TdxQuoteStatus.text : TdxQuoteStatus → String
  | .value => "VALUE"
  | .noValidQuote => "NO_VALID_QUOTE"

/-- `TdxQuote`. -/
structure TdxQuote where
  instrument : TdxInstrument
  price : Option Decimal
  preClose : Option Decimal
  openPrice : Option Decimal
  high : Option Decimal
  low : Option Decimal
  volume : Option ℤ
  volumeUnit : String
  amount : Option Decimal
  quoteStatus : TdxQuoteStatus
  serverTimeRaw : ℤ
  receivedAt : Instant
  deriving DecidableEq

/-- `TdxInvalidRecord`. -/
structure TdxInvalidRecord where
  reason : String
  detail : String
  deriving DecidableEq, Repr

/-! ## Normalization -/

/-- `_quote_volume(volume_lots, kind)`. -/
def quoteVolume (volumeLots : ℤ) : InstrumentKind → ℤ × String
  | .stock | .etf => (volumeLots * 100, "SHARES")
  | .index => (volumeLots, "INDEX_LOT_LIKE")

/-- `_is_no_valid_quote(raw)`. -/
def TdxRawQuote.isNoValidQuote (raw : TdxRawQuote) : Bool :=
  [raw.price, raw.openPrice, raw.high, raw.low].all (fun p => p.coeff = 0) ∧
    Decimal.zero < raw.lastClose ∧ raw.amount < ⟨1, -30⟩

/-- The quote of an instrument that does not trade. -/
def TdxRawQuote.noValidQuote (raw : TdxRawQuote) (instrument : TdxInstrument)
    (receivedAt : Instant) : TdxQuote where
  instrument := instrument
  price := none
  preClose := none
  openPrice := none
  high := none
  low := none
  volume := none
  volumeUnit := (quoteVolume 0 instrument.kind).2
  amount := none
  quoteStatus := .noValidQuote
  serverTimeRaw := raw.serverTimeRaw
  receivedAt := receivedAt

/-- The quote with the values of a raw one. -/
def TdxRawQuote.value (raw : TdxRawQuote) (instrument : TdxInstrument) (receivedAt : Instant) :
    TdxQuote where
  instrument := instrument
  price := some raw.price
  preClose := some raw.lastClose
  openPrice := some raw.openPrice
  high := some raw.high
  low := some raw.low
  volume := some (quoteVolume raw.volumeLots instrument.kind).1
  volumeUnit := (quoteVolume raw.volumeLots instrument.kind).2
  amount := some raw.amount
  quoteStatus := .value
  serverTimeRaw := raw.serverTimeRaw
  receivedAt := receivedAt

/-- A value below another, when both are there. -/
def below {α : Type} [LT α] [DecidableLT α] : Option α → Option α → Bool
  | some x, some y => x < y
  | _, _ => false

/-- Whether a cumulative value of a quote is below that of an earlier one. -/
def TdxQuote.decreasesFrom (quote previous : TdxQuote) : Bool :=
  previous.quoteStatus = .value ∧
    (below quote.volume previous.volume ∨ below quote.amount previous.amount)

def invalidResponse (detail : String) : TdxInvalidRecord := ⟨"INVALID_RESPONSE", detail⟩

/-- `normalize_quote(raw, instrument, received_at, previous=…)`. -/
def normalizeQuote (raw : TdxRawQuote) (instrument : TdxInstrument) (receivedAt : Instant)
    (previous : Option TdxQuote) : Except TdxInvalidRecord TdxQuote :=
  if raw.identity ≠ instrument.identity then
    .error (invalidResponse "returned market/code does not match request")
  else if raw.volumeLots < 0 ∨ raw.currentVolumeLots < 0 ∨ raw.amount < Decimal.zero then
    .error (invalidResponse "quote contains a negative cumulative value")
  else if raw.isNoValidQuote then .ok (raw.noValidQuote instrument receivedAt)
  else
    let result := raw.value instrument receivedAt
    if previous.any result.decreasesFrom then
      .error ⟨"CUMULATIVE_DECREASE", "quote cumulative amount or volume decreased"⟩
    else .ok result

/-- A decoded quote that is valid on its own : it is of the instrument, has no negative
value and a price. -/
def ValidAlone (raw : TdxRawQuote) (instrument : TdxInstrument) : Prop :=
  raw.identity = instrument.identity ∧
    ¬(raw.volumeLots < 0 ∨ raw.currentVolumeLots < 0 ∨ raw.amount < Decimal.zero) ∧
    raw.isNoValidQuote = false

instance (raw : TdxRawQuote) (instrument : TdxInstrument) :
    Decidable (ValidAlone raw instrument) :=
  inferInstanceAs (Decidable (_ ∧ _ ∧ _))

variable {raw : TdxRawQuote} {instrument : TdxInstrument} {receivedAt : Instant}
  {previous : Option TdxQuote} {quote : TdxQuote}

/-- A quote is normalized to a value when it is valid on its own and decreases no
cumulative value of the remembered quote. -/
theorem normalizeQuote_eq_value_iff :
    normalizeQuote raw instrument receivedAt previous = .ok quote ∧ quote.quoteStatus = .value ↔
      ValidAlone raw instrument ∧ previous.any (raw.value instrument receivedAt).decreasesFrom =
        false ∧ quote = raw.value instrument receivedAt := by
  unfold normalizeQuote ValidAlone
  by_cases hidentity : raw.identity = instrument.identity
  swap
  · simp [hidentity]
  by_cases hnegative : raw.volumeLots < 0 ∨ raw.currentVolumeLots < 0 ∨
      raw.amount < Decimal.zero
  · simp [hidentity, hnegative]
  rw [if_neg (not_not.mpr hidentity), if_neg hnegative]
  cases hstatus : raw.isNoValidQuote with
  | true =>
    simp only [if_true]
    constructor
    · rintro ⟨h, hvalue⟩
      cases h
      cases hvalue
    · rintro ⟨⟨-, -, h⟩, -⟩
      cases h
  | false =>
    simp only [Bool.false_eq_true, if_false]
    cases hdecrease : previous.any (raw.value instrument receivedAt).decreasesFrom with
    | true => simp
    | false =>
      simp only [Bool.false_eq_true, if_false]
      constructor
      · rintro ⟨h, -⟩
        cases h
        exact ⟨⟨hidentity, hnegative, trivial⟩, trivial, rfl⟩
      · rintro ⟨-, -, rfl⟩
        exact ⟨rfl, rfl⟩

end MarketMonitor
