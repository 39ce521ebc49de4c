import MarketMonitor.MarketData.TradingClock
import MarketMonitor.MarketData.QuoteResponse
import MarketMonitor.Persistence.Instants

/-!
# Bar responses

The parser of the bar responses of TDX inverts their encoding (`bar_response_decodes`). The
prices of a bar are differences on the wire, the open one from the close of the bar before
and the others from the open one, so that the parser carries a base price through the
response. What is read of a body is stated from any base (`ReadsFrom`), and a response of
any length from the bound that its prices keep (`exists_records`).

A volume is the number of its word, which has no more than 28 digits when it is read : a
larger one is not read exactly (`bar_response_of_large_volume`).
-/

namespace MarketMonitor

open Decimal Reading Transaction

/-! ## The parser -/

/-- `TdxRawBar` -/
structure TdxRawBar where
  market : ℕ
  code : String
  timestamp : Instant
  openPrice : Decimal
  high : Decimal
  low : Decimal
  close : Decimal
  volume : ℤ
  amount : Decimal
  deriving DecidableEq

/-- `_bar_price(value)` -/
def rawBarPrice (value : ℤ) : Decimal := ofInt value / ofInt 1000

/-- The categories whose times are packed to the minute. -/
def IsMinuteCategory (category : ℤ) : Prop := category < 4 ∨ category = 7 ∨ category = 8

instance (category : ℤ) : Decidable (IsMinuteCategory category) :=
  inferInstanceAs (Decidable (_ ∨ _))

/-- The year, month, day, hour and minute of the packed time of a bar. -/
def barFields (category : ℤ) (data : List UInt8) : ℕ × ℕ × ℕ × ℕ × ℕ :=
  if IsMinuteCategory category then
    let packedDate := unpackH data
    let minute := unpackH (data.drop 2)
    ((packedDate >>> 11) + 2004, packedDate % 2048 / 100, packedDate % 2048 % 100, minute / 60,
      minute % 60)
  else
    let packedDate := unpackI data
    (packedDate / 10000, packedDate % 10000 / 100, packedDate % 100, 15, 0)

/-- `_read_bar_time(body, position, category)` -/
def readBarTime (category : ℤ) : WireReader Instant := do
  let data ← takeBytes 4
  let (year, month, day, hours, minute) := barFields category data
  -- A date is valid when the calendar has it.
  check (civil (ordinal year month day) = (year, month, day) ∧ year ≤ 9999 ∧ hours ≤ 23 ∧
    minute ≤ 59) (protocolError "invalid TDX bar timestamp")
  return ordinal year month day * microsPerDay + (hours * 60 + minute) * 60 * microsPerSecond -
    chinaOffset

/-- The bytes of the index breadth fields. -/
def breadthWidth (kind : InstrumentKind) : ℕ := if kind = .index then 4 else 0

/-- A bar with the base of the next one. -/
def readBar (category : ℤ) (instrument : TdxInstrument) (base : ℤ) :
    WireReader (TdxRawBar × ℤ) := do
  let timestamp ← readBarTime category
  let openDifference ← readNumber
  let closeDifference ← readNumber
  let highDifference ← readNumber
  let lowDifference ← readNumber
  let data ← takeBytes 8
  let volume ← readFloatDecimal (data.take 4)
  let amount ← readFloatDecimal (data.drop 4)
  let _ ← takeBytes (breadthWidth instrument.kind)
  check (¬(volume < zero ∨ ¬SameValue volume (ofInt volume.quantize)))
    (protocolError "invalid TDX bar volume")
  let openRaw := base + openDifference
  return ({
    market := instrument.market
    code := instrument.code
    timestamp := timestamp
    openPrice := rawBarPrice openRaw
    high := rawBarPrice (openRaw + highDifference)
    low := rawBarPrice (openRaw + lowDifference)
    close := rawBarPrice (openRaw + closeDifference)
    volume := volume.truncate
    amount := amount }, openRaw + closeDifference)

def barRecords (category : ℤ) (instrument : TdxInstrument) : WireReader (List TdxRawBar) := do
  let count ← takeU16
  timesFrom count (readBar category instrument) 0

/-- `TdxProtocol.parse_bar_response(body, category, instrument)` -/
def parseBarResponse (body : List UInt8) (category : ℤ) (instrument : TdxInstrument) :
    Except Exn (List TdxRawBar) :=
  whole (protocolError "unexpected bar response trailing bytes") (barRecords category instrument)
    body

/-! ## The encoding -/

/-- What a response says of a bar, its prices in thousandths, with the bytes that the parser
leaves out. The time is a date and a minute of that day. -/
structure BarFields where
  date : Date
  minute : ℕ
  openPrice : ℤ
  high : ℤ
  low : ℤ
  close : ℤ
  volume : FloatWord
  amount : FloatWord
  breadth : List UInt8

/-- A bar that a response of a category can hold, for an instrument of a kind. -/
structure WireBar (category : ℤ) (kind : InstrumentKind) extends BarFields where
  year_le : (civil date).1 ≤ 9999
  minute_valid : if IsMinuteCategory category
    then 2004 ≤ (civil date).1 ∧ (civil date).1 ≤ 2035 ∧ minute < 1440
    else minute = 900
  volume_natural : ∃ n : ℕ, volume.value = n
  breadth_length : breadth.length = breadthWidth kind

namespace WireBar

variable {category : ℤ} {kind : InstrumentKind}

/-- The packed time, which is the date alone in the categories of days. -/
def timeBytes (bar : WireBar category kind) : List UInt8 :=
  let (year, month, day) := civil bar.date
  if IsMinuteCategory category then
    packH ((year - 2004) * 2048 + month * 100 + day) ++ packH bar.minute
  else packI (year * 10000 + month * 100 + day)

/-- The bar after one that closed at `base`. -/
def bytes (base : ℤ) (bar : WireBar category kind) : List UInt8 :=
  bar.timeBytes ++ (packNumber (bar.openPrice - base) ++
    (packNumber (bar.close - bar.openPrice) ++ (packNumber (bar.high - bar.openPrice) ++
      (packNumber (bar.low - bar.openPrice) ++ ((packI bar.volume.bits ++ packI bar.amount.bits) ++
        bar.breadth)))))

/-- The instant of a bar : midnight of its date in China, and its minute. -/
def instant (bar : WireBar category kind) : Instant :=
  bar.date * microsPerDay + bar.minute * 60 * microsPerSecond - chinaOffset

/-- The record is the bar, with its words as `numberOf` reads them. -/
structure ReadAs (instrument : TdxInstrument) (numberOf : FloatWord → ℚ)
    (bar : WireBar category kind) (record : TdxRawBar) : Prop where
  market : record.market = instrument.market
  code : record.code = instrument.code
  timestamp : record.timestamp = bar.instant
  openPrice : record.openPrice.toRat = bar.openPrice / 1000
  high : record.high.toRat = bar.high / 1000
  low : record.low.toRat = bar.low / 1000
  close : record.close.toRat = bar.close / 1000
  volume : (record.volume : ℚ) = numberOf bar.volume
  amount : record.amount.toRat = numberOf bar.amount

/-- The prices of a bar after one that closed at `base` have differences that fit. -/
structure PricesFit (base : ℤ) (bar : WireBar category kind) : Prop where
  openPrice : FitsNumber (bar.openPrice - base)
  close : FitsNumber (bar.close - bar.openPrice)
  high : FitsNumber (bar.high - bar.openPrice)
  low : FitsNumber (bar.low - bar.openPrice)

end WireBar

/-- The prices of bars fit, each from the close of the one before. -/
def PricesFitFrom {category : ℤ} {kind : InstrumentKind} :
    ℤ → List (WireBar category kind) → Prop
  | _, [] => True
  | base, bar :: bars => bar.PricesFit base ∧ PricesFitFrom bar.close bars

/-- The bars as bytes, each from the close of the one before. -/
def barParts {category : ℤ} {kind : InstrumentKind} :
    ℤ → List (WireBar category kind) → List (List UInt8)
  | _, [] => []
  | base, bar :: bars => bar.bytes base :: barParts bar.close bars

/-- A response of any bars. -/
structure BarResponse (category : ℤ) (kind : InstrumentKind) where
  bars : List (WireBar category kind)
  count_lt : bars.length < 65536
  prices_fit : PricesFitFrom 0 bars

def BarResponse.bytes {category : ℤ} {kind : InstrumentKind} (r : BarResponse category kind) :
    List UInt8 :=
  packH r.bars.length ++ (barParts 0 r.bars).flatten

/-! ## Times -/

theorem monthDay_le : ∀ leap : Bool, ∀ n < 365, (monthDay leap n).1 ≤ 12 ∧
    (monthDay leap n).2 ≤ 31 := by
  decide +kernel

theorem civil_le (date : Date) : 1 ≤ (civil date).1 ∧ (civil date).2.1 ≤ 12 ∧
    (civil date).2.2 ≤ 31 := by
  obtain ⟨a, b, c, e, d, hplace, hcivil⟩ := exists_cyclePlace date
  rw [hcivil]
  split
  case isTrue h =>
    refine ⟨?_, le_rfl, le_rfl⟩
    dsimp only
    omega
  case isFalse => exact ⟨by dsimp only; omega, monthDay_le _ d hplace.day⟩

/-- A time that the calendar and the clock have. -/
def ValidBarTime (category : ℤ) (data : List UInt8) : Prop :=
  ∃ date : Date, ∃ hours minute, barFields category data =
    ((civil date).1, (civil date).2.1, (civil date).2.2, hours, minute) ∧
    (civil date).1 ≤ 9999 ∧ hours ≤ 23 ∧ minute ≤ 59

theorem local_readBarTime (category : ℤ) : Local IsProtocolError (readBarTime category) :=
  (local_takeBytes 4).bind fun _ => (local_check _).bind fun _ => .pure _

/-- A time is read from four bytes, which hold a valid one. -/
theorem reads_readBarTime {category : ℤ} {taken : List UInt8} {timestamp : Instant} :
    Reads (readBarTime category) taken timestamp ↔ taken.length = 4 ∧
      ∃ date hours minute, barFields category taken =
        ((civil date).1, (civil date).2.1, (civil date).2.2, hours, minute) ∧
      (civil date).1 ≤ 9999 ∧ hours ≤ 23 ∧ minute ≤ 59 ∧
      timestamp = date * microsPerDay + (hours * 60 + minute) * 60 * microsPerSecond -
        chinaOffset := by
  rw [readBarTime, (local_takeBytes 4).reads_bind fun _ => (local_check _).bind fun _ => .pure _]
  constructor
  · rintro ⟨taken, rest, data, rfl, hdata, hrest⟩
    obtain ⟨rfl, hlength⟩ := reads_takeBytes.mp hdata
    obtain ⟨none, last, _, rfl, hcheck, hlast⟩ :=
      ((local_check _).reads_bind fun _ => .pure _).mp hrest
    obtain ⟨rfl, hok⟩ := reads_lift.mp hcheck
    have hvalid := check_eq_ok.mp hok
    obtain ⟨rfl, rfl⟩ := reads_pure.mp hlast
    rw [List.append_nil, List.append_nil]
    clear hcheck hlast hrest hdata hok
    generalize barFields category data = fields at *
    obtain ⟨year, month, day, hours, minute⟩ := fields
    obtain ⟨hcivil, hyear, hhours, hminute⟩ := hvalid
    dsimp only at *
    refine ⟨hlength, ordinal year month day, hours, minute, ?_, ?_, hhours, hminute, rfl⟩
    · rw [hcivil]
    · rw [hcivil]
      exact hyear
  · rintro ⟨hlength, date, hours, minute, hfields, hyear, hhours, hminute, htime⟩
    refine ⟨taken, [], taken, (List.append_nil _).symm, reads_takeBytes.mpr ⟨rfl, hlength⟩, ?_⟩
    rw [hfields, htime]
    dsimp only
    rw [ordinal_civil]
    exact (Reads.lift (check_eq_ok.mpr ⟨rfl, hyear, hhours, hminute⟩ : check _ _ = .ok ())).bind
      (Reads.pure _)

namespace WireBar

variable {category : ℤ} {kind : InstrumentKind} (bar : WireBar category kind)

/-- The fields of the packed time. -/
theorem barFields_timeBytes : barFields category bar.timeBytes =
    ((civil bar.date).1, (civil bar.date).2.1, (civil bar.date).2.2, bar.minute / 60,
      bar.minute % 60) := by
  obtain ⟨hyear, hmonth, hday⟩ := civil_le bar.date
  have hlast := bar.year_le
  have hminute := bar.minute_valid
  unfold barFields timeBytes
  generalize civil bar.date = fields at *
  obtain ⟨year, month, day⟩ := fields
  dsimp only at *
  by_cases hcategory : IsMinuteCategory category
  · rw [if_pos hcategory] at hminute
    have hyears : ((year - 2004) * 2048 + month * 100 + day) / 2048 = year - 2004 := by omega
    have hdays : ((year - 2004) * 2048 + month * 100 + day) % 2048 = month * 100 + day := by
      omega
    rw [if_pos hcategory, if_pos hcategory, unpackH_packH (by omega),
      show (packH ((year - 2004) * 2048 + month * 100 + day) ++ packH bar.minute).drop 2 =
        packH bar.minute ++ [] from rfl, unpackH_packH (by omega), Nat.shiftRight_eq_div_pow,
        hyears, hdays]
    refine Prod.ext ?_ (Prod.ext ?_ (Prod.ext ?_ rfl)) <;> dsimp only <;> omega
  · rw [if_neg hcategory] at hminute
    rw [if_neg hcategory, if_neg hcategory, unpackI_packI (by omega), hminute]
    refine Prod.ext ?_ (Prod.ext ?_ (Prod.ext ?_ rfl)) <;> dsimp only <;> omega

/-- The time of a bar is read back. -/
theorem reads_timeBytes : Reads (readBarTime category) bar.timeBytes bar.instant := by
  have hlength : bar.timeBytes.length = 4 := by
    unfold timeBytes
    dsimp only
    split <;> rfl
  have hminute : bar.minute < 1440 := by
    have := bar.minute_valid
    split at this <;> omega
  refine reads_readBarTime.mpr ⟨hlength, bar.date, _, _, bar.barFields_timeBytes, bar.year_le,
    by omega, by omega, ?_⟩
  rw [instant, show bar.minute / 60 * 60 + bar.minute % 60 = bar.minute by omega]

end WireBar

/-! ## Bars -/

theorem local_readBar (category : ℤ) (instrument : TdxInstrument) (base : ℤ) :
    Local IsProtocolError (readBar category instrument base) :=
  (local_readBarTime category).bind fun _ => local_readNumber.bind fun _ =>
  local_readNumber.bind fun _ => local_readNumber.bind fun _ => local_readNumber.bind fun _ =>
  (local_takeBytes 8).bind fun _ => (Local.lift fun _ h => raises_readFloatDecimal h).bind fun _ =>
  (Local.lift fun _ h => raises_readFloatDecimal h).bind fun _ =>
  (local_takeBytes _).bind fun _ => (local_check _).bind fun _ => .pure _

/-- A price of at most 28 digits is exact. -/
theorem toRat_rawBarPrice {n : ℤ} (h : |n| < 10 ^ 28) : (rawBarPrice n).toRat = n / 1000 := by
  have heq : (n : ℚ) / ((1000 : ℤ) : ℚ) = n * 10 ^ (-3 : ℤ) := by norm_num [div_eq_mul_inv]
  rw [rawBarPrice, toRat_div _ (by decide), toRat_ofInt, toRat_ofInt, heq, rounded_eq_self h,
    ← heq, Int.cast_ofNat]

/-- The number of a volume word, with what the parser asks of it. -/
theorem exists_volume {w : FloatWord} (h : ∃ n : ℕ, w.value = n) :
    ∃ x, readFloatDecimal (packI w.bits) = .ok x ∧ (x.truncate : ℚ) = w.decoded ∧
      ¬(x < zero ∨ ¬SameValue x (ofInt x.quantize)) := by
  obtain ⟨n, hn⟩ := h
  obtain ⟨m, hm, -⟩ := w.decoded_of_natural hn
  obtain ⟨x, hx, hdecoded⟩ := readFloatDecimal_packI w
  have hvalue : x.toRat = ((m : ℤ) : ℚ) := by rw [hdecoded, hm, Int.cast_natCast]
  refine ⟨x, hx, by rw [truncate_eq hvalue, hm, Int.cast_natCast], ?_⟩
  rw [not_or, not_not]
  constructor
  · rw [lt_iff_toRat_lt, hvalue, zero, toRat_ofInt, not_lt]
    exact_mod_cast Int.natCast_nonneg m
  · rw [sameValue_iff, toRat_ofInt, quantize_eq, hvalue, roundEven_intCast]

namespace WireBar

variable {category : ℤ} {instrument : TdxInstrument} (bar : WireBar category instrument.kind)
  {base : ℤ}

/-- The record of a bar after one that closed at `base`. -/
def record (base volume : ℤ) (amount : Decimal) : TdxRawBar where
  market := instrument.market
  code := instrument.code
  timestamp := bar.instant
  openPrice := rawBarPrice (base + (bar.openPrice - base))
  high := rawBarPrice (base + (bar.openPrice - base) + (bar.high - bar.openPrice))
  low := rawBarPrice (base + (bar.openPrice - base) + (bar.low - bar.openPrice))
  close := rawBarPrice (base + (bar.openPrice - base) + (bar.close - bar.openPrice))
  volume := volume
  amount := amount

/-- A bar after one that closed at `base` is read as the bar, and leaves its close. -/
theorem exists_record (hfit : bar.PricesFit base) (hbase : base.natAbs + 2 ^ 63 < 10 ^ 28) :
    ∃ record, Reads (readBar category instrument base) (bar.bytes base) (record, bar.close) ∧
      ReadAs instrument FloatWord.decoded bar record := by
  obtain ⟨volume, hvolume, htruncate, hvalid⟩ := exists_volume bar.volume_natural
  obtain ⟨amount, hamount, hdecoded⟩ := readFloatDecimal_packI bar.amount
  have hsplit : bar.bytes base = bar.timeBytes ++ (packNumber (bar.openPrice - base) ++
      (packNumber (bar.close - bar.openPrice) ++ (packNumber (bar.high - bar.openPrice) ++
        (packNumber (bar.low - bar.openPrice) ++ ((packI bar.volume.bits ++
          packI bar.amount.bits) ++ ([] ++ ([] ++ (bar.breadth ++ ([] ++ []))))))))) := by
    simp [bytes]
  have hdata : Reads (takeBytes 8) (packI bar.volume.bits ++ packI bar.amount.bits) _ :=
    reads_takeBytes.mpr ⟨rfl, rfl⟩
  obtain ⟨hopen, hclose, hhigh, hlow⟩ := hfit
  rw [hsplit]
  refine ⟨bar.record base volume.truncate amount,
    bar.reads_timeBytes.bind <| (reads_packNumber hopen).bind <|
    (reads_packNumber hclose).bind <| (reads_packNumber hhigh).bind <|
    (reads_packNumber hlow).bind <| hdata.bind <|
    (Reads.lift hvolume).bind <| (Reads.lift hamount).bind <|
    (reads_takeBytes.mpr ⟨rfl, bar.breadth_length⟩).bind <|
    (Reads.lift (check_eq_ok.mpr hvalid : check _ _ = .ok ())).bind (reads_pure.mpr ⟨rfl, ?_⟩), ?_⟩
  · exact Prod.ext rfl (by dsimp only; omega)
  · unfold FitsNumber at hopen hclose hhigh hlow
    rw [record, add_sub_cancel, add_sub_cancel, add_sub_cancel, add_sub_cancel]
    exact {
      market := rfl
      code := rfl
      timestamp := rfl
      openPrice := toRat_rawBarPrice (by rw [abs_lt]; omega)
      high := toRat_rawBarPrice (by rw [abs_lt]; omega)
      low := toRat_rawBarPrice (by rw [abs_lt]; omega)
      close := toRat_rawBarPrice (by rw [abs_lt]; omega)
      volume := htruncate
      amount := hdecoded }

/-- The close of a bar is near the base. -/
theorem natAbs_close_le (hfit : bar.PricesFit base) : bar.close.natAbs ≤ base.natAbs + 2 ^ 63 := by
  obtain ⟨hopen, hclose, -, -⟩ := hfit
  unfold FitsNumber at hopen hclose
  omega

end WireBar

/-! ## Responses -/

section Responses

variable {category : ℤ} {instrument : TdxInstrument}

/-- Bars of any number are read as the bars, while the prices keep at most 28 digits. -/
theorem exists_records {bars : List (WireBar category instrument.kind)} {base : ℤ}
    (hfit : PricesFitFrom base bars) (hbase : base.natAbs + bars.length * 2 ^ 63 < 10 ^ 28) :
    ∃ records, ReadsFrom (readBar category instrument) base (barParts base bars) records ∧
      List.Forall₂ (WireBar.ReadAs instrument FloatWord.decoded) bars records := by
  induction bars generalizing base with
  | nil => exact ⟨[], .nil base, .nil⟩
  | cons bar bars ih =>
    rw [List.length_cons] at hbase
    obtain ⟨hbar, hbars⟩ := hfit
    have hclose := bar.natAbs_close_le hbar
    obtain ⟨record, hreads, hread⟩ := bar.exists_record hbar (by omega)
    obtain ⟨records, hreadsFrom, hreadAll⟩ := ih hbars (by omega)
    exact ⟨record :: records, .cons hreads hreadsFrom, .cons hread hreadAll⟩

theorem length_barParts {kind : InstrumentKind} (base : ℤ) (bars : List (WireBar category kind)) :
    (barParts base bars).length = bars.length := by
  induction bars generalizing base with
  | nil => rfl
  | cons bar bars ih => rw [barParts, List.length_cons, List.length_cons, ih]

theorem local_barRecords : Local IsProtocolError (barRecords category instrument) :=
  local_takeU16.bind fun _ => Local.timesFrom (local_readBar category instrument) _ _

variable (category instrument) in
/-- An accepted body is a count and as many bars, to its last byte. The first one is read
from the base zero, and each holds a valid time. -/
structure BarBody (body : List UInt8) (records : List TdxRawBar) : Prop where
  split : ∃ count parts, body = count ++ List.flatten parts ∧ count.length = 2 ∧
    unpackH count = parts.length ∧ ReadsFrom (readBar category instrument) 0 parts records ∧
    ∀ part ∈ parts, ValidBarTime category (part.take 4)

/-- What is read as a bar begins with a valid time. -/
theorem validBarTime_of_reads {base next : ℤ} {part : List UInt8} {record : TdxRawBar}
    (h : Reads (readBar category instrument base) part (record, next)) :
    ValidBarTime category (part.take 4) := by
  obtain ⟨taken, rest, timestamp, rfl, htime, -⟩ :=
    ((local_readBarTime category).reads_bind fun _ => local_readNumber.bind fun _ =>
      local_readNumber.bind fun _ => local_readNumber.bind fun _ => local_readNumber.bind fun _ =>
      (local_takeBytes 8).bind fun _ =>
      (Local.lift fun _ h => raises_readFloatDecimal h).bind fun _ =>
      (Local.lift fun _ h => raises_readFloatDecimal h).bind fun _ =>
      (local_takeBytes _).bind fun _ => (local_check _).bind fun _ => .pure _).mp h
  obtain ⟨hlength, date, hours, minute, hfields, hyear, hhours, hminute, -⟩ :=
    reads_readBarTime.mp htime
  rw [List.take_left' hlength]
  exact ⟨date, hours, minute, hfields, hyear, hhours, hminute⟩

theorem validBarTime_of_readsFrom {base : ℤ} {parts : List (List UInt8)}
    {records : List TdxRawBar} (h : ReadsFrom (readBar category instrument) base parts records) :
    ∀ part ∈ parts, ValidBarTime category (part.take 4) := by
  induction h with
  | nil => exact fun _ h => absurd h List.not_mem_nil
  | cons ha _ ih => exact List.forall_mem_cons.mpr ⟨validBarTime_of_reads ha, ih⟩

/-- The records of a body are read exactly. -/
theorem reads_barRecords {body : List UInt8} {records : List TdxRawBar} :
    Reads (barRecords category instrument) body records ↔
      BarBody category instrument body records := by
  rw [barRecords, local_takeU16.reads_bind fun _ =>
    Local.timesFrom (local_readBar category instrument) _ _]
  constructor
  · rintro ⟨count, rest, n, rfl, hcount, hrest⟩
    obtain ⟨hlength, parts, rfl, hparts⟩ :=
      (Local.reads_timesFrom (local_readBar category instrument)).mp hrest
    obtain ⟨hwidth, rfl⟩ := reads_takeU16.mp hcount
    exact ⟨⟨count, parts, rfl, hwidth, by rw [hparts.length_eq, hlength], hparts,
      validBarTime_of_readsFrom hparts⟩⟩
  · rintro ⟨count, parts, rfl, hcount, hlength, hparts, -⟩
    refine ⟨count, _, _, rfl, reads_takeU16.mpr ⟨hcount, rfl⟩, ?_⟩
    exact (Local.reads_timesFrom (local_readBar category instrument)).mpr
      ⟨by rw [hlength, hparts.length_eq], parts, rfl, hparts⟩

theorem parseBarResponse_eq_ok {body : List UInt8} {records : List TdxRawBar} :
    parseBarResponse body category instrument = .ok records ↔
      BarBody category instrument body records := by
  rw [← reads_barRecords]
  exact local_barRecords.whole_eq_ok

/-- A response of any bars is accepted. -/
theorem barBody_bytes (r : BarResponse category instrument.kind) :
    ∃ records, BarBody category instrument r.bytes records ∧
      List.Forall₂ (WireBar.ReadAs instrument FloatWord.decoded) r.bars records := by
  have hcount := unpackH_packH r.count_lt []
  rw [List.append_nil] at hcount
  obtain ⟨records, hreads, hread⟩ := exists_records r.prices_fit (by have := r.count_lt; omega)
  exact ⟨records, ⟨packH r.bars.length, _, rfl, rfl, by rw [hcount, length_barParts], hreads,
    validBarTime_of_readsFrom hreads⟩, hread⟩

end Responses

/-! ## The response as a whole -/

/-- The parser inverts the encoding of any bars, of which the volumes and the amounts are
read as the words of amounts are, a volume of at most 28 digits exactly. A body is refused
with a protocol error or taken as a whole, every bar of it read from the close of the one
before and with a valid time, and it is not accepted with bytes added or missing at its
end. -/
theorem bar_response_decodes (category : ℤ) (instrument : TdxInstrument) :
    (∀ r : BarResponse category instrument.kind, ∃ records,
      parseBarResponse r.bytes category instrument = .ok records ∧
        List.Forall₂ (WireBar.ReadAs instrument FloatWord.decoded) r.bars records) ∧
    (∀ (w : FloatWord) (n : ℕ), w.value = n → n < 10 ^ 28 → w.decoded = w.value) ∧
    (∀ w : FloatWord, 87 ≤ w.exponent ∧ w.exponent ≤ 220 → w.decoded = rounded w.value) ∧
    (∀ body, (∃ e, parseBarResponse body category instrument = .error e ∧ IsProtocolError e) ∨
      ∃ records, parseBarResponse body category instrument = .ok records ∧
        BarBody category instrument body records) ∧
    ∀ body more records records', parseBarResponse body category instrument = .ok records →
      parseBarResponse (body ++ more) category instrument = .ok records' → more = [] := by
  refine ⟨fun r => ?_, fun w n hn hlt => ?_, fun w => w.decoded_eq_rounded, fun body => ?_,
    fun body more records records' h h' => ?_⟩
  · obtain ⟨records, hbody, hread⟩ := barBody_bytes r
    exact ⟨records, parseBarResponse_eq_ok.mpr hbody, hread⟩
  · obtain ⟨m, hm, heq⟩ := w.decoded_of_natural hn
    rw [hm, hn, heq hlt]
  · cases h : parseBarResponse body category instrument with
    | error e => exact .inl ⟨e, rfl, local_barRecords.whole_raises (isProtocolError _) h⟩
    | ok records => exact .inr ⟨records, rfl, parseBarResponse_eq_ok.mp h⟩
  · exact (reads_barRecords.mpr (parseBarResponse_eq_ok.mp h)).prefix_free
      (reads_barRecords.mpr (parseBarResponse_eq_ok.mp h'))

/-- The word of `2 ^ 100`. -/
def largeVolume : FloatWord where
  bits := 1904214016
  bits_lt := by decide
  finite := by decide

theorem largeVolume_value : largeVolume.value = (2 ^ 100 : ℕ) := by
  rw [FloatWord.value, FloatWord.significand, FloatWord.power,
    show largeVolume.sign = 1 from by decide, show largeVolume.exponent = 227 from by decide,
    show largeVolume.mantissa = 0 from by decide]
  norm_num

theorem largeVolume_decoded : largeVolume.decoded ≠ largeVolume.value := by
  obtain ⟨x, hx, hdecoded⟩ := readFloatDecimal_packI largeVolume
  have hread : readFloatDecimal (packI largeVolume.bits) =
      .ok ⟨1267650600228229401496703205, 3⟩ := by decide +kernel
  cases hx.symm.trans hread
  rw [← hdecoded, largeVolume_value]
  norm_num [toRat]

/-- A minute of the year 2026 in which the market traded a large volume. -/
def largeBar : WireBar 8 .stock where
  date := ordinal 2026 8 21
  minute := 570
  openPrice := 10250
  high := 10750
  low := 10000
  close := 10500
  volume := largeVolume
  amount := largeVolume
  breadth := []
  year_le := by decide +kernel
  minute_valid := by decide +kernel
  volume_natural := ⟨2 ^ 100, largeVolume_value⟩
  breadth_length := rfl

def largeVolumeResponse : BarResponse 8 .stock where
  bars := [largeBar]
  count_lt := by decide
  prices_fit := ⟨⟨by decide, by decide, by decide, by decide⟩, trivial⟩

/-- A bar whose volume is not the number of its word. -/
theorem bar_response_of_large_volume :
    ¬∀ (category : ℤ) (instrument : TdxInstrument) (r : BarResponse category instrument.kind),
      ∃ records, parseBarResponse r.bytes category instrument = .ok records ∧
        List.Forall₂ (WireBar.ReadAs instrument FloatWord.value) r.bars records := by
  intro h
  let instrument : TdxInstrument := ⟨1, "600000", .stock, by decide⟩
  obtain ⟨records, hrecords, hexact⟩ := h 8 instrument largeVolumeResponse
  obtain ⟨records', hbody, hread⟩ := @barBody_bytes 8 instrument largeVolumeResponse
  cases hrecords.symm.trans (parseBarResponse_eq_ok.mpr hbody)
  obtain _ | ⟨hread, -⟩ := hread
  obtain _ | ⟨hexact, -⟩ := hexact
  exact largeVolume_decoded (hread.volume.symm.trans hexact.volume)

end MarketMonitor
