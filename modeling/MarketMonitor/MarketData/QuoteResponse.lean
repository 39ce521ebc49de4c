import MarketMonitor.MarketData.Quotes
import MarketMonitor.MarketData.WireNumbers

/-!
# Quote responses

The parser of the quote responses of TDX inverts their encoding (`quote_response_decodes`) :
a response of any quotes is parsed to these quotes, every body is refused with a protocol
error or is taken to its last byte, and an accepted body is neither the beginning of another
one nor has one for its beginning.

The amount of a quote is the product of a significand and a power of two. Where the power
has more than 28 digits it is rounded before the product is, which need not be the product
rounded once (`quote_response_of_large_amount`).
-/

namespace MarketMonitor

open Decimal Reading Transaction

/-! ## The parser -/

/-- `_price(value)` -/
def rawPrice (value : ℤ) : Decimal := ofInt value / ofInt 100

/-- `_parse_quote(body, position)` -/
def parseQuote : WireReader TdxRawQuote := do
  let head ← takeBytes 9
  let market := (head.getD 0 0).toNat
  check (market = 0 ∨ market = 1) (protocolError "invalid quote market")
  let code ← decodeCode (protocolError "invalid quote code") ((head.drop 1).take 6)
  let values ← times 9 readNumber
  let data ← takeBytes 4
  let amount ← readFloatDecimal data
  let _ ← times 24 readNumber
  let _ ← takeBytes 2
  let _ ← times 4 readNumber
  let _ ← takeBytes 4
  let price := values.getD 0 0
  return {
    market, code, amount
    price := rawPrice price
    lastClose := rawPrice (price + values.getD 1 0)
    openPrice := rawPrice (price + values.getD 2 0)
    high := rawPrice (price + values.getD 3 0)
    low := rawPrice (price + values.getD 4 0)
    volumeLots := values.getD 7 0
    currentVolumeLots := values.getD 8 0
    serverTimeRaw := values.getD 5 0 }

/-- The records of a response : two bytes that nothing reads, a count, and the quotes. -/
def quoteRecords : WireReader (List TdxRawQuote) := do
  let _ ← takeBytes 2
  let count ← takeU16
  times count parseQuote

/-- `TdxProtocol.parse_quote_response(body)` -/
def parseQuoteResponse (body : List UInt8) : Except Exn (List TdxRawQuote) := do
  check (4 ≤ body.length) (protocolError "truncated quote response")
  whole (protocolError "unexpected quote response trailing bytes") quoteRecords body

/-! ## The encoding -/

/-- What a response says of a quote, its prices in hundredths, with the fields that the
parser leaves out. -/
structure QuoteFields where
  market : ℕ
  code : List Char
  active : ℕ
  price : ℤ
  lastClose : ℤ
  openPrice : ℤ
  high : ℤ
  low : ℤ
  serverTimeRaw : ℤ
  reserved : ℤ
  volumeLots : ℤ
  currentVolumeLots : ℤ
  amount : FloatWord
  depth : List ℤ
  flags : List UInt8
  speeds : List ℤ
  turnover : List UInt8

/-- The numbers before the amount. The prices are differences from the current one. -/
def QuoteFields.values (q : QuoteFields) : List ℤ :=
  [q.price, q.lastClose - q.price, q.openPrice - q.price, q.high - q.price, q.low - q.price,
    q.serverTimeRaw, q.reserved, q.volumeLots, q.currentVolumeLots]

/-- A quote that fits the wire format. -/
structure WireQuote extends QuoteFields where
  market_valid : market = 0 ∨ market = 1
  code_valid : IsCode code
  values_fit : ∀ v ∈ toQuoteFields.values, FitsNumber v
  depth_fits : depth.length = 24 ∧ ∀ v ∈ depth, FitsNumber v
  speeds_fit : speeds.length = 4 ∧ ∀ v ∈ speeds, FitsNumber v
  flags_length : flags.length = 2
  turnover_length : turnover.length = 4

namespace WireQuote

def head (q : WireQuote) : List UInt8 :=
  UInt8.ofNat q.market :: (asciiBytes q.code ++ packH q.active)

def bytes (q : WireQuote) : List UInt8 :=
  q.head ++ (packNumbers q.values ++ (packI q.amount.bits ++ (packNumbers q.depth ++
    (q.flags ++ (packNumbers q.speeds ++ q.turnover)))))

/-- The record is the quote, with its amount as `amountOf` reads it. -/
structure ReadAs (amountOf : FloatWord → ℚ) (q : WireQuote) (record : TdxRawQuote) : Prop where
  market : record.market = q.market
  code : record.code = String.ofList q.code
  price : record.price.toRat = q.price / 100
  lastClose : record.lastClose.toRat = q.lastClose / 100
  openPrice : record.openPrice.toRat = q.openPrice / 100
  high : record.high.toRat = q.high / 100
  low : record.low.toRat = q.low / 100
  volumeLots : record.volumeLots = q.volumeLots
  currentVolumeLots : record.currentVolumeLots = q.currentVolumeLots
  amount : record.amount.toRat = amountOf q.amount
  serverTimeRaw : record.serverTimeRaw = q.serverTimeRaw

end WireQuote

/-- A response of any quotes. -/
structure QuoteResponse where
  header : List UInt8
  quotes : List WireQuote
  header_length : header.length = 2
  count_lt : quotes.length < 65536

def QuoteResponse.bytes (r : QuoteResponse) : List UInt8 :=
  r.header ++ (packH r.quotes.length ++ (r.quotes.map WireQuote.bytes).flatten)

/-! ## Reading a quote -/

/-- A price of at most 28 digits is exact. -/
theorem toRat_rawPrice {n : ℤ} (h : |n| < 10 ^ 28) : (rawPrice n).toRat = n / 100 := by
  have heq : (n : ℚ) / ((100 : ℤ) : ℚ) = n * 10 ^ (-2 : ℤ) := by norm_num [div_eq_mul_inv]
  rw [rawPrice, toRat_div _ (by decide), toRat_ofInt, toRat_ofInt, heq, rounded_eq_self h, ← heq,
    Int.cast_ofNat]

/-- A price is exact when it is a difference from another one on the wire. -/
theorem toRat_rawPrice_add {m n : ℤ} (hm : FitsNumber m) (hn : FitsNumber (n - m)) :
    (rawPrice (m + (n - m))).toRat = n / 100 := by
  unfold FitsNumber at hm hn
  rw [add_sub_cancel]
  exact toRat_rawPrice (by rw [abs_lt]; omega)

theorem local_check {p : Prop} [Decidable p] (message : String) :
    Local IsProtocolError (liftM (check p (protocolError message)) : WireReader Unit) :=
  .lift fun e h => by
    unfold check at h
    split at h
    · cases h
    · cases h
      rfl

theorem local_parseQuote : Local IsProtocolError parseQuote :=
  (local_takeBytes 9).bind fun _ => (local_check _).bind fun _ =>
  (Local.lift fun _ h => by rw [decodeCode_eq_error h]; rfl).bind fun _ =>
  (local_readNumber.times 9).bind fun _ => (local_takeBytes 4).bind fun _ =>
  (Local.lift fun _ h => raises_readFloatDecimal h).bind fun _ =>
  (local_readNumber.times 24).bind fun _ => (local_takeBytes 2).bind fun _ =>
  (local_readNumber.times 4).bind fun _ => (local_takeBytes 4).bind fun _ => .pure _

namespace WireQuote

variable (q : WireQuote)

theorem length_head : q.head.length = 9 := by
  have := q.code_valid.1
  simp [head, asciiBytes, packH, this]

/-- The fields of the head, as the parser reads them. -/
theorem head_fields : (q.head.getD 0 0).toNat = q.market ∧
    (q.head.drop 1).take 6 = asciiBytes q.code := by
  have hlength : (asciiBytes q.code).length = 6 := by
    rw [asciiBytes, List.length_map]
    exact q.code_valid.1
  constructor
  · rw [head, List.getD_cons_zero, UInt8.toNat_ofNat']
    have := q.market_valid
    omega
  · rw [head, List.drop_one, List.tail_cons, List.take_left' hlength]

/-- The record of a quote. -/
def record (amount : Decimal) : TdxRawQuote where
  market := q.market
  code := String.ofList q.code
  price := rawPrice q.price
  lastClose := rawPrice (q.price + (q.lastClose - q.price))
  openPrice := rawPrice (q.price + (q.openPrice - q.price))
  high := rawPrice (q.price + (q.high - q.price))
  low := rawPrice (q.price + (q.low - q.price))
  volumeLots := q.volumeLots
  currentVolumeLots := q.currentVolumeLots
  amount := amount
  serverTimeRaw := q.serverTimeRaw

/-- The bytes of a quote are read as its record. -/
theorem reads_bytes {amount : Decimal} (h : readFloatDecimal (packI q.amount.bits) = .ok amount) :
    Reads parseQuote q.bytes (q.record amount) := by
  have hsplit : q.bytes = q.head ++ ([] ++ ([] ++ (packNumbers q.values ++
      (packI q.amount.bits ++ ([] ++ (packNumbers q.depth ++ (q.flags ++
        (packNumbers q.speeds ++ (q.turnover ++ []))))))))) := by
    simp [bytes]
  obtain ⟨hmarket, hcode⟩ := q.head_fields
  have hdepth := reads_packNumbers q.depth_fits.2
  have hspeeds := reads_packNumbers q.speeds_fit.2
  rw [q.depth_fits.1] at hdepth
  rw [q.speeds_fit.1] at hspeeds
  rw [hsplit]
  refine (reads_takeBytes.mpr ⟨rfl, q.length_head⟩).bind ?_
  dsimp only
  rw [hmarket, hcode]
  refine (Reads.lift (check_eq_ok.mpr q.market_valid : check _ _ = .ok ())).bind ?_
  refine (Reads.lift (decodeCode_asciiBytes q.code_valid _)).bind ?_
  refine (reads_packNumbers q.values_fit).bind ?_
  refine (reads_takeBytes.mpr ⟨rfl, length_packI _⟩).bind ?_
  refine (Reads.lift h).bind ?_
  refine hdepth.bind ?_
  refine (reads_takeBytes.mpr ⟨rfl, q.flags_length⟩).bind ?_
  refine hspeeds.bind ?_
  refine (reads_takeBytes.mpr ⟨rfl, q.turnover_length⟩).bind ?_
  exact Reads.pure _

/-- The record has the values of the quote. -/
theorem readAs_record {amount : Decimal} {amountOf : FloatWord → ℚ}
    (h : amount.toRat = amountOf q.amount) : ReadAs amountOf q (q.record amount) := by
  have hfits := q.values_fit
  simp only [QuoteFields.values, List.forall_mem_cons] at hfits
  obtain ⟨hprice, hlastClose, hopenPrice, hhigh, hlow, -⟩ := hfits
  exact {
    market := rfl
    code := rfl
    price := toRat_rawPrice (by unfold FitsNumber at hprice; rw [abs_lt]; omega)
    lastClose := toRat_rawPrice_add hprice hlastClose
    openPrice := toRat_rawPrice_add hprice hopenPrice
    high := toRat_rawPrice_add hprice hhigh
    low := toRat_rawPrice_add hprice hlow
    volumeLots := rfl
    currentVolumeLots := rfl
    amount := h
    serverTimeRaw := rfl }

/-- A quote on the wire is read as the quote. -/
theorem exists_record : ∃ record, Reads parseQuote q.bytes record ∧
    ReadAs FloatWord.decoded q record := by
  obtain ⟨amount, hamount, hdecoded⟩ := readFloatDecimal_packI q.amount
  exact ⟨q.record amount, q.reads_bytes hamount, q.readAs_record hdecoded⟩

end WireQuote

/-! ## Reading a response -/

theorem local_quoteRecords : Local IsProtocolError quoteRecords :=
  (local_takeBytes 2).bind fun _ => local_takeU16.bind fun _ => local_parseQuote.times _

/-- An accepted body is a header, a count, and as many quotes, to its last byte. -/
structure QuoteBody (body : List UInt8) (records : List TdxRawQuote) : Prop where
  split : ∃ header count parts, body = header ++ (count ++ List.flatten parts) ∧
    header.length = 2 ∧ count.length = 2 ∧ unpackH count = parts.length ∧
    List.Forall₂ (Reads parseQuote) parts records

/-- The records of a body are read exactly. -/
theorem reads_quoteRecords {body : List UInt8} {records : List TdxRawQuote} :
    Reads quoteRecords body records ↔ QuoteBody body records := by
  unfold quoteRecords
  rw [(local_takeBytes 2).reads_bind fun _ => local_takeU16.bind fun _ => local_parseQuote.times _]
  constructor
  · rintro ⟨header, rest, _, rfl, hheader, hrest⟩
    obtain ⟨count, rest, n, rfl, hcount, hrest⟩ :=
      (local_takeU16.reads_bind fun _ => local_parseQuote.times _).mp hrest
    obtain ⟨hlength, parts, rfl, hparts⟩ := local_parseQuote.reads_times.mp hrest
    obtain ⟨hwidth, rfl⟩ := reads_takeU16.mp hcount
    exact ⟨⟨header, count, parts, rfl, (reads_takeBytes.mp hheader).2, hwidth,
      by rw [hparts.length_eq, hlength], hparts⟩⟩
  · rintro ⟨header, count, parts, rfl, hheader, hcount, hlength, hparts⟩
    refine ⟨header, _, header, rfl, reads_takeBytes.mpr ⟨rfl, hheader⟩, ?_⟩
    refine (reads_takeU16.mpr ⟨hcount, rfl⟩).bind ?_
    exact local_parseQuote.reads_times.mpr
      ⟨by rw [hlength, hparts.length_eq], parts, rfl, hparts⟩

/-- A response is parsed exactly when it is a body of quotes. -/
theorem parseQuoteResponse_eq_ok {body : List UInt8} {records : List TdxRawQuote} :
    parseQuoteResponse body = .ok records ↔ QuoteBody body records := by
  rw [← reads_quoteRecords, ← local_quoteRecords.whole_eq_ok]
  constructor
  · intro h
    obtain ⟨_, -, h⟩ := except_bind_eq_ok.mp h
    exact h
  · intro h
    refine except_bind_eq_ok.mpr ⟨(), check_eq_ok.mpr ?_, h⟩
    obtain ⟨header, count, parts, rfl, hheader, hcount, -⟩ :=
      (reads_quoteRecords.mp (local_quoteRecords.whole_eq_ok.mp h)).split
    rw [List.length_append, List.length_append]
    omega

theorem parseQuoteResponse_raises {body : List UInt8} {e : Exn}
    (h : parseQuoteResponse body = .error e) : IsProtocolError e := by
  unfold parseQuoteResponse check at h
  split_ifs at h
  · exact local_quoteRecords.whole_raises (isProtocolError _) h
  · cases h
    rfl

/-- A response of any quotes is accepted. -/
theorem quoteBody_bytes (r : QuoteResponse) : ∃ records, QuoteBody r.bytes records ∧
    List.Forall₂ (WireQuote.ReadAs FloatWord.decoded) r.quotes records := by
  choose record hreads hread using WireQuote.exists_record
  have hcount := unpackH_packH r.count_lt []
  rw [List.append_nil] at hcount
  refine ⟨r.quotes.map record, ⟨r.header, packH r.quotes.length, r.quotes.map WireQuote.bytes, rfl,
    r.header_length, rfl, by rw [hcount, List.length_map], ?_⟩, ?_⟩
  · rw [List.forall₂_map_left_iff, List.forall₂_map_right_iff, List.forall₂_same]
    exact fun q _ => hreads q
  · rw [List.forall₂_map_right_iff, List.forall₂_same]
    exact fun q _ => hread q

theorem quoteBody_prefix_free {body more : List UInt8} {records records' : List TdxRawQuote}
    (h : QuoteBody body records) (h' : QuoteBody (body ++ more) records') : more = [] := by
  rw [← reads_quoteRecords] at h h'
  exact h.prefix_free h'

/-! ## The response as a whole -/

/-- The parser inverts the encoding of any quotes. An amount is the rounded product of its
significand and its rounded power of two, and the number of its word rounded once where the
power has at most 28 digits. A body is refused with a protocol error or taken as a whole, and
it is not accepted with bytes added or missing at its end. -/
theorem quote_response_decodes :
    (∀ r : QuoteResponse, ∃ records, parseQuoteResponse r.bytes = .ok records ∧
      List.Forall₂ (WireQuote.ReadAs FloatWord.decoded) r.quotes records) ∧
    (∀ w : FloatWord, 87 ≤ w.exponent ∧ w.exponent ≤ 220 → w.decoded = rounded w.value) ∧
    (∀ body, (∃ e, parseQuoteResponse body = .error e ∧ IsProtocolError e) ∨
      ∃ records, parseQuoteResponse body = .ok records ∧ QuoteBody body records) ∧
    ∀ body more records records', parseQuoteResponse body = .ok records →
      parseQuoteResponse (body ++ more) = .ok records' → more = [] := by
  refine ⟨fun r => ?_, fun w => w.decoded_eq_rounded, fun body => ?_,
    fun body more records records' h h' => ?_⟩
  · obtain ⟨records, hbody, hread⟩ := quoteBody_bytes r
    exact ⟨records, parseQuoteResponse_eq_ok.mpr hbody, hread⟩
  · cases h : parseQuoteResponse body with
    | error e => exact .inl ⟨e, rfl, parseQuoteResponse_raises h⟩
    | ok records => exact .inr ⟨records, rfl, parseQuoteResponse_eq_ok.mp h⟩
  · exact quoteBody_prefix_free (parseQuoteResponse_eq_ok.mp h) (parseQuoteResponse_eq_ok.mp h')

/-- The word of `(1 + 3 / 2 ^ 23) * 2 ^ 94`. -/
def largeAmount : FloatWord where
  bits := 1853882371
  bits_lt := by decide
  finite := by decide

/-- A quote of ones with a large amount. -/
def largeQuote : WireQuote where
  market := 1
  code := ['6', '0', '0', '0', '0', '0']
  active := 0
  price := 1
  lastClose := 1
  openPrice := 1
  high := 1
  low := 1
  serverTimeRaw := 93000
  reserved := -1
  volumeLots := 1
  currentVolumeLots := 1
  amount := largeAmount
  depth := List.replicate 24 0
  flags := [0, 0]
  speeds := [0, 0, 0, 0]
  turnover := [0, 0, 0, 0]
  market_valid := by decide
  code_valid := by decide
  values_fit := by decide
  depth_fits := by decide
  speeds_fit := by decide
  flags_length := rfl
  turnover_length := rfl

/-- The amount is rounded twice, and comes out different. -/
theorem largeAmount_decoded : largeAmount.decoded ≠ rounded largeAmount.value := by
  have hvalue : largeAmount.value = (⟨(2 ^ 23 + 3) * 2 ^ 71, 0⟩ : Decimal).toRat := by
    rw [FloatWord.value, FloatWord.significand, FloatWord.power,
      show largeAmount.sign = 1 from by decide, show largeAmount.exponent = 221 from by decide,
      show largeAmount.mantissa = 3 from by decide, toRat]
    norm_num
  obtain ⟨x, hx, hdecoded⟩ := readFloatDecimal_packI largeAmount
  have hread : readFloatDecimal (packI largeAmount.bits) =
      .ok ⟨1980704771211580870285380812, 1⟩ := by decide +kernel
  have hfix : fix ⟨(2 ^ 23 + 3) * 2 ^ 71, 0⟩ = ⟨1980704771211580870285380813, 1⟩ := by
    decide +kernel
  cases hx.symm.trans hread
  rw [← hdecoded, hvalue, ← toRat_fix, hfix]
  norm_num [toRat]

/-- A quote whose amount is not the number of its word rounded to 28 digits. -/
theorem quote_response_of_large_amount :
    ¬∀ r : QuoteResponse, ∃ records, parseQuoteResponse r.bytes = .ok records ∧
      List.Forall₂ (WireQuote.ReadAs fun w => rounded w.value) r.quotes records := by
  intro h
  obtain ⟨records, hrecords, hexact⟩ := h ⟨[0, 0], [largeQuote], rfl, by decide⟩
  obtain ⟨records', hbody, hread⟩ := quoteBody_bytes ⟨[0, 0], [largeQuote], rfl, by decide⟩
  cases hrecords.symm.trans (parseQuoteResponse_eq_ok.mpr hbody)
  obtain _ | ⟨hread, -⟩ := hread
  obtain _ | ⟨hexact, -⟩ := hexact
  exact largeAmount_decoded (hread.amount.symm.trans hexact.amount)

end MarketMonitor
