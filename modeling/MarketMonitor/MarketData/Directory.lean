import MarketMonitor.MarketData.Quotes
import MarketMonitor.MarketData.Wire

/-!
# The directory of securities

For each market the client asks how many securities there are, and for pages of them at
every thousandth place. What a page holds is up to the server, and the client takes it as it
is : a short page makes a short directory (`securityDirectory_of_short_page`). The directory
is what was announced exactly when every page has its share, unless the client raises
(`securityDirectory_complete_iff`).
-/

namespace MarketMonitor

open Transaction

/-! ## Responses -/

/-- `TdxDirectoryRecord` -/
structure TdxDirectoryRecord where
  code : String
  name : String
  volumeUnit : ℕ
  decimalPoint : ℕ
  deriving DecidableEq, Repr

/-- `parse_security_count(body)` -/
def parseSecurityCount (body : List UInt8) : Except Exn ℕ := do
  check (body.length = 2) (protocolError "invalid security count response")
  let (count, _) ← readU16 body
  return count

/-- A record of 29 bytes, `<6sH8s4sBI4s`. -/
def parseDirectoryRecord (decodeGbk : List UInt8 → List Char) (bytes : List UInt8) :
    Except Exn TdxDirectoryRecord := do
  let code ← decodeCode (protocolError "invalid directory code") (bytes.take 6)
  return {
    code
    name := String.ofList (rstripNul (decodeGbk ((bytes.drop 8).take 8)))
    volumeUnit := unpackH (bytes.drop 6)
    decimalPoint := (bytes.getD 20 0).toNat }

/-- The remaining records of a page. -/
def parseDirectoryRecords (decodeGbk : List UInt8 → List Char) :
    ℕ → List UInt8 → Except Exn (List TdxDirectoryRecord)
  | 0, _ => return []
  | count + 1, rest => do
    let record ← parseDirectoryRecord decodeGbk (rest.take 29)
    let records ← parseDirectoryRecords decodeGbk count (rest.drop 29)
    return record :: records

/-- `parse_security_list(body)` -/
def parseSecurityList (decodeGbk : List UInt8 → List Char) (body : List UInt8) :
    Except Exn (List TdxDirectoryRecord) := do
  let (count, rest) ← readU16 body
  check (body.length = 2 + count * 29)
    (protocolError "truncated security directory response")
  parseDirectoryRecords decodeGbk count rest

/-! ## Securities -/

/-- `TdxSecurity`, with the checks of its constructor. -/
structure TdxSecurity where
  market : ℕ
  code : String
  name : String
  kind : InstrumentKind
  listingStatus : String
  tradingStatus : String
  valid : (market = 0 ∨ market = 1) ∧ IsCode code.toList
  named : ¬blank name

/-- A security is its columns. -/
theorem TdxSecurity.eq_iff {a b : TdxSecurity} : a = b ↔
    (a.market, a.code, a.name, a.kind, a.listingStatus, a.tradingStatus) =
      (b.market, b.code, b.name, b.kind, b.listingStatus, b.tradingStatus) := by
  cases a
  cases b
  simp only [TdxSecurity.mk.injEq, Prod.mk.injEq]

instance : DecidableEq TdxSecurity := fun _ _ => decidable_of_iff _ TdxSecurity.eq_iff.symm

/-- `_kind(market, code)` -/
def securityKind (market : ℕ) (code : String) : InstrumentKind :=
  if (market = 1 ∧ code = "000001") ∨ (market = 0 ∧ code ∈ ["399001", "399006"]) then .index
  else if (market = 1 ∧ code.toList.take 2 ∈ [['5', '1'], ['5', '6']]) ∨
    (market = 0 ∧ code.toList.take 2 ∈ [['1', '5'], ['1', '6']]) then .etf
  else .stock

/-- The security of a record, or what the checks of its constructor raise. -/
def directorySecurity (market : ℕ) (record : TdxDirectoryRecord) : Except Exn TdxSecurity :=
  let name := if record.name = "" then record.code else record.name
  if hmarket : market = 0 ∨ market = 1 then
    if hcode : IsCode record.code.toList then
      if hname : blank name then
        .error (valueError "TDX security name must not be empty")
      else
        .ok {
          market
          code := record.code
          name
          kind := securityKind market record.code
          listingStatus := "DISCOVERED"
          tradingStatus := "TRADING"
          valid := ⟨hmarket, hcode⟩
          named := hname }
    else .error (valueError "TDX code must contain six digits")
  else .error (valueError "TDX market must be Shenzhen (0) or Shanghai (1)")

/-! ## The client -/

/-- `_market(value)` -/
def checkMarket (value : ℕ) : Except Exn Unit :=
  check (value ∈ [0, 1]) (protocolError "invalid TDX market")

/-- `security_count_request(market)` -/
def securityCountRequest (market : ℕ) : Except Exn (List UInt8) := do
  checkMarket market
  return [0x0c, 0x0c, 0x18, 0x6c, 0x00, 0x01, 0x08, 0x00, 0x08, 0x00, 0x4e, 0x04] ++
    packH market ++ [0x75, 0xc7, 0x33, 0x01]

/-- `security_list_request(market, start)` -/
def securityListRequest (market start : ℕ) : Except Exn (List UInt8) := do
  checkMarket market
  check (start ≤ 0xFFFF) (protocolError "security directory start is outside uint16 range")
  return [0x0c, 0x01, 0x18, 0x64, 0x01, 0x01, 0x06, 0x00, 0x06, 0x00, 0x50, 0x04] ++
    (packH market ++ packH start)

/-- What the transport answers to a request. -/
abbrev TdxTransport := List UInt8 → Except Exn (List UInt8)

/-- `range(0, count, 1000)` -/
def pageStarts (count : ℕ) : List ℕ := (List.range ((count + 999) / 1000)).map (1000 * ·)

section Client

variable (decodeGbk : List UInt8 → List Char) (transport : TdxTransport)

/-- The securities a page lists. -/
def pageSecurities (market : ℕ) (body : List UInt8) : Except Exn (List TdxSecurity) := do
  let records ← parseSecurityList decodeGbk body
  records.mapM (directorySecurity market)

/-- The pages of a market from some places on, and the requests for them. -/
def directoryPages (market : ℕ) : List ℕ → Except Exn (List TdxSecurity × List (List UInt8))
  | [] => return ([], [])
  | start :: starts => do
    let payload ← securityListRequest market start
    let body ← transport payload
    let securities ← pageSecurities decodeGbk market body
    let (rest, payloads) ← directoryPages market starts
    return (securities ++ rest, payload :: payloads)

/-- The securities of a market, and the requests for them. -/
def marketDirectory (market : ℕ) : Except Exn (List TdxSecurity × List (List UInt8)) := do
  let payload ← securityCountRequest market
  let body ← transport payload
  let count ← parseSecurityCount body
  let (securities, payloads) ← directoryPages decodeGbk transport market (pageStarts count)
  return (securities, payload :: payloads)

/-- `security_directory()`, with the requests it makes in order. -/
def securityDirectory : Except Exn (List TdxSecurity × List (List UInt8)) := do
  let (shenzhen, payloads) ← marketDirectory decodeGbk transport 0
  let (shanghai, payloads') ← marketDirectory decodeGbk transport 1
  return (shenzhen ++ shanghai, payloads ++ payloads')

/-! ## A complete directory -/

/-- The number of securities a market announces. -/
def announced (market : ℕ) : Except Exn ℕ := do
  parseSecurityCount (← transport (← securityCountRequest market))

/-- The securities on the page of a market that starts at a place. -/
def page (market start : ℕ) : Except Exn (List TdxSecurity) := do
  pageSecurities decodeGbk market (← transport (← securityListRequest market start))

/-- As many securities as the market announces, and from every place that is asked for the
ones the page lists. -/
structure MarketComplete (market : ℕ) (securities : List TdxSecurity) : Prop where
  market_eq : ∀ security ∈ securities, security.market = market
  count : announced transport market = .ok securities.length
  listed : ∀ start ∈ pageStarts securities.length,
    page decodeGbk transport market start = .ok ((securities.drop start).take 1000)

/-- The requests for a market that announces so many securities. -/
def marketRequests (market count : ℕ) : List (Except Exn (List UInt8)) :=
  securityCountRequest market :: (pageStarts count).map (securityListRequest market)

/-- Both markets are complete, and no request is made twice. -/
def DirectoryComplete (securities : List TdxSecurity) (log : List (List UInt8)) : Prop :=
  ∃ shenzhen shanghai, securities = shenzhen ++ shanghai ∧
    MarketComplete decodeGbk transport 0 shenzhen ∧
    MarketComplete decodeGbk transport 1 shanghai ∧
    log.map Except.ok =
      marketRequests 0 shenzhen.length ++ marketRequests 1 shanghai.length ∧ log.Nodup

/-- Some request is not answered, or with a body that is not accepted. -/
def AnswersFail : Prop :=
  ∃ market ∈ [0, 1], (∃ e, announced transport market = .error e) ∨
    ∃ count, announced transport market = .ok count ∧
      ∃ start ∈ pageStarts count, ∃ e, page decodeGbk transport market start = .error e

/-- Every page lists the securities of its thousand places. -/
def PagesFull : Prop :=
  ∀ market ∈ [0, 1], ∀ count, announced transport market = .ok count →
    ∀ start ∈ pageStarts count, ∀ securities,
      page decodeGbk transport market start = .ok securities →
        securities.length = min 1000 (count - start)

end Client

/-! ## Pages -/

/-- Pages of a size, the last of them as long as what is left, are the slices of their
concatenation. -/
theorem flatten_pages {α : Type} {size : ℕ} (hsize : 0 < size) {pages : List (List α)} :
    ∀ {count : ℕ}, pages.length = (count + (size - 1)) / size →
      (∀ k (h : k < pages.length), pages[k].length = min size (count - size * k)) →
      pages.flatten.length = count ∧
        ∀ k (h : k < pages.length), (pages.flatten.drop (size * k)).take size = pages[k] := by
  induction pages with
  | nil =>
    intro count hpages _
    have hzero : count = 0 := by
      by_contra hne
      have := (Nat.div_eq_zero_iff).mp hpages.symm
      omega
    exact ⟨hzero.symm, fun k h => absurd h (Nat.not_lt_zero k)⟩
  | cons first rest ih =>
    intro count hpages hlength
    have hfirst : first.length = min size count := by
      have := hlength 0 (Nat.zero_lt_succ _)
      rwa [List.getElem_cons_zero, Nat.mul_zero, Nat.sub_zero] at this
    have hcount : size ≤ count ∨ count < size ∧ rest = [] := by
      refine (Nat.lt_or_ge count size).symm.imp_right fun hlt => ⟨hlt, ?_⟩
      have hdiv : (count + (size - 1)) / size < 2 := Nat.div_lt_of_lt_mul (by omega)
      rw [List.length_cons] at hpages
      exact List.length_eq_zero_iff.mp (by omega)
    have hrest : rest.length = (count - size + (size - 1)) / size := by
      rcases hcount with hle | ⟨hlt, rfl⟩
      · rw [List.length_cons, show count + (size - 1) = count - size + (size - 1) + size by omega,
          Nat.add_div_right _ hsize] at hpages
        exact Nat.succ.inj hpages
      · exact (Nat.div_eq_of_lt (by omega)).symm
    obtain ⟨htotal, hslices⟩ := ih hrest fun k h => by
      have := hlength (k + 1) (by simpa using h)
      rw [List.getElem_cons_succ] at this
      rw [this, Nat.mul_succ, Nat.sub_sub, Nat.add_comm]
    refine ⟨by rw [List.flatten_cons, List.length_append, htotal, hfirst]; omega, ?_⟩
    intro k h
    rw [List.flatten_cons]
    cases k with
    | zero =>
      rw [Nat.mul_zero, List.drop_zero, List.getElem_cons_zero]
      rcases hcount with hle | ⟨-, rfl⟩
      · exact List.take_left' (by omega)
      · rw [List.flatten_nil, List.append_nil]
        exact List.take_of_length_le (by omega)
    | succ k =>
      rw [List.getElem_cons_succ, ← hslices k (by simpa using h), Nat.mul_succ, Nat.add_comm,
        ← List.drop_drop]
      rcases hcount with hle | ⟨-, rfl⟩
      · rw [List.drop_left' (by omega)]
      · simp at h

section Client

variable {decodeGbk : List UInt8 → List Char} {transport : TdxTransport}

/-- The pages of a market are listed one after the other. -/
theorem directoryPages_eq_ok {market : ℕ} {starts : List ℕ} {securities : List TdxSecurity}
    {payloads : List (List UInt8)} :
    directoryPages decodeGbk transport market starts = .ok (securities, payloads) ↔
      ∃ pages, List.Forall₂ (fun start listed => page decodeGbk transport market start = .ok listed)
          starts pages ∧ securities = pages.flatten ∧
        payloads.map Except.ok = starts.map (securityListRequest market) := by
  induction starts generalizing securities payloads with
  | nil =>
    constructor
    · intro h
      cases h
      exact ⟨[], .nil, rfl, rfl⟩
    · rintro ⟨_, ⟨⟩, rfl, hpayloads⟩
      obtain rfl := List.map_eq_nil_iff.mp hpayloads
      rfl
  | cons start starts ih =>
    simp only [directoryPages, except_bind_eq_ok, Prod.exists, ih, List.forall₂_cons_left_iff]
    constructor
    · rintro ⟨payload, hpayload, body, hbody, listed, hlisted, rest, payloads', ⟨pages, hpages,
        rfl, hpayloads⟩, h⟩
      cases h
      refine ⟨listed :: pages, ⟨listed, pages, ?_, hpages, rfl⟩, rfl, ?_⟩
      · simp only [page, except_bind_eq_ok]
        exact ⟨payload, hpayload, body, hbody, hlisted⟩
      · rw [List.map_cons, List.map_cons, hpayloads, hpayload]
    · rintro ⟨_, ⟨listed, pages, hlisted, hpages, rfl⟩, rfl, hpayloads⟩
      simp only [page, except_bind_eq_ok] at hlisted
      obtain ⟨payload, hpayload, body, hbody, hlisted⟩ := hlisted
      obtain ⟨payload', payloads', rfl⟩ := List.exists_cons_of_ne_nil
        (show payloads ≠ [] by rintro rfl; cases hpayloads)
      rw [List.map_cons, List.map_cons, List.cons.injEq, hpayload] at hpayloads
      obtain ⟨hsame, hpayloads⟩ := hpayloads
      cases hsame
      exact ⟨payload, hpayload, body, hbody, listed, hlisted, _, _,
        ⟨pages, hpages, rfl, hpayloads⟩, rfl⟩

/-- The directory of a market is the pages of the announced count. -/
theorem marketDirectory_eq_ok {market : ℕ} {securities : List TdxSecurity}
    {payloads : List (List UInt8)} :
    marketDirectory decodeGbk transport market = .ok (securities, payloads) ↔
      ∃ count pages, announced transport market = .ok count ∧
        List.Forall₂ (fun start listed => page decodeGbk transport market start = .ok listed)
          (pageStarts count) pages ∧ securities = pages.flatten ∧
        payloads.map Except.ok = marketRequests market count := by
  simp only [marketDirectory, announced, marketRequests, except_bind_eq_ok, Prod.exists,
    directoryPages_eq_ok]
  constructor
  · rintro ⟨payload, hpayload, body, hbody, count, hcount, _, payloads', ⟨pages, hpages, rfl,
      hpayloads⟩, h⟩
    cases h
    exact ⟨count, pages, ⟨payload, hpayload, body, hbody, hcount⟩, hpages, rfl,
      by rw [List.map_cons, hpayloads, hpayload]⟩
  · rintro ⟨count, pages, ⟨payload, hpayload, body, hbody, hcount⟩, hpages, rfl, hpayloads⟩
    obtain ⟨payload', payloads', rfl⟩ := List.exists_cons_of_ne_nil
      (show payloads ≠ [] by rintro rfl; cases hpayloads)
    rw [List.map_cons, List.cons.injEq, hpayload] at hpayloads
    obtain ⟨hsame, hpayloads⟩ := hpayloads
    cases hsame
    exact ⟨payload, hpayload, body, hbody, count, hcount, _, payloads',
      ⟨pages, hpages, rfl, hpayloads⟩, rfl⟩

theorem market_of_directorySecurity {market : ℕ} {record : TdxDirectoryRecord}
    {security : TdxSecurity} (h : directorySecurity market record = .ok security) :
    security.market = market := by
  unfold directorySecurity at h
  dsimp only at h
  split_ifs at h
  all_goals
    cases h
    rfl

theorem market_of_page {market start : ℕ} {securities : List TdxSecurity}
    (h : page decodeGbk transport market start = .ok securities) :
    ∀ security ∈ securities, security.market = market := by
  simp only [page, pageSecurities, except_bind_eq_ok, mapM_eq_ok_iff] at h
  obtain ⟨_, _, _, _, records, -, hsecurities⟩ := h
  intro security hmem
  obtain ⟨k, hk, rfl⟩ := List.getElem_of_mem hmem
  exact market_of_directorySecurity (hsecurities.get (hsecurities.length_eq ▸ hk) hk)

theorem announced_lt {market count : ℕ} (h : announced transport market = .ok count) :
    count < 65536 := by
  simp only [announced, parseSecurityCount, readU16, except_bind_eq_ok, Prod.exists] at h
  obtain ⟨_, _, _, _, _, _, count, rest, ⟨bytes, _, _, h⟩, h'⟩ := h
  cases h
  cases h'
  exact unpackH_lt bytes

theorem lt_of_mem_pageStarts {count start : ℕ} (h : start ∈ pageStarts count) : start < count := by
  obtain ⟨k, hk, rfl⟩ := List.mem_map.mp h
  rw [List.mem_range] at hk
  omega

theorem length_pageStarts (count : ℕ) : (pageStarts count).length = (count + 999) / 1000 := by
  rw [pageStarts, List.length_map, List.length_range]

theorem getElem_pageStarts {count k : ℕ} (h : k < (pageStarts count).length) :
    (pageStarts count)[k] = 1000 * k := by
  simp [pageStarts]

/-! ## Requests -/

theorem securityCountRequest_eq {market : ℕ} (hmarket : market ∈ [0, 1]) :
    securityCountRequest market =
      .ok ([0x0c, 0x0c, 0x18, 0x6c, 0x00, 0x01, 0x08, 0x00, 0x08, 0x00, 0x4e, 0x04] ++
        packH market ++ [0x75, 0xc7, 0x33, 0x01]) := by
  rw [securityCountRequest, checkMarket, check, if_pos hmarket]
  rfl

theorem securityListRequest_eq {market start : ℕ} (hmarket : market ∈ [0, 1])
    (hstart : start < 65536) :
    securityListRequest market start =
      .ok ([0x0c, 0x01, 0x18, 0x64, 0x01, 0x01, 0x06, 0x00, 0x06, 0x00, 0x50, 0x04] ++
        (packH market ++ packH start)) := by
  rw [securityListRequest, checkMarket, check, if_pos hmarket, check,
    if_pos (show start ≤ 0xFFFF by omega)]
  rfl

theorem securityListRequest_inj {market market' start start' : ℕ} (hmarket : market ∈ [0, 1])
    (hmarket' : market' ∈ [0, 1]) (hstart : start < 65536) (hstart' : start' < 65536)
    (h : securityListRequest market start = securityListRequest market' start') :
    market = market' ∧ start = start' := by
  rw [securityListRequest_eq hmarket hstart, securityListRequest_eq hmarket' hstart',
    Except.ok.injEq, List.append_cancel_left_eq] at h
  obtain ⟨hpack, hpack'⟩ := List.append_inj h rfl
  have hsmall : ∀ m ∈ [0, 1], m < 65536 := by decide
  exact ⟨packH_inj (hsmall _ hmarket) (hsmall _ hmarket') hpack, packH_inj hstart hstart' hpack'⟩

theorem securityCountRequest_ne {market market' start : ℕ} (hmarket : market ∈ [0, 1])
    (hmarket' : market' ∈ [0, 1]) (hstart : start < 65536) :
    securityCountRequest market ≠ securityListRequest market' start := by
  rw [securityCountRequest_eq hmarket, securityListRequest_eq hmarket' hstart]
  simp [packH]

theorem nodup_pageStarts (count : ℕ) : (pageStarts count).Nodup :=
  List.nodup_range.map fun _ _ h => by omega

/-- No page is requested twice. -/
theorem nodup_marketRequests {count count' : ℕ} (hcount : count < 65536)
    (hcount' : count' < 65536) :
    (marketRequests 0 count ++ marketRequests 1 count').Nodup := by
  have hstart : ∀ n < 65536, ∀ start ∈ pageStarts n, start < 65536 := fun n hn start hstart =>
    (lt_of_mem_pageStarts hstart).trans hn
  have hmarket : ∀ market ∈ [0, 1], ∀ n < 65536, (marketRequests market n).Nodup := by
    intro market hmarket n hn
    refine List.nodup_cons.mpr ⟨fun hmem => ?_, ?_⟩
    · obtain ⟨start, hmem, heq⟩ := List.mem_map.mp hmem
      exact securityCountRequest_ne hmarket hmarket (hstart n hn start hmem) heq.symm
    · exact (nodup_pageStarts n).map_on fun start hmem start' hmem' heq =>
        (securityListRequest_inj hmarket hmarket (hstart n hn start hmem)
          (hstart n hn start' hmem') heq).2
  refine (hmarket 0 (by simp) count hcount).append (hmarket 1 (by simp) count' hcount') ?_
  intro request hmem hmem'
  rcases List.mem_cons.mp hmem with rfl | hmem
  · rcases List.mem_cons.mp hmem' with heq | hmem'
    · exact absurd heq (by decide)
    · obtain ⟨start, hmem', heq⟩ := List.mem_map.mp hmem'
      exact securityCountRequest_ne (by simp) (by simp) (hstart _ hcount' start hmem') heq.symm
  · obtain ⟨start, hstarts, rfl⟩ := List.mem_map.mp hmem
    rcases List.mem_cons.mp hmem' with heq | hmem'
    · exact securityCountRequest_ne (by simp) (by simp) (hstart _ hcount start hstarts) heq.symm
    · obtain ⟨start', hstarts', heq⟩ := List.mem_map.mp hmem'
      have := securityListRequest_inj (by simp) (by simp) (hstart _ hcount' start' hstarts')
        (hstart _ hcount start hstarts) heq
      omega

/-! ## Completeness -/

/-- Pages with their shares make a complete market. -/
theorem marketComplete_of_full {market count : ℕ} {pages : List (List TdxSecurity)}
    (hcount : announced transport market = .ok count)
    (hpages : List.Forall₂
      (fun start listed => page decodeGbk transport market start = .ok listed)
      (pageStarts count) pages)
    (hfull : ∀ start ∈ pageStarts count, ∀ securities,
      page decodeGbk transport market start = .ok securities →
        securities.length = min 1000 (count - start)) :
    MarketComplete decodeGbk transport market pages.flatten := by
  have hlength : pages.length = (count + 999) / 1000 := by
    rw [← hpages.length_eq, length_pageStarts]
  have hpage : ∀ k (h : k < pages.length),
      page decodeGbk transport market (1000 * k) = .ok pages[k] := by
    intro k h
    have hk : k < (pageStarts count).length := hpages.length_eq ▸ h
    have := hpages.get hk h
    rwa [List.get_eq_getElem, List.get_eq_getElem, getElem_pageStarts] at this
  have hmem : ∀ k, k < pages.length → 1000 * k ∈ pageStarts count := by
    intro k h
    exact List.mem_map.mpr ⟨k, List.mem_range.mpr (hlength ▸ h), rfl⟩
  obtain ⟨htotal, hslices⟩ := @flatten_pages _ 1000 (by decide) _ _ hlength
    fun k h => hfull _ (hmem k h) _ (hpage k h)
  refine ⟨?_, htotal ▸ hcount, ?_⟩
  · intro security hsecurity
    obtain ⟨listed, hlisted, hsecurity⟩ := List.mem_flatten.mp hsecurity
    obtain ⟨k, hk, rfl⟩ := List.getElem_of_mem hlisted
    exact market_of_page (hpage k hk) security hsecurity
  · intro start hstart
    rw [htotal] at hstart
    obtain ⟨k, hk, rfl⟩ := List.mem_map.mp hstart
    have hk : k < pages.length := hlength ▸ List.mem_range.mp hk
    rw [hslices k hk]
    exact hpage k hk

/-- Every page but the last is full. -/
theorem length_of_marketComplete {market count : ℕ} {securities : List TdxSecurity}
    (h : MarketComplete decodeGbk transport market securities)
    (hcount : announced transport market = .ok count) : ∀ start ∈ pageStarts count, ∀ listed,
      page decodeGbk transport market start = .ok listed →
        listed.length = min 1000 (count - start) := by
  intro start hstart listed hlisted
  obtain rfl : securities.length = count := by
    have := h.count.symm.trans hcount
    cases this
    rfl
  have := (h.listed start hstart).symm.trans hlisted
  cases this
  rw [List.length_take, List.length_drop]

/-- The directory is those of the two markets. -/
theorem securityDirectory_eq_ok {securities : List TdxSecurity} {log : List (List UInt8)} :
    securityDirectory decodeGbk transport = .ok (securities, log) ↔
      ∃ shenzhen payloads shanghai payloads',
        marketDirectory decodeGbk transport 0 = .ok (shenzhen, payloads) ∧
        marketDirectory decodeGbk transport 1 = .ok (shanghai, payloads') ∧
        securities = shenzhen ++ shanghai ∧ log = payloads ++ payloads' := by
  simp only [securityDirectory, except_bind_eq_ok, Prod.exists]
  constructor
  · rintro ⟨shenzhen, payloads, h₀, shanghai, payloads', h₁, h⟩
    cases h
    exact ⟨shenzhen, payloads, shanghai, payloads', h₀, h₁, rfl, rfl⟩
  · rintro ⟨shenzhen, payloads, shanghai, payloads', h₀, h₁, rfl, rfl⟩
    exact ⟨shenzhen, payloads, h₀, shanghai, payloads', h₁, rfl⟩

/-- An error of the directory is one of a page. -/
theorem exists_page_error {market : ℕ} {starts : List ℕ} {e : Exn}
    (h : directoryPages decodeGbk transport market starts = .error e) :
    ∃ start ∈ starts, ∃ e', page decodeGbk transport market start = .error e' := by
  induction starts with
  | nil => cases h
  | cons start starts ih =>
    cases hpage : page decodeGbk transport market start with
    | error e' => exact ⟨start, List.mem_cons_self, e', hpage⟩
    | ok listed =>
      simp only [page, except_bind_eq_ok] at hpage
      obtain ⟨payload, hpayload, body, hbody, hlisted⟩ := hpage
      rw [directoryPages, hpayload] at h
      change (transport payload >>= _) = _ at h
      rw [hbody] at h
      change (pageSecurities decodeGbk market body >>= _) = _ at h
      rw [hlisted] at h
      change (directoryPages decodeGbk transport market starts >>= _) = _ at h
      cases hrest : directoryPages decodeGbk transport market starts with
      | error e' =>
        obtain ⟨start', hstart', hfail⟩ := ih (by rw [hrest] at h; cases h; exact hrest)
        exact ⟨start', List.mem_cons_of_mem start hstart', hfail⟩
      | ok rest => rw [hrest] at h; cases h

/-- When no answer fails, the client returns. -/
theorem exists_marketDirectory (h : ¬AnswersFail decodeGbk transport) {market : ℕ}
    (hmarket : market ∈ [0, 1]) : ∃ securities payloads,
      marketDirectory decodeGbk transport market = .ok (securities, payloads) := by
  cases hcount : announced transport market with
  | error e => exact absurd ⟨market, hmarket, .inl ⟨e, hcount⟩⟩ h
  | ok count =>
    cases hpages : directoryPages decodeGbk transport market (pageStarts count) with
    | error e => exact absurd ⟨market, hmarket, .inr ⟨count, hcount, exists_page_error hpages⟩⟩ h
    | ok result =>
      obtain ⟨pages, hlisted, hsecurities, hpayloads⟩ := directoryPages_eq_ok.mp hpages
      simp only [announced, except_bind_eq_ok] at hcount
      obtain ⟨payload, hpayload, body, hbody, hparse⟩ := hcount
      refine ⟨result.1, payload :: result.2, ?_⟩
      simp only [marketDirectory, except_bind_eq_ok]
      exact ⟨payload, hpayload, body, hbody, count, hparse, result, hpages, rfl⟩

/-- When the client returns, no answer has failed. -/
theorem not_answersFail {securities : List TdxSecurity} {log : List (List UInt8)}
    (h : securityDirectory decodeGbk transport = .ok (securities, log)) :
    ¬AnswersFail decodeGbk transport := by
  obtain ⟨shenzhen, payloads, shanghai, payloads', h₀, h₁, -⟩ := securityDirectory_eq_ok.mp h
  rintro ⟨market, hmarket, hfail⟩
  have hreturns : ∃ securities payloads,
      marketDirectory decodeGbk transport market = .ok (securities, payloads) := by
    rcases List.mem_cons.mp hmarket with rfl | hmarket
    · exact ⟨_, _, h₀⟩
    · obtain rfl := List.mem_singleton.mp hmarket
      exact ⟨_, _, h₁⟩
  obtain ⟨securities, payloads, hreturns⟩ := hreturns
  obtain ⟨count, pages, hcount, hpages, -, -⟩ := marketDirectory_eq_ok.mp hreturns
  rcases hfail with ⟨e, herror⟩ | ⟨count', hcount', start, hstart, e, herror⟩
  · cases hcount.symm.trans herror
  · cases hcount.symm.trans hcount'
    obtain ⟨k, hk, rfl⟩ := List.getElem_of_mem hstart
    cases (hpages.get hk (hpages.length_eq ▸ hk)).symm.trans herror

/-- The client returns complete directories only, exactly when some answer fails or every page
has its share. -/
theorem securityDirectory_complete_iff (decodeGbk : List UInt8 → List Char)
    (transport : TdxTransport) :
    (∀ securities log, securityDirectory decodeGbk transport = .ok (securities, log) →
      DirectoryComplete decodeGbk transport securities log) ↔
      AnswersFail decodeGbk transport ∨ PagesFull decodeGbk transport := by
  constructor
  · intro h
    refine or_iff_not_imp_left.mpr fun hanswers => ?_
    obtain ⟨shenzhen, payloads, h₀⟩ := @exists_marketDirectory _ _ hanswers 0 (by simp)
    obtain ⟨shanghai, payloads', h₁⟩ := @exists_marketDirectory _ _ hanswers 1 (by simp)
    obtain ⟨shenzhen', shanghai', -, hshenzhen, hshanghai, -⟩ := h _ _
      (securityDirectory_eq_ok.mpr ⟨_, _, _, _, h₀, h₁, rfl, rfl⟩)
    intro market hmarket count hcount
    rcases List.mem_cons.mp hmarket with rfl | hmarket
    · exact length_of_marketComplete hshenzhen hcount
    · obtain rfl := List.mem_singleton.mp hmarket
      exact length_of_marketComplete hshanghai hcount
  · rintro h securities log hdirectory
    obtain ⟨shenzhen, payloads, shanghai, payloads', h₀, h₁, rfl, rfl⟩ :=
      securityDirectory_eq_ok.mp hdirectory
    obtain ⟨count, pages, hcount, hpages, rfl, hpayloads⟩ := marketDirectory_eq_ok.mp h₀
    obtain ⟨count', pages', hcount', hpages', rfl, hpayloads'⟩ := marketDirectory_eq_ok.mp h₁
    have hfull := h.resolve_left (not_answersFail hdirectory)
    have hcomplete := marketComplete_of_full hcount hpages (hfull 0 (by simp) count hcount)
    have hcomplete' := marketComplete_of_full hcount' hpages' (hfull 1 (by simp) count' hcount')
    have hlog : (payloads ++ payloads').map Except.ok =
        marketRequests 0 count ++ marketRequests 1 count' := by
      rw [List.map_append, hpayloads, hpayloads']
    have hnodup : (payloads ++ payloads').Nodup := by
      refine List.Nodup.of_map (Except.ok (ε := Exn)) ?_
      rw [hlog]
      exact nodup_marketRequests (announced_lt hcount) (announced_lt hcount')
    refine ⟨_, _, rfl, hcomplete, hcomplete', ?_, hnodup⟩
    have hlength := hcomplete.count.symm.trans hcount
    have hlength' := hcomplete'.count.symm.trans hcount'
    cases hlength
    cases hlength'
    exact hlog

end Client

/-- A server that announces one security in Shenzhen, and none in Shanghai, and lists none. -/
def shortTransport : TdxTransport := fun payload =>
  if .ok payload = securityCountRequest 0 then .ok [1, 0] else .ok [0, 0]

/-- The directory of such a server is empty, and nothing is raised. -/
theorem securityDirectory_of_short_page :
    ¬∀ securities log, securityDirectory decodeAscii shortTransport = .ok (securities, log) →
      DirectoryComplete decodeAscii shortTransport securities log := by
  intro h
  obtain ⟨log, hempty⟩ : ∃ log, securityDirectory decodeAscii shortTransport = .ok ([], log) := by
    have hfst : (securityDirectory decodeAscii shortTransport).map Prod.fst = .ok [] := by
      decide +kernel
    cases hdirectory : securityDirectory decodeAscii shortTransport with
    | error e =>
      rw [hdirectory] at hfst
      cases hfst
    | ok result =>
      rw [hdirectory] at hfst
      exact ⟨result.2, congrArg Except.ok (Prod.ext (Except.ok.inj hfst) rfl)⟩
  obtain ⟨shenzhen, shanghai, hnil, hshenzhen, -⟩ := h [] log hempty
  obtain ⟨rfl, -⟩ := List.append_eq_nil_iff.mp hnil.symm
  have hone : announced shortTransport 0 = .ok 1 := by decide +kernel
  cases hone.symm.trans hshenzhen.count

end MarketMonitor
