import Mathlib.Data.List.DropRight
import MarketMonitor.Library.Transaction
import MarketMonitor.Persistence.Values

/-!
# Block files

The parser of the TDX block artifacts : a header of 384 bytes, a count, and for each block
a name, a type and a fixed region of members. The decoding of names is a parameter : every
fact here holds of any decoder.

What a file parses to has no two memberships with one key, and each of them names an
instrument of one of the two markets (`parseBlockFile_wellFormed`).
-/

namespace MarketMonitor

open Transaction

inductive MembershipKind where
  | indexMembership | conceptMembership | themeMembership | styleFactorMembership
  | statusMembership | tdxCuratedMembership
  deriving DecidableEq, Repr

/-- A member of a block. -/
structure TdxBlockMembership where
  blockName : String
  blockType : ℕ
  membershipKind : MembershipKind
  market : ℕ
  code : String
  deriving DecidableEq, Repr

/-- The key under which a file lists a member once. -/
def TdxBlockMembership.key (m : TdxBlockMembership) : String × ℕ × String :=
  (m.blockName, m.market, m.code)

def blockFilenames : List String := ["block.dat", "block_zs.dat", "block_gn.dat", "block_fg.dat"]

def memberWidth : ℕ := 7
def memberRegionBytes : ℕ := 2800
def maxBlockMembers : ℕ := memberRegionBytes / memberWidth

def blockParseError (message : String) : Exn := ⟨.tdxBlockParseError, message⟩

/-- `text.rstrip("\x00")`. -/
def rstripNul (text : List Char) : List Char := text.rdropWhile (· = Char.ofNat 0)

/-- `data.decode("ascii", errors="ignore")`. -/
def decodeAscii (data : List UInt8) : List Char :=
  (data.filter fun b => b < 128).map fun b => Char.ofNat b.toNat

/-- `struct.unpack("<H", data[:2])`. -/
def unpackH (data : List UInt8) : ℕ := (data.getD 0 0).toNat + 256 * (data.getD 1 0).toNat

/-- `word in text`. -/
def contains (text word : String) : Bool := text.toList.tails.any word.toList.isPrefixOf

/-- `classify_block(filename, name, block_type)`. The only letters of a GBK text that the
upper case turns into S or T are s and t. -/
def classifyBlock (filename name : String) : MembershipKind :=
  if filename = "block_zs.dat" then .indexMembership
  else if filename = "block.dat" then .tdxCuratedMembership
  else if filename = "block_gn.dat" then
    if ["主题", "事件", "区域"].any (contains name) then .themeMembership
    else .conceptMembership
  else if ["ST", "停牌", "退市", "状态"].any (contains name.toUpper) then .statusMembership
  else .styleFactorMembership

/-- `len(code) == 6 and code.isdigit()`. -/
def IsCode (code : List Char) : Prop := code.length = 6 ∧ ∀ c ∈ code, c.isDigit

instance (code : List Char) : Decidable (IsCode code) := inferInstanceAs (Decidable (_ ∧ _))

/-- The market and the code of a member, before the last check of the code. -/
def splitIdentity (rawCode : List Char) (filename : String) : Except Exn (ℕ × List Char) :=
  let first := rawCode.headD ' '
  if rawCode.length = 7 ∧ first ∈ ['0', '1'] then
    .ok (if first = '1' then 1 else 0, rawCode.drop 1)
  else if ¬IsCode rawCode then .error (blockParseError "invalid TDX block code")
  else if first ∈ ['5', '6', '9'] then .ok (1, rawCode)
  else .ok (if filename = "block_zs.dat" then 1 else 0, rawCode)

/-- `_block_identity(raw_code, filename)`. -/
def blockIdentity (rawCode : List Char) (filename : String) : Except Exn (ℕ × String) := do
  let (market, code) ← splitIdentity rawCode filename
  check (IsCode code) (blockParseError "invalid TDX block code")
  return (market, String.ofList code)

/-- Keep the first membership of each key. -/
def addMembership (found : List TdxBlockMembership) (m : TdxBlockMembership) :
    List TdxBlockMembership :=
  if m.key ∈ found.map TdxBlockMembership.key then found else found ++ [m]

/-- The members of one block, from the region that holds them. -/
def parseMembers (filename name : String) (blockType : ℕ) :
    ℕ → List UInt8 → List TdxBlockMembership → Except Exn (List TdxBlockMembership)
  | 0, _, found => .ok found
  | n + 1, region, found => do
    let rawCode := rstripNul (decodeAscii (region.take memberWidth))
    let (market, code) ← blockIdentity rawCode filename
    parseMembers filename name blockType n (region.drop memberWidth)
      (addMembership found ⟨name, blockType, classifyBlock filename name, market, code⟩)

/-- The remaining blocks of a file. -/
def parseBlocks (decodeGbk : List UInt8 → List Char) (filename : String) :
    ℕ → List UInt8 → List TdxBlockMembership → Except Exn (List TdxBlockMembership)
  | 0, rest, found => do
    check (rest = []) (blockParseError "unexpected TDX block trailing bytes")
    return found
  | count + 1, rest, found => do
    check (13 ≤ rest.length) (blockParseError "truncated TDX block artifact")
    let name := String.ofList (rstripNul (decodeGbk (rest.take 9)))
    let stockCount := unpackH (rest.drop 9)
    let blockType := unpackH (rest.drop 11)
    check (stockCount ≤ maxBlockMembers)
      (blockParseError "TDX block member count exceeds fixed region")
    let region := rest.drop 13
    check (memberRegionBytes ≤ region.length) (blockParseError "truncated TDX block artifact")
    let found ← parseMembers filename name blockType stockCount region found
    parseBlocks decodeGbk filename count (region.drop memberRegionBytes) found

/-- `parse_block_file(data, filename)`. -/
def parseBlockFile (decodeGbk : List UInt8 → List Char) (data : List UInt8)
    (filename : String) : Except Exn (List TdxBlockMembership) := do
  check (filename ∈ blockFilenames) (blockParseError "unsupported TDX block file")
  check (386 ≤ data.length) (blockParseError "truncated TDX block header")
  parseBlocks decodeGbk filename (unpackH (data.drop 384)) (data.drop 386) []

/-! ## What a file parses to -/

/-- What is kept of every list of memberships the parser builds. -/
structure WellFormedMemberships (memberships : List TdxBlockMembership) : Prop where
  nodup : (memberships.map TdxBlockMembership.key).Nodup
  market : ∀ m ∈ memberships, m.market = 0 ∨ m.market = 1
  code : ∀ m ∈ memberships, IsCode m.code.toList

theorem wellFormedMemberships_nil : WellFormedMemberships [] :=
  ⟨List.nodup_nil, fun _ h => absurd h List.not_mem_nil, fun _ h => absurd h List.not_mem_nil⟩

/-- A membership with a market and a code may be added. -/
theorem WellFormedMemberships.add {found : List TdxBlockMembership} {m : TdxBlockMembership}
    (h : WellFormedMemberships found) (hmarket : m.market = 0 ∨ m.market = 1)
    (hcode : IsCode m.code.toList) : WellFormedMemberships (addMembership found m) := by
  unfold addMembership
  split
  · exact h
  · rename_i hnew
    constructor
    · rw [List.map_append, List.nodup_append]
      refine ⟨h.nodup, List.nodup_singleton _, fun k hk k' hk' heq => hnew ?_⟩
      rw [List.map_singleton, List.mem_singleton] at hk'
      exact hk' ▸ heq ▸ hk
    · intro m' hm'
      rcases List.mem_append.mp hm' with hm' | hm'
      · exact h.market m' hm'
      · exact List.mem_singleton.mp hm' ▸ hmarket
    · intro m' hm'
      rcases List.mem_append.mp hm' with hm' | hm'
      · exact h.code m' hm'
      · exact List.mem_singleton.mp hm' ▸ hcode

/-- An identity has one of the two markets and six digits. -/
theorem blockIdentity_eq_ok {rawCode : List Char} {filename code : String} {market : ℕ}
    (h : blockIdentity rawCode filename = .ok (market, code)) :
    (market = 0 ∨ market = 1) ∧ IsCode code.toList := by
  obtain ⟨⟨market', code'⟩, hraw, h⟩ := except_bind_eq_ok.mp h
  obtain ⟨_, hcode, h⟩ := except_bind_eq_ok.mp h
  cases h
  refine ⟨?_, by rw [String.toList_ofList]; exact check_eq_ok.mp hcode⟩
  simp only [splitIdentity] at hraw
  split_ifs at hraw <;> cases hraw <;> simp

/-- The parsed members of a block are well formed. -/
theorem parseMembers_wellFormed {filename name : String} {blockType n : ℕ}
    {region : List UInt8} {found memberships : List TdxBlockMembership}
    (h : parseMembers filename name blockType n region found = .ok memberships)
    (hfound : WellFormedMemberships found) : WellFormedMemberships memberships := by
  induction n generalizing region found with
  | zero =>
    cases h
    exact hfound
  | succ n ih =>
    obtain ⟨⟨market, code⟩, hidentity, h⟩ := except_bind_eq_ok.mp h
    obtain ⟨hmarket, hcode⟩ := blockIdentity_eq_ok hidentity
    exact ih h (hfound.add hmarket hcode)

variable {decodeGbk : List UInt8 → List Char}

/-- So are those of the blocks. -/
theorem parseBlocks_wellFormed {filename : String} {count : ℕ} {rest : List UInt8}
    {found memberships : List TdxBlockMembership}
    (h : parseBlocks decodeGbk filename count rest found = .ok memberships)
    (hfound : WellFormedMemberships found) : WellFormedMemberships memberships := by
  induction count generalizing rest found with
  | zero =>
    obtain ⟨_, -, h⟩ := except_bind_eq_ok.mp h
    cases h
    exact hfound
  | succ count ih =>
    obtain ⟨_, -, h⟩ := except_bind_eq_ok.mp h
    obtain ⟨_, -, h⟩ := except_bind_eq_ok.mp h
    obtain ⟨_, -, h⟩ := except_bind_eq_ok.mp h
    obtain ⟨found', hmembers, h⟩ := except_bind_eq_ok.mp h
    exact ih h (parseMembers_wellFormed hmembers hfound)

/-- A file lists each member of a block once, in one of the two markets, by a code of six
digits. -/
theorem parseBlockFile_wellFormed {data : List UInt8} {filename : String}
    {memberships : List TdxBlockMembership}
    (h : parseBlockFile decodeGbk data filename = .ok memberships) :
    filename ∈ blockFilenames ∧ WellFormedMemberships memberships := by
  obtain ⟨_, hfilename, h⟩ := except_bind_eq_ok.mp h
  obtain ⟨_, -, h⟩ := except_bind_eq_ok.mp h
  exact ⟨check_eq_ok.mp hfilename, parseBlocks_wellFormed h wellFormedMemberships_nil⟩

end MarketMonitor
