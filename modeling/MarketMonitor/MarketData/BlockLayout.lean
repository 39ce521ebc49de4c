import MarketMonitor.MarketData.Wire

/-!
# What a block file encodes

The layout of a block file as a list of blocks, and what a member slot of seven bytes
encodes : six digits and a NUL, or a market and six digits.

The parser leaves the bytes of a slot out that are not ASCII before it reads the slot. A slot
that is a member without such a byte is accepted with it (`parseBlockFile_of_damaged_slot`).
A file is parsed to what it encodes, or refused, exactly when this does not happen in it
(`parseBlockFile_exact_iff`).
-/

namespace MarketMonitor

open Transaction

/-! ## The layout -/

/-- The member slots at the front of a region. -/
def memberSlots (n : ℕ) (region : List UInt8) : List (List UInt8) :=
  (List.range n).map fun i => (region.drop (memberWidth * i)).take memberWidth

/-- A block as it stands in a file. -/
structure BlockRecord where
  name : List UInt8
  stockCount : ℕ
  blockType : ℕ
  region : List UInt8
  name_length : name.length = 9
  stockCount_le : stockCount ≤ maxBlockMembers
  blockType_lt : blockType < 65536
  region_length : region.length = memberRegionBytes

namespace BlockRecord

def bytes (b : BlockRecord) : List UInt8 :=
  b.name ++ (packH b.stockCount ++ (packH b.blockType ++ b.region))

/-- The member slots a block announces. -/
def slots (b : BlockRecord) : List (List UInt8) := memberSlots b.stockCount b.region

/-- The name of a block, as the parser decodes it. -/
def blockName (decodeGbk : List UInt8 → List Char) (b : BlockRecord) : String :=
  String.ofList (rstripNul (decodeGbk b.name))

theorem length_bytes (b : BlockRecord) : b.bytes.length = 2813 := by
  simp [bytes, packH, b.name_length, b.region_length, memberRegionBytes]

theorem stockCount_lt (b : BlockRecord) : b.stockCount < 65536 :=
  b.stockCount_le.trans_lt (by decide)

theorem length_of_mem_slots {b : BlockRecord} {slot : List UInt8} (h : slot ∈ b.slots) :
    slot.length = 7 := by
  obtain ⟨i, hi, rfl⟩ := List.mem_map.mp h
  have hle := (List.mem_range.mp hi).trans_le b.stockCount_le
  have hlength := b.region_length
  unfold maxBlockMembers memberRegionBytes memberWidth at *
  rw [List.length_take, List.length_drop]
  omega

end BlockRecord

/-- A file of some blocks : a header, how many there are, and the blocks. -/
def IsBlockFile (data : List UInt8) (blocks : List BlockRecord) : Prop :=
  ∃ header, header.length = 384 ∧ blocks.length < 65536 ∧
    data = header ++ (packH blocks.length ++ blocks.flatMap BlockRecord.bytes)

/-! ## Slots -/

/-- The market of a code that is listed without one. -/
def plainMarket (filename : String) (code : List Char) : ℕ :=
  if code.headD ' ' ∈ ['5', '6', '9'] then 1 else if filename = "block_zs.dat" then 1 else 0

/-- What a slot encodes. -/
inductive SlotEncodes (filename : String) : List UInt8 → ℕ → String → Prop
  | plain {code : List Char} (hcode : IsCode code) :
    SlotEncodes filename (asciiBytes code ++ [0]) (plainMarket filename code) (String.ofList code)
  | prefixed {code : List Char} {digit : Char} {market : ℕ}
      (hmarket : digit = '0' ∧ market = 0 ∨ digit = '1' ∧ market = 1) (hcode : IsCode code) :
    SlotEncodes filename (asciiBytes (digit :: code)) market (String.ofList code)

/-- The member the parser reads in a slot. -/
def slotIdentity (filename : String) (slot : List UInt8) : Except Exn (ℕ × String) :=
  blockIdentity (rstripNul (decodeAscii slot)) filename

/-- A slot that is a member when the bytes that are not ASCII are left out. -/
def Readable (filename : String) (slot : List UInt8) : Prop := (slotIdentity filename slot).isOk

/-! ## What is parsed exactly -/

/-- The memberships are the ones a file encodes, each of them once. -/
def ExactlyEncoded (decodeGbk : List UInt8 → List Char) (data : List UInt8) (filename : String)
    (memberships : List TdxBlockMembership) : Prop :=
  (memberships.map TdxBlockMembership.key).Nodup ∧
    ∃ blocks, IsBlockFile data blocks ∧
      (∀ b ∈ blocks, ∀ slot ∈ b.slots, ∃ market code, SlotEncodes filename slot market code) ∧
      ∀ name market code, (name, market, code) ∈ memberships.map TdxBlockMembership.key ↔
        ∃ b ∈ blocks, ∃ slot ∈ b.slots, b.blockName decodeGbk = name ∧
          SlotEncodes filename slot market code

/-- Every announced slot is a member when the bytes that are not ASCII are left out, and
some announced slot has such a byte. -/
def OnlyLenientlyReadable (data : List UInt8) (filename : String) : Prop :=
  filename ∈ blockFilenames ∧ ∃ blocks, IsBlockFile data blocks ∧
    (∀ b ∈ blocks, ∀ slot ∈ b.slots, Readable filename slot) ∧
    ∃ b ∈ blocks, ∃ slot ∈ b.slots, ∃ byte ∈ slot, 128 ≤ byte

/-! ## Reading slots -/

/-- The identity of a raw code. -/
theorem blockIdentity_eq_ok_iff_split {rawCode : List Char} {filename code : String}
    {market : ℕ} : blockIdentity rawCode filename = .ok (market, code) ↔
      ∃ digits, splitIdentity rawCode filename = .ok (market, digits) ∧ IsCode digits ∧
        code = String.ofList digits := by
  constructor
  · intro h
    obtain ⟨⟨market', digits⟩, hsplit, h⟩ := except_bind_eq_ok.mp h
    obtain ⟨_, hcode, h⟩ := except_bind_eq_ok.mp h
    cases h
    exact ⟨digits, hsplit, check_eq_ok.mp hcode, rfl⟩
  · rintro ⟨digits, hsplit, hcode, rfl⟩
    exact except_bind_eq_ok.mpr ⟨(market, digits), hsplit,
      except_bind_eq_ok.mpr ⟨(), check_eq_ok.mpr hcode, rfl⟩⟩

/-- The identities of a text : a market and a code, or a code alone. -/
theorem blockIdentity_eq_ok_iff {rawCode : List Char} {filename code : String} {market : ℕ} :
    blockIdentity rawCode filename = .ok (market, code) ↔
      (∃ digit digits, rawCode = digit :: digits ∧
        (digit = '0' ∧ market = 0 ∨ digit = '1' ∧ market = 1) ∧ IsCode digits ∧
          code = String.ofList digits) ∨
      (IsCode rawCode ∧ market = plainMarket filename rawCode ∧ code = String.ofList rawCode) := by
  rw [blockIdentity_eq_ok_iff_split]
  by_cases hlead : rawCode.length = 7 ∧ rawCode.headD ' ' ∈ ['0', '1']
  · obtain ⟨digit, digits, rfl⟩ := List.exists_cons_of_length_eq_add_one hlead.1
    have hsplit : splitIdentity (digit :: digits) filename =
        .ok (if digit = '1' then 1 else 0, digits) := if_pos hlead
    have hdigit := hlead.2
    simp only [List.headD_cons, List.mem_cons, List.not_mem_nil, or_false] at hdigit
    rw [hsplit]
    constructor
    · rintro ⟨digits', h, hcode, rfl⟩
      cases h
      refine .inl ⟨digit, digits, rfl, ?_, hcode, rfl⟩
      rcases hdigit with rfl | rfl
      · exact .inl ⟨rfl, rfl⟩
      · exact .inr ⟨rfl, rfl⟩
    · rintro (⟨_, _, h, hmarket, hcode, rfl⟩ | ⟨h, -⟩)
      · cases h
        refine ⟨digits, ?_, hcode, rfl⟩
        rcases hmarket with ⟨rfl, rfl⟩ | ⟨rfl, rfl⟩ <;> rfl
      · have hsix := h.1
        omega
  · by_cases hcode : IsCode rawCode
    · have hsplit : splitIdentity rawCode filename =
          .ok (plainMarket filename rawCode, rawCode) := by
        simp only [splitIdentity, if_neg hlead, plainMarket, hcode, not_true, if_false]
        split_ifs <;> rfl
      rw [hsplit]
      constructor
      · rintro ⟨digits, h, -, rfl⟩
        cases h
        exact .inr ⟨hcode, rfl, rfl⟩
      · rintro (⟨digit, digits, rfl, -, hdigits, -⟩ | ⟨-, rfl, rfl⟩)
        · have hsix := hcode.1
          rw [List.length_cons, hdigits.1] at hsix
          omega
        · exact ⟨rawCode, rfl, hcode, rfl⟩
    · have hsplit : splitIdentity rawCode filename =
          .error (blockParseError "invalid TDX block code") := by
        simp only [splitIdentity, if_neg hlead, hcode, not_false_eq_true, if_true]
      rw [hsplit]
      constructor
      · rintro ⟨_, h, -⟩
        cases h
      · rintro (⟨digit, digits, rfl, hmarket, hdigits, -⟩ | ⟨h, -⟩)
        · refine absurd ⟨by rw [List.length_cons, hdigits.1], ?_⟩ hlead
          rcases hmarket with ⟨rfl, -⟩ | ⟨rfl, -⟩ <;> simp
        · exact absurd h hcode

/-! ## Slots without other bytes -/

theorem isDigit_ne_nul {c : Char} (h : c.isDigit = true) : c ≠ Char.ofNat 0 := by
  rintro rfl
  exact absurd h (by decide)

theorem rstripNul_append_nul (text : List Char) :
    rstripNul (text ++ [Char.ofNat 0]) = rstripNul text :=
  List.rdropWhile_concat_pos _ _ _ (by simp)

theorem rstripNul_concat {text : List Char} {c : Char} (h : c ≠ Char.ofNat 0) :
    rstripNul (text ++ [c]) = text ++ [c] :=
  List.rdropWhile_concat_neg _ _ _ (by simpa using h)

theorem IsCode.rstripNul {code : List Char} (h : IsCode code) : rstripNul code = code := by
  obtain ⟨init, last, rfl⟩ := List.eq_nil_or_concat code |>.resolve_left fun hnil => by
    have := h.1
    rw [hnil] at this
    cases this
  rw [List.concat_eq_append, rstripNul_concat (isDigit_ne_nul (h.2 last (by simp)))]

/-- A slot of ASCII bytes is read as what it encodes. -/
theorem slotIdentity_eq_ok_iff {filename code : String} {slot : List UInt8} {market : ℕ}
    (hlength : slot.length = 7) (hascii : ∀ b ∈ slot, b < 128) :
    slotIdentity filename slot = .ok (market, code) ↔ SlotEncodes filename slot market code := by
  rw [slotIdentity, blockIdentity_eq_ok_iff]
  constructor
  · intro h
    have hslot := asciiBytes_decodeAscii hascii
    have htext : (decodeAscii slot).length = 7 := by
      rw [← hlength, ← congrArg List.length hslot, asciiBytes, List.length_map]
    generalize decodeAscii slot = text at *
    obtain ⟨init, last, rfl⟩ := List.eq_nil_or_concat text |>.resolve_left fun hnil => by
      rw [hnil] at htext
      cases htext
    have hinit : init.length = 6 := by simpa using htext
    subst hslot
    by_cases hlast : last = Char.ofNat 0
    · subst hlast
      rw [List.concat_eq_append, rstripNul_append_nul] at h
      have hlead : rstripNul init <+: init := List.rdropWhile_prefix _ _
      rcases h with ⟨digit, digits, htext, -, hcode, -⟩ | ⟨hcode, rfl, rfl⟩
      · have hle := hlead.length_le
        rw [htext, List.length_cons, hcode.1] at hle
        omega
      · have heq := hlead.eq_of_length (hcode.1.trans hinit.symm)
        rw [heq] at hcode ⊢
        rw [List.concat_eq_append, asciiBytes, List.map_append]
        exact .plain hcode
    · rw [List.concat_eq_append, rstripNul_concat hlast] at h
      rcases h with ⟨digit, digits, htext, hmarket, hcode, rfl⟩ | ⟨hcode, -⟩
      · rw [List.concat_eq_append, htext]
        exact .prefixed hmarket hcode
      · have hsix := hcode.1
        rw [List.length_append, hinit] at hsix
        cases hsix
  · intro h
    cases h with
    | @plain code hcode =>
      have hdecode : decodeAscii (asciiBytes code ++ [0]) = code ++ [Char.ofNat 0] := by
        have := @decodeAscii_asciiBytes (code ++ [Char.ofNat 0]) fun c hc => by
          rcases List.mem_append.mp hc with hc | hc
          · exact hcode.ascii c hc
          · rw [List.mem_singleton.mp hc]
            decide
        rwa [asciiBytes, List.map_append] at this
      rw [hdecode, rstripNul_append_nul, hcode.rstripNul]
      exact .inr ⟨hcode, rfl, rfl⟩
    | @prefixed code digit market hmarket hcode =>
      have hdigit : digit.isDigit = true := by
        rcases hmarket with ⟨rfl, -⟩ | ⟨rfl, -⟩ <;> decide
      have hdigits : ∀ c ∈ digit :: code, c.isDigit = true := by
        intro c hc
        rcases List.mem_cons.mp hc with rfl | hc
        · exact hdigit
        · exact hcode.2 c hc
      rw [decodeAscii_asciiBytes fun c hc => isDigit_toNat_lt (hdigits c hc)]
      obtain ⟨init, last, hcons⟩ := List.eq_nil_or_concat (digit :: code) |>.resolve_left
        (List.cons_ne_nil _ _)
      rw [hcons, List.concat_eq_append, rstripNul_concat (isDigit_ne_nul (hdigits last (by
        rw [hcons]
        simp))), ← List.concat_eq_append, ← hcons]
      exact .inl ⟨digit, code, rfl, hmarket, hcode, rfl⟩

/-- What a slot encodes is ASCII. -/
theorem SlotEncodes.ascii {filename code : String} {slot : List UInt8} {market : ℕ}
    (h : SlotEncodes filename slot market code) : ∀ b ∈ slot, b < 128 := by
  cases h with
  | plain hcode =>
    intro b hb
    rcases List.mem_append.mp hb with hb | hb
    · exact ascii_asciiBytes hcode.ascii b hb
    · rw [List.mem_singleton.mp hb]
      decide
  | @prefixed code digit market hmarket hcode =>
    refine ascii_asciiBytes fun c hc => ?_
    rcases List.mem_cons.mp hc with rfl | hc
    · rcases hmarket with ⟨rfl, -⟩ | ⟨rfl, -⟩ <;> decide
    · exact hcode.ascii c hc

/-! ## Slots of a file -/

theorem memberSlots_succ (n : ℕ) (region : List UInt8) :
    memberSlots (n + 1) region =
      region.take memberWidth :: memberSlots n (region.drop memberWidth) := by
  rw [memberSlots, List.range_succ_eq_map, List.map_cons, List.map_map]
  congr 1
  refine List.map_congr_left fun i _ => ?_
  rw [Function.comp_apply, List.drop_drop, Nat.mul_succ, Nat.add_comm]

/-- A membership adds its key. -/
theorem key_mem_addMembership {found : List TdxBlockMembership} {m : TdxBlockMembership}
    {key : String × ℕ × String} :
    key ∈ (addMembership found m).map TdxBlockMembership.key ↔
      key ∈ found.map TdxBlockMembership.key ∨ key = m.key := by
  unfold addMembership
  split
  case isTrue h =>
    refine ⟨.inl, ?_⟩
    rintro (hkey | rfl)
    · exact hkey
    · exact h
  case isFalse =>
    rw [List.map_append, List.mem_append, List.map_singleton, List.mem_singleton]

theorem memberSlots_take {n m : ℕ} {region : List UInt8} (h : memberWidth * n ≤ m) :
    memberSlots n (region.take m) = memberSlots n region := by
  refine List.map_congr_left fun i hi => ?_
  have hlt := List.mem_range.mp hi
  unfold memberWidth at *
  rw [List.drop_take, List.take_take, Nat.min_eq_left (by omega)]

theorem readable_iff {filename : String} {slot : List UInt8} :
    Readable filename slot ↔ ∃ market code, slotIdentity filename slot = .ok (market, code) := by
  constructor
  · intro h
    obtain ⟨⟨market, code⟩, hidentity⟩ := eq_ok_of_except_isOk h
    exact ⟨market, code, hidentity⟩
  · rintro ⟨market, code, h⟩
    rw [Readable, h]
    rfl

/-- What a region is parsed to : what was found before, and the members in the slots. -/
theorem parseMembers_eq_ok {filename name : String} {blockType n : ℕ} {region : List UInt8}
    {found memberships : List TdxBlockMembership}
    (h : parseMembers filename name blockType n region found = .ok memberships) :
    (∀ slot ∈ memberSlots n region, Readable filename slot) ∧
      ∀ key, key ∈ memberships.map TdxBlockMembership.key ↔
        key ∈ found.map TdxBlockMembership.key ∨ ∃ slot ∈ memberSlots n region,
          ∃ market code, slotIdentity filename slot = .ok (market, code) ∧
            key = (name, market, code) := by
  induction n generalizing region found with
  | zero =>
    cases h
    simp [memberSlots]
  | succ n ih =>
    obtain ⟨⟨market, code⟩, hidentity, h⟩ := except_bind_eq_ok.mp h
    obtain ⟨hreadable, hkeys⟩ := ih h
    rw [memberSlots_succ]
    have hslot : slotIdentity filename (region.take memberWidth) = .ok (market, code) := hidentity
    refine ⟨List.forall_mem_cons.mpr ⟨readable_iff.mpr ⟨market, code, hslot⟩, hreadable⟩, ?_⟩
    intro key
    rw [hkeys, key_mem_addMembership, List.exists_mem_cons_iff, or_assoc]
    refine or_congr_right (or_congr_left ?_)
    rw [hslot]
    constructor
    · rintro rfl
      exact ⟨market, code, rfl, rfl⟩
    · rintro ⟨_, _, h, rfl⟩
      cases h
      rfl

/-- Readable slots are parsed. -/
theorem exists_parseMembers {filename name : String} {blockType n : ℕ} {region : List UInt8}
    (h : ∀ slot ∈ memberSlots n region, Readable filename slot)
    (found : List TdxBlockMembership) :
    ∃ memberships, parseMembers filename name blockType n region found = .ok memberships := by
  induction n generalizing region found with
  | zero => exact ⟨found, rfl⟩
  | succ n ih =>
    rw [memberSlots_succ, List.forall_mem_cons, readable_iff] at h
    obtain ⟨⟨market, code, hslot⟩, hrest⟩ := h
    obtain ⟨memberships, hmembers⟩ := ih hrest
      (addMembership found ⟨name, blockType, classifyBlock filename name, market, code⟩)
    exact ⟨memberships, except_bind_eq_ok.mpr ⟨(market, code), hslot, hmembers⟩⟩

/-! ## Blocks of a file -/

/-- Two bytes are packed as they were. -/
theorem packH_unpackH {bytes : List UInt8} (h : 2 ≤ bytes.length) :
    packH (unpackH bytes) = bytes.take 2 := by
  obtain ⟨a, bytes, rfl⟩ := List.exists_cons_of_length_pos (show 0 < bytes.length by omega)
  obtain ⟨b, bytes, rfl⟩ := List.exists_cons_of_length_pos (show 0 < bytes.length by
    rw [List.length_cons] at h
    omega)
  have ha := a.toNat_lt
  have hb := b.toNat_lt
  have hlow : UInt8.ofNat (a.toNat + 256 * b.toNat) = a := by
    rw [← UInt8.toNat_inj, UInt8.toNat_ofNat']
    omega
  have hhigh : UInt8.ofNat ((a.toNat + 256 * b.toNat) / 256) = b := by
    rw [← UInt8.toNat_inj, UInt8.toNat_ofNat']
    omega
  simp only [packH, unpackH, List.getD_cons_zero, List.getD_cons_succ, hlow, hhigh,
    List.take_succ_cons, List.take_zero]

/-- The block at the front of some bytes. -/
theorem exists_blockRecord {rest : List UInt8} (hlength : 13 + memberRegionBytes ≤ rest.length)
    (hcount : unpackH (rest.drop 9) ≤ maxBlockMembers) :
    ∃ b : BlockRecord, rest = b.bytes ++ rest.drop (13 + memberRegionBytes) ∧
      b.name = rest.take 9 ∧
      b.slots = memberSlots (unpackH (rest.drop 9)) (rest.drop 13) := by
  unfold memberRegionBytes at hlength
  refine ⟨⟨rest.take 9, unpackH (rest.drop 9), unpackH (rest.drop 11),
    (rest.drop 13).take memberRegionBytes, ?_, hcount, unpackH_lt _, ?_⟩, ?_, rfl, ?_⟩
  · rw [List.length_take]
    omega
  · unfold memberRegionBytes
    rw [List.length_take, List.length_drop]
    omega
  · rw [BlockRecord.bytes, packH_unpackH (by rw [List.length_drop]; omega),
      packH_unpackH (by rw [List.length_drop]; omega)]
    have hrest : rest.drop (13 + memberRegionBytes) =
        (rest.drop 13).drop memberRegionBytes := by rw [List.drop_drop]
    have hregion : rest.drop 13 = (rest.drop 11).drop 2 := by rw [List.drop_drop]
    have htype : rest.drop 11 = (rest.drop 9).drop 2 := by rw [List.drop_drop]
    simp only [List.append_assoc]
    rw [hrest, List.take_append_drop, hregion, List.take_append_drop, htype,
      List.take_append_drop, List.take_append_drop]
  · refine memberSlots_take ?_
    unfold maxBlockMembers memberRegionBytes memberWidth at *
    dsimp only
    omega

section Files

variable {decodeGbk : List UInt8 → List Char} {filename : String}

/-- The keys a block adds. -/
def BlockRecord.Adds (b : BlockRecord) (decodeGbk : List UInt8 → List Char) (filename : String)
    (key : String × ℕ × String) : Prop :=
  ∃ slot ∈ b.slots, ∃ market code, slotIdentity filename slot = .ok (market, code) ∧
    key = (b.blockName decodeGbk, market, code)

/-- What is parsed has the layout of blocks, with readable slots. -/
theorem parseBlocks_eq_ok {count : ℕ} {rest : List UInt8}
    {found memberships : List TdxBlockMembership}
    (h : parseBlocks decodeGbk filename count rest found = .ok memberships) :
    ∃ blocks : List BlockRecord, blocks.length = count ∧
      rest = blocks.flatMap BlockRecord.bytes ∧
      (∀ b ∈ blocks, ∀ slot ∈ b.slots, Readable filename slot) ∧
      ∀ key, key ∈ memberships.map TdxBlockMembership.key ↔
        key ∈ found.map TdxBlockMembership.key ∨ ∃ b ∈ blocks, b.Adds decodeGbk filename key := by
  induction count generalizing rest found with
  | zero =>
    obtain ⟨_, hrest, h⟩ := except_bind_eq_ok.mp h
    cases h
    exact ⟨[], rfl, check_eq_ok.mp hrest, by simp, by simp⟩
  | succ count ih =>
    obtain ⟨_, hheader, h⟩ := except_bind_eq_ok.mp h
    obtain ⟨_, hcount, h⟩ := except_bind_eq_ok.mp h
    obtain ⟨_, hregion, h⟩ := except_bind_eq_ok.mp h
    obtain ⟨found', hmembers, h⟩ := except_bind_eq_ok.mp h
    have hheader := check_eq_ok.mp hheader
    have hregion := check_eq_ok.mp hregion
    rw [List.length_drop] at hregion
    obtain ⟨b, hrest, hname, hslots⟩ := @exists_blockRecord rest (by omega)
      (check_eq_ok.mp hcount)
    rw [List.drop_drop] at h
    obtain ⟨blocks, hlength, hblocks, hreadable, hkeys⟩ := ih h
    obtain ⟨hreadable', hkeys'⟩ := parseMembers_eq_ok hmembers
    refine ⟨b :: blocks, by rw [List.length_cons, hlength], ?_, ?_, ?_⟩
    · rw [List.flatMap_cons, ← hblocks]
      exact hrest
    · rw [← hslots] at hreadable'
      exact List.forall_mem_cons.mpr ⟨hreadable', hreadable⟩
    · intro key
      rw [hkeys, hkeys', List.exists_mem_cons_iff, or_assoc, BlockRecord.Adds, hslots,
        BlockRecord.blockName, hname]

/-- The fields of a block are read where they are. -/
theorem BlockRecord.fields (b : BlockRecord) (rest : List UInt8) :
    (b.bytes ++ rest).take 9 = b.name ∧
      unpackH ((b.bytes ++ rest).drop 9) = b.stockCount ∧
      unpackH ((b.bytes ++ rest).drop 11) = b.blockType ∧
      (b.bytes ++ rest).drop 13 = b.region ++ rest := by
  have hname := b.name_length
  have h9 : (b.bytes ++ rest).drop 9 =
      packH b.stockCount ++ (packH b.blockType ++ (b.region ++ rest)) := by
    simp only [bytes, List.append_assoc]
    exact List.drop_left' hname
  have h11 : (b.bytes ++ rest).drop 11 = packH b.blockType ++ (b.region ++ rest) := by
    rw [show 11 = 9 + 2 from rfl, ← List.drop_drop, h9]
    exact List.drop_left' rfl
  have h13 : (b.bytes ++ rest).drop 13 = b.region ++ rest := by
    rw [show 13 = 11 + 2 from rfl, ← List.drop_drop, h11]
    exact List.drop_left' rfl
  refine ⟨?_, ?_, ?_, h13⟩
  · simp only [bytes, List.append_assoc]
    exact List.take_left' hname
  · rw [h9, unpackH_packH b.stockCount_lt]
  · rw [h11, unpackH_packH b.blockType_lt]

/-- Blocks with readable slots are parsed. -/
theorem exists_parseBlocks {blocks : List BlockRecord}
    (h : ∀ b ∈ blocks, ∀ slot ∈ b.slots, Readable filename slot)
    (found : List TdxBlockMembership) :
    ∃ memberships, parseBlocks decodeGbk filename blocks.length
      (blocks.flatMap BlockRecord.bytes) found = .ok memberships := by
  induction blocks generalizing found with
  | nil => exact ⟨found, rfl⟩
  | cons b blocks ih =>
    rw [List.forall_mem_cons] at h
    rw [List.flatMap_cons, List.length_cons]
    generalize hrest : blocks.flatMap BlockRecord.bytes = rest at ih
    obtain ⟨hname, hcount, htype, hregion⟩ := b.fields rest
    have hslots : memberSlots b.stockCount (b.region ++ rest) = b.slots := by
      rw [← memberSlots_take (m := memberRegionBytes), List.take_left' b.region_length,
        BlockRecord.slots]
      have := b.stockCount_le
      unfold maxBlockMembers memberRegionBytes memberWidth at *
      omega
    obtain ⟨found', hmembers⟩ := @exists_parseMembers filename (b.blockName decodeGbk)
      b.blockType b.stockCount (b.region ++ rest)
      (by rw [hslots]; exact h.1) found
    obtain ⟨memberships, hblocks⟩ := ih h.2 found'
    refine ⟨memberships, ?_⟩
    have hlength := b.length_bytes
    rw [parseBlocks]
    refine except_bind_eq_ok.mpr ⟨(), check_eq_ok.mpr ?_, except_bind_eq_ok.mpr
      ⟨(), check_eq_ok.mpr ?_, except_bind_eq_ok.mpr ⟨(), check_eq_ok.mpr ?_,
        except_bind_eq_ok.mpr ⟨found', ?_, ?_⟩⟩⟩⟩
    · rw [List.length_append]
      omega
    · rw [hcount]
      exact b.stockCount_le
    · rw [hregion, List.length_append, b.region_length]
      exact Nat.le_add_right _ _
    · rw [hname, hcount, htype, hregion]
      exact hmembers
    · rw [hregion, List.drop_left' b.region_length]
      exact hblocks

/-! ## The layout of a file is unique -/

/-- A block is determined by its bytes. -/
theorem BlockRecord.bytes_inj {b b' : BlockRecord} (h : b.bytes = b'.bytes) : b = b' := by
  obtain ⟨hname, hcount, htype, hregion⟩ := b.fields []
  obtain ⟨hname', hcount', htype', hregion'⟩ := b'.fields []
  rw [h] at hname hcount htype hregion
  obtain ⟨name, stockCount, blockType, region, _, _, _, _⟩ := b
  obtain ⟨name', stockCount', blockType', region', _, _, _, _⟩ := b'
  obtain rfl := hname.symm.trans hname'
  obtain rfl := hcount.symm.trans hcount'
  obtain rfl := htype.symm.trans htype'
  have hregions := hregion.symm.trans hregion'
  rw [List.append_nil, List.append_nil] at hregions
  obtain rfl := hregions
  rfl

theorem blocks_inj {blocks blocks' : List BlockRecord}
    (h : blocks.flatMap BlockRecord.bytes = blocks'.flatMap BlockRecord.bytes)
    (hlength : blocks.length = blocks'.length) : blocks = blocks' := by
  induction blocks generalizing blocks' with
  | nil => exact (List.length_eq_zero_iff.mp hlength.symm).symm
  | cons b blocks ih =>
    obtain ⟨b', blocks', rfl⟩ := List.exists_cons_of_length_eq_add_one hlength.symm
    obtain ⟨hbytes, hrest⟩ := List.append_inj h (by rw [b.length_bytes, b'.length_bytes])
    rw [BlockRecord.bytes_inj hbytes, ih hrest (Nat.succ.inj hlength)]

theorem IsBlockFile.unique {data : List UInt8} {blocks blocks' : List BlockRecord}
    (h : IsBlockFile data blocks) (h' : IsBlockFile data blocks') : blocks = blocks' := by
  obtain ⟨header, hheader, hcount, hdata⟩ := h
  obtain ⟨header', hheader', hcount', hdata'⟩ := h'
  obtain ⟨-, hrest⟩ := List.append_inj (hdata.symm.trans hdata') (hheader.trans hheader'.symm)
  obtain ⟨hpack, hblocks⟩ := List.append_inj hrest rfl
  exact blocks_inj hblocks (packH_inj hcount hcount' hpack)

/-! ## Files -/

/-- A file that is parsed has the layout of a block file. -/
theorem parseBlockFile_eq_ok {data : List UInt8} {memberships : List TdxBlockMembership}
    (h : parseBlockFile decodeGbk data filename = .ok memberships) :
    ∃ blocks, IsBlockFile data blocks ∧
      (∀ b ∈ blocks, ∀ slot ∈ b.slots, Readable filename slot) ∧
      ∀ key, key ∈ memberships.map TdxBlockMembership.key ↔
        ∃ b ∈ blocks, b.Adds decodeGbk filename key := by
  obtain ⟨_, -, h⟩ := except_bind_eq_ok.mp h
  obtain ⟨_, hheader, h⟩ := except_bind_eq_ok.mp h
  have hheader := check_eq_ok.mp hheader
  obtain ⟨blocks, hlength, hblocks, hreadable, hkeys⟩ := parseBlocks_eq_ok h
  refine ⟨blocks, ⟨data.take 384, by rw [List.length_take]; omega, hlength ▸ unpackH_lt _, ?_⟩,
    hreadable, fun key => by simpa using hkeys key⟩
  have hcount : data.drop 386 = (data.drop 384).drop 2 := by rw [List.drop_drop]
  rw [← hblocks, hlength, packH_unpackH (by rw [List.length_drop]; omega), hcount,
    List.take_append_drop, List.take_append_drop]

/-- A file of that layout with readable slots is parsed. -/
theorem exists_parseBlockFile {data : List UInt8} {blocks : List BlockRecord}
    (hfilename : filename ∈ blockFilenames) (hfile : IsBlockFile data blocks)
    (h : ∀ b ∈ blocks, ∀ slot ∈ b.slots, Readable filename slot) :
    ∃ memberships, parseBlockFile decodeGbk data filename = .ok memberships := by
  obtain ⟨header, hheader, hcount, rfl⟩ := hfile
  obtain ⟨memberships, hblocks⟩ := @exists_parseBlocks decodeGbk _ _ h []
  refine ⟨memberships, except_bind_eq_ok.mpr ⟨(), check_eq_ok.mpr hfilename,
    except_bind_eq_ok.mpr ⟨(), check_eq_ok.mpr ?_, ?_⟩⟩⟩
  · rw [List.length_append, hheader]
    simp only [List.length_append, packH, List.length_cons, List.length_nil]
    omega
  · rw [show 386 = 384 + 2 from rfl, ← List.drop_drop, List.drop_left' hheader,
      unpackH_packH hcount]
    exact hblocks

theorem slot_ascii_or {slot : List UInt8} :
    (∀ b ∈ slot, b < 128) ∨ ∃ b ∈ slot, 128 ≤ b := by
  by_cases h : ∃ b ∈ slot, 128 ≤ b
  · exact .inr h
  · exact .inl fun b hb => UInt8.not_le.mp fun hle => h ⟨b, hb, hle⟩

/-- A file that is readable leniently only is not exact. -/
theorem not_exact_of_onlyLenientlyReadable {data : List UInt8}
    (h : OnlyLenientlyReadable data filename) :
    ¬∀ memberships, parseBlockFile decodeGbk data filename = .ok memberships →
      ExactlyEncoded decodeGbk data filename memberships := by
  obtain ⟨hfilename, blocks, hfile, hreadable, b, hb, slot, hslot, byte, hbyte, hother⟩ := h
  intro hexact
  obtain ⟨memberships, hparse⟩ := @exists_parseBlockFile decodeGbk _ _ _ hfilename
    hfile hreadable
  obtain ⟨-, blocks', hfile', hencodes, -⟩ := hexact memberships hparse
  rw [hfile'.unique hfile] at hencodes
  obtain ⟨market, code, hslot⟩ := hencodes b hb slot hslot
  exact UInt8.not_le.mpr (hslot.ascii byte hbyte) hother

/-- A file is parsed to what it encodes, or refused, exactly when it is not one that is only
readable with some bytes left out. -/
theorem parseBlockFile_exact_iff (decodeGbk : List UInt8 → List Char) (data : List UInt8)
    (filename : String) :
    (∀ memberships, parseBlockFile decodeGbk data filename = .ok memberships →
      ExactlyEncoded decodeGbk data filename memberships) ↔
      ¬OnlyLenientlyReadable data filename := by
  constructor
  · exact fun h hlenient => not_exact_of_onlyLenientlyReadable hlenient h
  · intro h memberships hparse
    obtain ⟨hfilename, hwellFormed⟩ := parseBlockFile_wellFormed hparse
    obtain ⟨blocks, hfile, hreadable, hkeys⟩ := parseBlockFile_eq_ok hparse
    have hascii : ∀ b ∈ blocks, ∀ slot ∈ b.slots, ∀ byte ∈ slot, byte < 128 := by
      intro b hb slot hslot
      refine slot_ascii_or.resolve_right fun hother => h ?_
      exact ⟨hfilename, blocks, hfile, hreadable, b, hb, slot, hslot, hother⟩
    have hiff : ∀ b ∈ blocks, ∀ slot ∈ b.slots, ∀ market code,
        slotIdentity filename slot = .ok (market, code) ↔ SlotEncodes filename slot market code :=
      fun b hb slot hslot _ _ =>
        slotIdentity_eq_ok_iff (BlockRecord.length_of_mem_slots hslot) (hascii b hb slot hslot)
    refine ⟨hwellFormed.nodup, blocks, hfile, fun b hb slot hslot => ?_, fun name market code => ?_⟩
    · obtain ⟨market, code, hidentity⟩ := readable_iff.mp (hreadable b hb slot hslot)
      exact ⟨market, code, (hiff b hb slot hslot market code).mp hidentity⟩
    · rw [hkeys]
      constructor
      · rintro ⟨b, hb, slot, hslot, market', code', hidentity, heq⟩
        cases heq
        exact ⟨b, hb, slot, hslot, rfl, (hiff b hb slot hslot _ _).mp hidentity⟩
      · rintro ⟨b, hb, slot, hslot, rfl, hencodes⟩
        exact ⟨b, hb, slot, hslot, market, code, (hiff b hb slot hslot _ _).mpr hencodes, rfl⟩

end Files

/-! ## A damaged slot -/

/-- A block with one member, whose slot is six digits and a byte 255 among them. -/
def damagedBlock : BlockRecord where
  name := List.replicate 9 65
  stockCount := 1
  blockType := 2
  region := [54, 48, 255, 48, 48, 48, 48] ++ List.replicate 2793 0
  name_length := rfl
  stockCount_le := by decide
  blockType_lt := by decide
  region_length := by
    rw [List.length_append, List.length_replicate]
    rfl

/-- The file of that block. -/
def damagedFile : List UInt8 :=
  List.replicate 384 0 ++ (packH 1 ++ [damagedBlock].flatMap BlockRecord.bytes)

/-- The damaged slot is read as the member 600000. -/
theorem parseBlockFile_of_damaged_slot :
    ¬∀ memberships, parseBlockFile decodeAscii damagedFile "block_gn.dat" = .ok memberships →
      ExactlyEncoded decodeAscii damagedFile "block_gn.dat" memberships := by
  have hslots : damagedBlock.slots = [[54, 48, 255, 48, 48, 48, 48]] := rfl
  refine not_exact_of_onlyLenientlyReadable ⟨by decide, [damagedBlock],
    ⟨List.replicate 384 0, List.length_replicate, by decide, rfl⟩, ?_, damagedBlock,
    List.mem_singleton_self _, [54, 48, 255, 48, 48, 48, 48], ?_, 255, by decide, by decide⟩
  · intro b hb slot hslot
    obtain rfl := List.mem_singleton.mp hb
    rw [hslots, List.mem_singleton] at hslot
    rw [hslot, Readable]
    decide
  · rw [hslots]
    exact List.mem_singleton_self _

end MarketMonitor
