import MarketMonitor.Library.JsonText

/-!
# JSON text within ASCII

The text of an array of strings in which every character outside the printable ones of ASCII
is escaped, one beyond the 16-bit code units as a pair of surrogates. `scan_asciiStrings` : it
reads back as the array.
-/

namespace Json

/-! ## Writing -/

/-- `\uXXXX` -/
def unitEscape (n : ℕ) : List Char :=
  ['\\', 'u', hexDigit (n / 4096), hexDigit (n / 256 % 16), hexDigit (n / 16 % 16),
    hexDigit (n % 16)]

/-- A character of a string, escaped unless it is a printable one of ASCII. -/
def asciiChar (c : Char) : List Char :=
  if c = '"' then ['\\', '"']
  else if c = '\\' then ['\\', '\\']
  else if c = '\n' then ['\\', 'n']
  else if c = '\r' then ['\\', 'r']
  else if c = '\t' then ['\\', 't']
  else if c = '\x0c' then ['\\', 'f']
  else if c = '\x08' then ['\\', 'b']
  else if 32 ≤ c.toNat ∧ c.toNat ≤ 126 then [c]
  else if c.toNat < 0x10000 then unitEscape c.toNat
  else unitEscape (0xd800 + (c.toNat - 0x10000) / 0x400) ++
    unitEscape (0xdc00 + (c.toNat - 0x10000) % 0x400)

/-- The characters of a string literal after its opening quotation mark. -/
def asciiChars : List Char → List Char
  | [] => ['"']
  | c :: cs => asciiChar c ++ asciiChars cs

def asciiString (s : String) : List Char := '"' :: asciiChars s.toList

/-- The items after the first one, with the closing bracket. -/
def asciiItems : List String → List Char
  | [] => [']']
  | s :: ss => ',' :: (asciiString s ++ asciiItems ss)

/-- `json.dumps(strings, separators=(",", ":"))` -/
def asciiStrings : List String → List Char
  | [] => ['[', ']']
  | s :: ss => '[' :: (asciiString s ++ asciiItems ss)

/-! ## Characters -/

theorem codeUnit_unitEscape {n : ℕ} (h : n < 0x10000) :
    codeUnit (hexDigit (n / 4096)) (hexDigit (n / 256 % 16)) (hexDigit (n / 16 % 16))
      (hexDigit (n % 16)) = some n := by
  simp only [codeUnit, hexValue_hexDigit _ (by omega : n / 4096 < 16),
    hexValue_hexDigit _ (by omega : n / 256 % 16 < 16),
    hexValue_hexDigit _ (by omega : n / 16 % 16 < 16),
    hexValue_hexDigit _ (by omega : n % 16 < 16), Option.bind_eq_bind, Option.bind_some]
  simp only [pure, Option.some.injEq]
  omega

/-- A code unit that is no surrogate stands for its character. -/
theorem scanString_unitEscape {n : ℕ} (h : n < 0x10000) (hsurrogate : n < 0xd800 ∨ 0xe000 ≤ n)
    (rest : List Char) : scanString (unitEscape n ++ rest) =
      (scanString rest).map fun p => (Char.ofNat n :: p.1, p.2) := by
  have hunit := codeUnit_unitEscape h
  have hhigh : ¬(0xd800 ≤ n ∧ n < 0xdc00) := by omega
  have hlow : ¬(0xdc00 ≤ n ∧ n < 0xe000) := by omega
  have hnone : ¬(0xd800 ≤ n ∧ n < 0xe000) := by omega
  rw [unitEscape, List.cons_append, List.cons_append, List.cons_append, List.cons_append,
    List.cons_append, List.cons_append, List.nil_append, scanString.eq_def]
  split
  · simp_all
  · simp_all
  · rename_i heq
    simp only [List.cons.injEq, true_and] at heq
    obtain ⟨rfl, rfl, rfl, rfl, rfl⟩ := heq
    simp only [hunit, Option.bind_eq_bind, Option.bind_some, hhigh, hlow, if_false]
    cases scanString _ <;> rfl
  · rename_i heq
    simp only [List.cons.injEq, true_and] at heq
    obtain ⟨rfl, rfl, rfl, rfl, rfl⟩ := heq
    simp only [hunit, Option.bind_eq_bind, Option.bind_some, hnone, if_false]
    cases scanString _ <;> rfl
  · rename_i hshort heq
    obtain ⟨rfl, rfl⟩ : 'u' = _ ∧ _ = _ := by simpa using heq
    exact absurd rfl (hshort _ _ _ _ rest rfl)
  · rename_i hescape heq
    obtain ⟨rfl, rfl⟩ : '\\' = _ ∧ _ = _ := by simpa using heq
    exact absurd rfl (hescape 'u' _ rfl)

/-- A pair of surrogates stands for the character beyond the code units. -/
theorem scanString_surrogates {n : ℕ} (h : n < 0x100000) (rest : List Char) :
    scanString (unitEscape (0xd800 + n / 0x400) ++ (unitEscape (0xdc00 + n % 0x400) ++ rest)) =
      (scanString rest).map fun p => (Char.ofNat (0x10000 + n) :: p.1, p.2) := by
  have hhigh := codeUnit_unitEscape (n := 0xd800 + n / 0x400) (by omega)
  have hlow := codeUnit_unitEscape (n := 0xdc00 + n % 0x400) (by omega)
  have hhigh' : 0xd800 ≤ 0xd800 + n / 0x400 ∧ 0xd800 + n / 0x400 < 0xdc00 := by omega
  have hlow' : 0xdc00 ≤ 0xdc00 + n % 0x400 ∧ 0xdc00 + n % 0x400 < 0xe000 := by omega
  have hvalue : 0x10000 + 0x400 * (0xd800 + n / 0x400 - 0xd800) +
      (0xdc00 + n % 0x400 - 0xdc00) = 0x10000 + n := by omega
  rw [unitEscape, unitEscape]
  simp only [List.cons_append, List.nil_append]
  rw [scanString]
  simp only [hhigh, hlow, Option.bind_eq_bind, Option.bind_some, if_pos hhigh', if_pos hlow',
    hvalue]
  cases scanString rest <;> rfl

/-- The value of a character is no surrogate. -/
theorem toNat_of_le {c : Char} (h : 0x10000 ≤ c.toNat) :
    c.toNat - 0x10000 < 0x100000 ∧ Char.ofNat (0x10000 + (c.toNat - 0x10000)) = c := by
  have hvalid : c.toNat < 0xd800 ∨ (0xdfff < c.toNat ∧ c.toNat < 0x110000) := c.valid
  refine ⟨by omega, ?_⟩
  rw [show 0x10000 + (c.toNat - 0x10000) = c.toNat from by omega, Char.ofNat_toNat]

/-- A written character is read back. -/
theorem scanString_asciiChar (c : Char) (rest : List Char) :
    scanString (asciiChar c ++ rest) = (scanString rest).map fun p => (c :: p.1, p.2) := by
  have hvalid : c.toNat < 0xd800 ∨ (0xdfff < c.toNat ∧ c.toNat < 0x110000) := c.valid
  unfold asciiChar
  split_ifs with h1 h2 h3 h4 h5 h6 h7 h8 h9
  iterate 7
    · subst_vars
      cases hrest : scanString rest <;> simp [scanString, escapeLetter, hrest]
  · exact scanString_plain h1 h2 (by omega) rest
  · rw [scanString_unitEscape h9 (by omega), Char.ofNat_toNat]
  · obtain ⟨hlt, hchar⟩ := toNat_of_le (c := c) (by omega)
    rw [List.append_assoc, scanString_surrogates hlt, hchar]

theorem scanString_asciiChars (cs : List Char) (rest : List Char) :
    scanString (asciiChars cs ++ rest) = some (cs, rest) := by
  induction cs with
  | nil => simp [asciiChars, scanString]
  | cons c cs ih => simp [asciiChars, scanString_asciiChar, ih]

/-! ## Arrays -/

theorem scanValue_asciiString (s : String) (fuel : ℕ) (rest : List Char) :
    scanValue (fuel + 1) (asciiString s ++ rest) = some (.str s, rest) := by
  simp [asciiString, scanValue, scanString_asciiChars]

theorem skipSpace_asciiString (s : String) (rest : List Char) :
    skipSpace (asciiString s ++ rest) = asciiString s ++ rest :=
  Opening.skipSpace (c := '"') (by decide) _

/-- So are the items of a list of texts. -/
theorem scanItems_asciiItems (ss : List String) {fuel : ℕ} (h : ss.length + 1 ≤ fuel)
    (rest : List Char) : scanItems fuel (asciiItems ss ++ rest) = some (ss.map .str, rest) := by
  induction ss generalizing fuel with
  | nil =>
    obtain ⟨n, rfl⟩ := Nat.exists_eq_add_of_le' (show 1 ≤ fuel by omega)
    simp [asciiItems, scanItems, skipSpace]
  | cons s ss ih =>
    obtain ⟨n, rfl⟩ := Nat.exists_eq_add_of_le' (show 2 ≤ fuel by simp at h; omega)
    have hrest := @ih (n + 1) (by simp at h; omega)
    have hcomma := Opening.skipSpace (c := ',') (by decide)
      (asciiString s ++ (asciiItems ss ++ rest))
    simp only [asciiItems, List.cons_append, List.append_assoc]
    rw [scanItems, hcomma]
    simp [skipSpace_asciiString, scanValue_asciiString, hrest]

theorem length_asciiItems (ss : List String) : ss.length ≤ (asciiItems ss).length := by
  induction ss with
  | nil => exact Nat.zero_le _
  | cons s ss ih =>
    simp only [asciiItems, List.length_cons, List.length_append]
    omega

/-- The text of an array of strings reads back as the array. -/
theorem scan_asciiStrings (ss : List String) :
    scan (asciiStrings ss) = some (.arr (ss.map .str)) := by
  cases ss with
  | nil => simp [asciiStrings, scan, scanValue, skipSpace]
  | cons s ss =>
    have hlength := length_asciiItems ss
    obtain ⟨n, hn⟩ : ∃ n, 2 * (asciiStrings (s :: ss)).length + 2 = n + 2 := ⟨_, rfl⟩
    have hfuel : ss.length + 1 ≤ n + 1 := by
      simp only [asciiStrings, List.length_cons, List.length_append] at hn
      omega
    have hitems := scanItems_asciiItems ss hfuel []
    have hquote := skipSpace_asciiString s (asciiItems ss)
    have hhead := scanValue_asciiString s n (asciiItems ss)
    rw [List.append_nil] at hitems
    rw [scan, hn, asciiStrings, Opening.skipSpace (by decide), scanValue, hquote]
    split
    · rename_i heq
      simp [asciiString] at heq
    · simp [hhead, hitems, skipSpace]

end Json
