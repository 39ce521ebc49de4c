import MarketMonitor.Library.Json

/-!
# JSON text

`dumps` writes the compact text of a value : no spaces, the characters outside ASCII
as they are, the quotation mark, the backslash and the control characters escaped.
`scan` reads a value by recursive descent and returns the rest of the text.

`scanValue_dumps` : `scan` inverts `dumps` on values without fractional numbers,
whatever follows them. Its consequence for whole documents is `loads_canonicalBytes`.
-/

namespace Json

/-! ## Writing -/

/-- The hexadecimal digit of `n < 16`, in lower case. -/
def hexDigit (n : ℕ) : Char :=
  if n < 10 then Char.ofNat (48 + n) else Char.ofNat (87 + n)

/-- A character of a string, escaped where the grammar needs it. -/
def escapeChar (c : Char) : List Char :=
  if c = '"' then ['\\', '"']
  else if c = '\\' then ['\\', '\\']
  else if c = '\n' then ['\\', 'n']
  else if c = '\r' then ['\\', 'r']
  else if c = '\t' then ['\\', 't']
  else if c = '\x0c' then ['\\', 'f']
  else if c = '\x08' then ['\\', 'b']
  else if c.toNat < 32 then
    ['\\', 'u', '0', '0', hexDigit (c.toNat / 16), hexDigit (c.toNat % 16)]
  else [c]

/-- The characters of a string literal after its opening quotation mark. -/
def dumpsChars : List Char → List Char
  | [] => ['"']
  | c :: cs => escapeChar c ++ dumpsChars cs

def dumpsString (s : String) : List Char := '"' :: dumpsChars s.toList

def dumpsInt : Int → List Char
  | .ofNat n => Nat.toDigits 10 n
  | .negSucc n => '-' :: Nat.toDigits 10 (n + 1)

mutual

/-- The compact text of a value. -/
def dumps : Value → List Char
  | .null => ['n', 'u', 'l', 'l']
  | .bool true => ['t', 'r', 'u', 'e']
  | .bool false => ['f', 'a', 'l', 's', 'e']
  | .int n => dumpsInt n
  | .float literal => literal.toList
  | .str s => dumpsString s
  | .arr [] => ['[', ']']
  | .arr (v :: vs) => '[' :: (dumps v ++ dumpsItems vs)
  | .obj [] => ['{', '}']
  | .obj ((k, v) :: fs) => '{' :: (dumpsString k ++ ':' :: (dumps v ++ dumpsFields fs))

/-- The items after the first one, with the closing bracket. -/
def dumpsItems : List Value → List Char
  | [] => [']']
  | v :: vs => ',' :: (dumps v ++ dumpsItems vs)

/-- The fields after the first one, with the closing brace. -/
def dumpsFields : List (String × Value) → List Char
  | [] => ['}']
  | (k, v) :: fs => ',' :: (dumpsString k ++ ':' :: (dumps v ++ dumpsFields fs))

end

/-! ## Reading -/

/-- The value of a hexadecimal digit. -/
def hexValue (c : Char) : Option ℕ :=
  if '0' ≤ c ∧ c ≤ '9' then some (c.toNat - 48)
  else if 'a' ≤ c ∧ c ≤ 'f' then some (c.toNat - 87)
  else if 'A' ≤ c ∧ c ≤ 'F' then some (c.toNat - 55)
  else none

/-- The code unit of the four digits of a `\u` escape. -/
def codeUnit (a b c d : Char) : Option ℕ := do
  let a ← hexValue a
  let b ← hexValue b
  let c ← hexValue c
  let d ← hexValue d
  return 4096 * a + 256 * b + 16 * c + d

/-- The character of a one-letter escape. -/
def escapeLetter (c : Char) : Option Char :=
  if c = '"' ∨ c = '\\' ∨ c = '/' then some c
  else if c = 'n' then some '\n'
  else if c = 'r' then some '\r'
  else if c = 't' then some '\t'
  else if c = 'f' then some '\x0c'
  else if c = 'b' then some '\x08'
  else none

/-- The characters of a string literal, up to its closing quotation mark. Control
characters are refused, and so is a surrogate that is not half of a pair. -/
def scanString : List Char → Option (List Char × List Char)
  | [] => none
  | '"' :: rest => some ([], rest)
  | '\\' :: 'u' :: a :: b :: c :: d :: '\\' :: 'u' :: a' :: b' :: c' :: d' :: rest => do
    let unit ← codeUnit a b c d
    if 0xd800 ≤ unit ∧ unit < 0xdc00 then
      let low ← codeUnit a' b' c' d'
      if 0xdc00 ≤ low ∧ low < 0xe000 then
        let (cs, rest) ← scanString rest
        return (Char.ofNat (0x10000 + 0x400 * (unit - 0xd800) + (low - 0xdc00)) :: cs, rest)
      else none
    else if 0xdc00 ≤ unit ∧ unit < 0xe000 then none
    else
      let (cs, rest) ← scanString ('\\' :: 'u' :: a' :: b' :: c' :: d' :: rest)
      return (Char.ofNat unit :: cs, rest)
  | '\\' :: 'u' :: a :: b :: c :: d :: rest => do
    let unit ← codeUnit a b c d
    if 0xd800 ≤ unit ∧ unit < 0xe000 then none
    else
      let (cs, rest) ← scanString rest
      return (Char.ofNat unit :: cs, rest)
  | '\\' :: c :: rest => do
    let c ← escapeLetter c
    let (cs, rest) ← scanString rest
    return (c :: cs, rest)
  | c :: rest =>
    if c.toNat < 32 then none
    else do
      let (cs, rest) ← scanString rest
      return (c :: cs, rest)

/-- White space between tokens. -/
def skipSpace : List Char → List Char
  | c :: rest => if c = ' ' ∨ c = '\n' ∨ c = '\r' ∨ c = '\t' then skipSpace rest else c :: rest
  | [] => []

/-- The digits at the head of the text. -/
def spanDigits (cs : List Char) : List Char × List Char :=
  (cs.takeWhile Char.isDigit, cs.dropWhile Char.isDigit)

/-- A fraction `.d…` at the head of the text. -/
def spanFraction : List Char → List Char × List Char
  | '.' :: rest =>
    match spanDigits rest with
    | ([], _) => ([], '.' :: rest)
    | (ds, rest) => ('.' :: ds, rest)
  | cs => ([], cs)

/-- An exponent `e±d…` at the head of the text. -/
def spanExponent (cs : List Char) : List Char × List Char :=
  match cs with
  | e :: s :: rest =>
    if e = 'e' ∨ e = 'E' then
      if s = '+' ∨ s = '-' then
        match spanDigits rest with
        | ([], _) => ([], cs)
        | (ds, rest) => (e :: s :: ds, rest)
      else
        match spanDigits (s :: rest) with
        | ([], _) => ([], cs)
        | (ds, rest) => (e :: ds, rest)
    else ([], cs)
  | cs => ([], cs)

/-- The whole part at the head of the text : a zero ends it. -/
def spanWhole : List Char → List Char × List Char
  | '0' :: rest => (['0'], rest)
  | cs => spanDigits cs

/-- An unsigned number, whose sign is `sign`. -/
def scanMagnitude (sign : List Char) (cs : List Char) : Option (Value × List Char) :=
  let (whole, rest) := spanWhole cs
  if whole = [] then none
  else
    let (fraction, rest) := spanFraction rest
    let (exponent, rest) := spanExponent rest
    if fraction = [] ∧ exponent = [] then
      let n := Nat.ofDigitChars 10 whole 0
      some (.int (if sign = [] then (n : ℤ) else -(n : ℤ)), rest)
    else some (.float (String.ofList (sign ++ whole ++ fraction ++ exponent)), rest)

def scanNumber : List Char → Option (Value × List Char)
  | '-' :: 'I' :: 'n' :: 'f' :: 'i' :: 'n' :: 'i' :: 't' :: 'y' :: rest =>
    some (.float "-Infinity", rest)
  | '-' :: rest => scanMagnitude ['-'] rest
  | cs => scanMagnitude [] cs

mutual

/-- Read one value. -/
def scanValue : ℕ → List Char → Option (Value × List Char)
  | 0, _ => none
  | _ + 1, 'n' :: 'u' :: 'l' :: 'l' :: rest => some (.null, rest)
  | _ + 1, 't' :: 'r' :: 'u' :: 'e' :: rest => some (.bool true, rest)
  | _ + 1, 'f' :: 'a' :: 'l' :: 's' :: 'e' :: rest => some (.bool false, rest)
  | _ + 1, 'N' :: 'a' :: 'N' :: rest => some (.float "NaN", rest)
  | _ + 1, 'I' :: 'n' :: 'f' :: 'i' :: 'n' :: 'i' :: 't' :: 'y' :: rest =>
    some (.float "Infinity", rest)
  | _ + 1, '"' :: rest => do
    let (cs, rest) ← scanString rest
    return (.str (String.ofList cs), rest)
  | fuel + 1, '[' :: rest =>
    match skipSpace rest with
    | ']' :: rest => some (.arr [], rest)
    | rest => do
      let (v, rest) ← scanValue fuel rest
      let (vs, rest) ← scanItems fuel rest
      return (.arr (v :: vs), rest)
  | fuel + 1, '{' :: rest =>
    match skipSpace rest with
    | '}' :: rest => some (.obj [], rest)
    | rest => do
      let (f, rest) ← scanField fuel rest
      let (fs, rest) ← scanFields fuel rest
      return (.obj (f :: fs), rest)
  | _ + 1, cs => scanNumber cs

/-- Read the items after the first one, up to the closing bracket. -/
def scanItems : ℕ → List Char → Option (List Value × List Char)
  | 0, _ => none
  | fuel + 1, cs =>
    match skipSpace cs with
    | ']' :: rest => some ([], rest)
    | ',' :: rest => do
      let (v, rest) ← scanValue fuel (skipSpace rest)
      let (vs, rest) ← scanItems fuel rest
      return (v :: vs, rest)
    | _ => none

/-- Read one field. -/
def scanField : ℕ → List Char → Option ((String × Value) × List Char)
  | 0, _ => none
  | fuel + 1, '"' :: rest => do
    let (key, rest) ← scanString rest
    match skipSpace rest with
    | ':' :: rest =>
      let (v, rest) ← scanValue fuel (skipSpace rest)
      return ((String.ofList key, v), rest)
    | _ => none
  | _ + 1, _ => none

/-- Read the fields after the first one, up to the closing brace. -/
def scanFields : ℕ → List Char → Option (List (String × Value) × List Char)
  | 0, _ => none
  | fuel + 1, cs =>
    match skipSpace cs with
    | '}' :: rest => some ([], rest)
    | ',' :: rest => do
      let (f, rest) ← scanField fuel (skipSpace rest)
      let (fs, rest) ← scanFields fuel rest
      return (f :: fs, rest)
    | _ => none

end

/-- A whole document : one value, with white space around it. -/
def scan (text : List Char) : Option Value := do
  let (v, rest) ← scanValue (2 * text.length + 2) (skipSpace text)
  if skipSpace rest = [] then return v else none

/-! ## Numbers -/

/-- No digit, fraction or exponent continues a number. -/
def Delimited (rest : List Char) : Prop :=
  ∀ c ∈ rest.head?, c.isDigit = false ∧ c ≠ '.' ∧ c ≠ 'e' ∧ c ≠ 'E'

theorem delimited_nil : Delimited [] := by
  simp [Delimited]

theorem delimited_cons {c : Char} (rest : List Char)
    (h : c.isDigit = false ∧ c ≠ '.' ∧ c ≠ 'e' ∧ c ≠ 'E') : Delimited (c :: rest) := by
  simpa [Delimited] using h

theorem spanDigits_append {ds rest : List Char} (hds : ∀ d ∈ ds, d.isDigit = true)
    (hrest : Delimited rest) : spanDigits (ds ++ rest) = (ds, rest) := by
  have hstop : rest.takeWhile Char.isDigit = [] ∧ rest.dropWhile Char.isDigit = rest := by
    cases rest with
    | nil => simp
    | cons c rest => simp [(hrest c (by simp)).1]
  rw [spanDigits, List.takeWhile_append_of_pos hds, List.dropWhile_append_of_pos hds, hstop.1,
    hstop.2, List.append_nil]

theorem spanFraction_of_delimited {rest : List Char} (h : Delimited rest) :
    spanFraction rest = ([], rest) := by
  rcases rest with _ | ⟨c, rest⟩
  · rfl
  · have hc := (h c (by simp)).2.1
    unfold spanFraction
    split
    · rename_i heq
      exact absurd (List.cons.inj heq).1 hc
    · rfl

theorem spanExponent_of_delimited {rest : List Char} (h : Delimited rest) :
    spanExponent rest = ([], rest) := by
  rcases rest with _ | ⟨c, _ | ⟨d, rest⟩⟩
  · rfl
  · rfl
  · have hc := h c (by simp)
    simp [spanExponent, hc.2.2.1, hc.2.2.2]

/-- Only zero is written with a leading zero. -/
theorem head_toDigits_ne_zero (n : ℕ) (hn : 0 < n) : (Nat.toDigits 10 n).head? ≠ some '0' := by
  induction n using Nat.strong_induction_on with
  | _ n ih =>
    rcases Nat.lt_or_ge n 10 with hlt | hge
    · have hdigits : ∀ m < 10, 0 < m → [Nat.digitChar m].head? ≠ some '0' := by decide
      rw [Nat.toDigits_of_lt_base hlt]
      exact hdigits n hlt hn
    · rw [Nat.toDigits_of_base_le (by omega) hge,
        List.head?_append_of_ne_nil _ Nat.toDigits_ne_nil]
      exact ih (n / 10) (by omega) (by omega)

theorem isDigit_toDigits (n : ℕ) : ∀ d ∈ Nat.toDigits 10 n, d.isDigit = true :=
  fun _ hd => Nat.isDigit_of_mem_toDigits (by decide) (by decide) hd

/-- The digits of a number are read up to what delimits them. -/
theorem spanWhole_toDigits (n : ℕ) {rest : List Char} (hrest : Delimited rest) :
    spanWhole (Nat.toDigits 10 n ++ rest) = (Nat.toDigits 10 n, rest) := by
  rcases Nat.eq_zero_or_pos n with rfl | hn
  · simp [spanWhole]
  · have hhead := head_toDigits_ne_zero n hn
    unfold spanWhole
    split
    · rename_i heq
      have := congrArg List.head? heq
      rw [List.head?_append_of_ne_nil _ Nat.toDigits_ne_nil] at this
      exact absurd this hhead
    · exact spanDigits_append (isDigit_toDigits n) hrest

theorem scanMagnitude_toDigits (sign : List Char) (n : ℕ) {rest : List Char}
    (hrest : Delimited rest) :
    scanMagnitude sign (Nat.toDigits 10 n ++ rest) =
      some (.int (if sign = [] then (n : ℤ) else -(n : ℤ)), rest) := by
  simp [scanMagnitude, spanWhole_toDigits n hrest, spanFraction_of_delimited hrest,
    spanExponent_of_delimited hrest, Nat.ofDigitChars_toDigits]

/-- A written integer is read back. -/
theorem scanNumber_dumpsInt (n : ℤ) {rest : List Char} (hrest : Delimited rest) :
    scanNumber (dumpsInt n ++ rest) = some (.int n, rest) := by
  cases n with
  | ofNat n =>
    obtain ⟨d, ds, hd⟩ := List.exists_cons_of_ne_nil (Nat.toDigits_ne_nil (n := n) (b := 10))
    have hne : d ≠ '-' := by
      rintro rfl
      have := isDigit_toDigits n '-' (by simp [hd])
      simp at this
    have hscan := scanMagnitude_toDigits [] n hrest
    simp only [dumpsInt, hd, List.cons_append] at hscan ⊢
    unfold scanNumber
    split
    · rename_i heq
      exact absurd (List.cons.inj heq).1 hne
    · rename_i heq
      exact absurd (List.cons.inj heq).1 hne
    · simpa using hscan
  | negSucc n =>
    obtain ⟨d, ds, hd⟩ := List.exists_cons_of_ne_nil (Nat.toDigits_ne_nil (n := n + 1) (b := 10))
    have hne : d ≠ 'I' := by
      rintro rfl
      have := isDigit_toDigits (n + 1) 'I' (by simp [hd])
      simp at this
    have hscan := scanMagnitude_toDigits ['-'] (n + 1) hrest
    simp only [dumpsInt, hd, List.cons_append] at hscan ⊢
    unfold scanNumber
    split
    · rename_i heq
      exact absurd (List.cons.inj (List.cons.inj heq).2).1 hne
    · rename_i heq
      rw [← (List.cons.inj heq).2]
      simpa [Int.negSucc_eq] using hscan
    · rename_i _ h
      exact absurd rfl (h _)

/-! ## Strings -/

theorem hexValue_hexDigit : ∀ n < 16, hexValue (hexDigit n) = some n := by
  decide

/-- An escape of four digits stands for its character. -/
theorem scanString_codeUnit {a b c d : Char} {unit : ℕ} (hunit : codeUnit a b c d = some unit)
    (hlt : unit < 0xd800) (rest : List Char) :
    scanString ('\\' :: 'u' :: a :: b :: c :: d :: rest) =
      (scanString rest).map fun p => (Char.ofNat unit :: p.1, p.2) := by
  have hlow : ¬(0xd800 ≤ unit) := by omega
  have hlow' : ¬(0xdc00 ≤ unit) := by omega
  rw [scanString.eq_def]
  split
  · simp_all
  · simp_all
  · rename_i heq
    simp only [List.cons.injEq, true_and] at heq
    obtain ⟨rfl, rfl, rfl, rfl, rfl⟩ := heq
    simp only [hunit, Option.bind_eq_bind, Option.bind_some, hlow, hlow', false_and, if_false]
    cases scanString _ <;> rfl
  · rename_i heq
    simp only [List.cons.injEq, true_and] at heq
    obtain ⟨rfl, rfl, rfl, rfl, rfl⟩ := heq
    simp only [hunit, Option.bind_eq_bind, Option.bind_some, hlow, false_and, if_false]
    cases scanString _ <;> rfl
  · rename_i hshort heq
    obtain ⟨rfl, rfl⟩ : 'u' = _ ∧ _ = _ := by simpa using heq
    exact absurd rfl (hshort a b c d rest rfl)
  · rename_i hescape heq
    obtain ⟨rfl, rfl⟩ : '\\' = _ ∧ _ = _ := by simpa using heq
    exact absurd rfl (hescape 'u' _ rfl)

/-- A character that needs no escape stands for itself. -/
theorem scanString_plain {c : Char} (hquote : c ≠ '"') (hslash : c ≠ '\\') (hc : ¬c.toNat < 32)
    (rest : List Char) :
    scanString (c :: rest) = (scanString rest).map fun p => (c :: p.1, p.2) := by
  rw [scanString.eq_def]
  split
  · simp_all
  · simp_all
  · simp_all
  · simp_all
  · simp_all
  · rename_i heq
    obtain ⟨rfl, rfl⟩ := List.cons.inj heq
    rw [if_neg hc]
    cases scanString _ <;> rfl

/-- A written character is read back. -/
theorem scanString_escapeChar (c : Char) (rest : List Char) :
    scanString (escapeChar c ++ rest) =
      (scanString rest).map fun p => (c :: p.1, p.2) := by
  unfold escapeChar
  split_ifs with h1 h2 h3 h4 h5 h6 h7 h8
  iterate 7
    · subst_vars
      cases hrest : scanString rest <;> simp [scanString, escapeLetter, hrest]
  · have hunit : codeUnit '0' '0' (hexDigit (c.toNat / 16)) (hexDigit (c.toNat % 16)) =
        some c.toNat := by
      have hzero : hexValue '0' = some 0 := by decide
      simp only [codeUnit, hzero, hexValue_hexDigit _ (by omega : c.toNat / 16 < 16),
        hexValue_hexDigit _ (by omega : c.toNat % 16 < 16), Option.bind_eq_bind, Option.bind_some]
      simp only [pure, Option.some.injEq]
      omega
    rw [List.cons_append, List.cons_append, List.cons_append, List.cons_append, List.cons_append,
      List.cons_append, List.nil_append, scanString_codeUnit hunit (by omega), Char.ofNat_toNat]
  · exact scanString_plain h1 h2 h8 rest

theorem scanString_dumpsChars (cs : List Char) (rest : List Char) :
    scanString (dumpsChars cs ++ rest) = some (cs, rest) := by
  induction cs with
  | nil => simp [dumpsChars, scanString]
  | cons c cs ih => simp [dumpsChars, scanString_escapeChar, ih]

/-! ## Values -/

mutual

/-- No number of the value has a fraction or an exponent. -/
def integral : Value → Bool
  | .float _ => false
  | .arr items => integralItems items
  | .obj fields => integralFields fields
  | _ => true

def integralItems : List Value → Bool
  | [] => true
  | v :: vs => integral v && integralItems vs

def integralFields : List (String × Value) → Bool
  | [] => true
  | (_, v) :: fs => integral v && integralFields fs

end

mutual

/-- The fuel that reads the text of a value. -/
def weight : Value → ℕ
  | .arr (v :: vs) => 1 + weight v + weightItems vs
  | .obj ((_, v) :: fs) => 2 + weight v + weightFields fs
  | _ => 1

def weightItems : List Value → ℕ
  | [] => 1
  | v :: vs => 1 + weight v + weightItems vs

def weightFields : List (String × Value) → ℕ
  | [] => 1
  | (_, v) :: fs => 2 + weight v + weightFields fs

end

/-- A character that neither closes a bracket nor is white space. -/
def Opening (c : Char) : Prop :=
  (c ≠ ' ' ∧ c ≠ '\n' ∧ c ≠ '\r' ∧ c ≠ '\t') ∧ c ≠ ']' ∧ c ≠ '}'

instance (c : Char) : Decidable (Opening c) :=
  inferInstanceAs (Decidable (_ ∧ _))

theorem Opening.of_isDigit {c : Char} (h : c.isDigit = true) : Opening c := by
  refine ⟨⟨?_, ?_, ?_, ?_⟩, ?_, ?_⟩ <;> rintro rfl <;> simp at h

theorem Opening.skipSpace {c : Char} (h : Opening c) (rest : List Char) :
    skipSpace (c :: rest) = c :: rest := by
  obtain ⟨⟨h1, h2, h3, h4⟩, -⟩ := h
  simp [Json.skipSpace, h1, h2, h3, h4]

theorem dumpsInt_head (n : ℤ) :
    ∃ c cs, dumpsInt n = c :: cs ∧ (c = '-' ∨ c.isDigit = true) := by
  cases n with
  | ofNat n =>
    obtain ⟨d, ds, hd⟩ := List.exists_cons_of_ne_nil (Nat.toDigits_ne_nil (n := n) (b := 10))
    exact ⟨d, ds, hd, Or.inr (isDigit_toDigits n d (by simp [hd]))⟩
  | negSucc n => exact ⟨'-', _, rfl, Or.inl rfl⟩

/-- The text of a value opens it. -/
theorem dumps_head (v : Value) (hv : integral v = true) :
    ∃ c cs, dumps v = c :: cs ∧ Opening c := by
  cases v with
  | null => exact ⟨'n', _, rfl, by decide⟩
  | bool b => cases b <;> exact ⟨_, _, rfl, by decide⟩
  | int n =>
    obtain ⟨c, cs, hn, hc⟩ := dumpsInt_head n
    refine ⟨c, cs, hn, ?_⟩
    rcases hc with rfl | hc
    · decide
    · exact Opening.of_isDigit hc
  | float literal => simp [integral] at hv
  | str s => exact ⟨'"', _, rfl, by decide⟩
  | arr items => rcases items with _ | ⟨v, vs⟩ <;> exact ⟨'[', _, rfl, by decide⟩
  | obj fields => rcases fields with _ | ⟨⟨k, v⟩, fs⟩ <;> exact ⟨'{', _, rfl, by decide⟩

/-- A value that starts like a number is read as one. -/
theorem scanValue_of_number {c : Char} (hc : c = '-' ∨ c.isDigit = true) (fuel : ℕ)
    (cs : List Char) : scanValue (fuel + 1) (c :: cs) = scanNumber (c :: cs) := by
  have hne : ∀ d : Char, d ≠ '-' → d.isDigit = false → c ≠ d := by
    rintro d hd hdigit rfl
    rcases hc with rfl | hc
    · exact hd rfl
    · rw [hc] at hdigit
      exact Bool.noConfusion hdigit
  have hn := hne 'n' (by decide) (by decide)
  have ht := hne 't' (by decide) (by decide)
  have hf := hne 'f' (by decide) (by decide)
  have hN := hne 'N' (by decide) (by decide)
  have hI := hne 'I' (by decide) (by decide)
  have hq := hne '"' (by decide) (by decide)
  have hb := hne '[' (by decide) (by decide)
  have ho := hne '{' (by decide) (by decide)
  rw [scanValue.eq_def]
  split <;> simp_all

theorem integralItems_iff (vs : List Value) :
    integralItems vs = true ↔ ∀ v ∈ vs, integral v = true := by
  induction vs with
  | nil => simp [integralItems]
  | cons v vs ih => simp [integralItems, ih]

theorem integralFields_iff (fs : List (String × Value)) :
    integralFields fs = true ↔ ∀ f ∈ fs, integral f.2 = true := by
  induction fs with
  | nil => simp [integralFields]
  | cons f fs ih => simp [integralFields, ih]

/-- Binding an integral value keeps the numbers integral. -/
theorem integralFields_bindField {fs : List (String × Value)} {key : String} {v : Value}
    (hfs : integralFields fs = true) (hv : integral v = true) :
    integralFields (bindField fs key v) = true := by
  rw [integralFields_iff] at hfs ⊢
  unfold bindField
  split
  · intro f hf
    obtain ⟨g, hg, rfl⟩ := List.mem_map.mp hf
    by_cases hkey : g.1 = key
    · rw [if_pos hkey]
      exact hv
    · rw [if_neg hkey]
      exact hfs g hg
  · intro f hf
    rcases List.mem_append.mp hf with hf | hf
    · exact hfs f hf
    · rw [List.mem_singleton.mp hf]
      exact hv

theorem integralFields_perm {fs gs : List (String × Value)} (h : fs.Perm gs) :
    integralFields fs = integralFields gs := by
  induction h with
  | nil => rfl
  | cons f _ ih => simp [integralFields, ih]
  | swap f g fs => simp [integralFields, Bool.and_left_comm]
  | trans _ _ ih ih' => exact ih.trans ih'

theorem skipSpace_dumps {v : Value} (hv : integral v = true) (rest : List Char) :
    skipSpace (dumps v ++ rest) = dumps v ++ rest := by
  obtain ⟨c, cs, hdumps, hc⟩ := dumps_head v hv
  rw [hdumps, List.cons_append, hc.skipSpace]

theorem delimited_dumpsItems (vs : List Value) (rest : List Char) :
    Delimited (dumpsItems vs ++ rest) := by
  cases vs <;> exact delimited_cons _ (by decide)

theorem delimited_dumpsFields (fs : List (String × Value)) (rest : List Char) :
    Delimited (dumpsFields fs ++ rest) := by
  rcases fs with _ | ⟨⟨k, v⟩, fs⟩ <;> exact delimited_cons _ (by decide)

/-- A field is read back when its value is. -/
theorem scanField_dumps (k : String) {v : Value} (hv : integral v = true) {fuel : ℕ}
    {rest : List Char} (hscan : scanValue fuel (dumps v ++ rest) = some (v, rest)) :
    scanField (fuel + 1) (dumpsString k ++ ':' :: (dumps v ++ rest)) = some ((k, v), rest) := by
  have hcolon : skipSpace (':' :: (dumps v ++ rest)) = ':' :: (dumps v ++ rest) :=
    Opening.skipSpace (by decide) _
  simp [dumpsString, scanField, scanString_dumpsChars, hcolon, skipSpace_dumps hv, hscan]

mutual

/-- The text of a value reads back as the value. -/
theorem scanValue_dumps : ∀ (v : Value) (fuel : ℕ) (rest : List Char), integral v = true →
    weight v ≤ fuel → Delimited rest → scanValue fuel (dumps v ++ rest) = some (v, rest)
  | .null, fuel + 1, rest, _, _, _ => by simp [dumps, scanValue]
  | .bool true, fuel + 1, rest, _, _, _ => by simp [dumps, scanValue]
  | .bool false, fuel + 1, rest, _, _, _ => by simp [dumps, scanValue]
  | .int n, fuel + 1, rest, _, _, hrest => by
    obtain ⟨c, cs, hdumps, hc⟩ := dumpsInt_head n
    have hscan := scanNumber_dumpsInt n hrest
    rw [hdumps, List.cons_append] at hscan
    rw [dumps, hdumps, List.cons_append, scanValue_of_number hc, hscan]
  | .float _, _, _, hv, _, _ => by simp [integral] at hv
  | .str s, fuel + 1, rest, _, _, _ => by
    simp [dumps, dumpsString, scanValue, scanString_dumpsChars]
  | .arr [], fuel + 1, rest, _, _, _ => by simp [dumps, scanValue, skipSpace]
  | .arr (v :: vs), fuel + 1, rest, hv, hfuel, _ => by
    simp only [integral, integralItems, Bool.and_eq_true] at hv
    simp only [weight] at hfuel
    obtain ⟨c, cs, hdumps, hc⟩ := dumps_head v hv.1
    have hhead := scanValue_dumps v fuel (dumpsItems vs ++ rest) hv.1 (by omega)
      (delimited_dumpsItems vs rest)
    have htail := scanItems_dumps vs fuel rest hv.2 (by omega)
    have hskip := hc.skipSpace (cs ++ (dumpsItems vs ++ rest))
    rw [hdumps, List.cons_append] at hhead
    simp only [dumps, List.cons_append, List.append_assoc, hdumps, scanValue, hskip]
    split
    · rename_i heq
      exact absurd (List.cons.inj heq).1 hc.2.1
    · simp [hhead, htail]
  | .obj [], fuel + 1, rest, _, _, _ => by simp [dumps, scanValue, skipSpace]
  | .obj ((k, v) :: fs), fuel + 2, rest, hv, hfuel, _ => by
    simp only [integral, integralFields, Bool.and_eq_true] at hv
    simp only [weight] at hfuel
    have hvalue := scanValue_dumps v fuel (dumpsFields fs ++ rest) hv.1 (by omega)
      (delimited_dumpsFields fs rest)
    have hhead := scanField_dumps k hv.1 hvalue
    have htail := scanFields_dumps fs (fuel + 1) rest hv.2 (by omega)
    have hskip : skipSpace (dumpsString k ++ ':' :: (dumps v ++ (dumpsFields fs ++ rest))) =
        dumpsString k ++ ':' :: (dumps v ++ (dumpsFields fs ++ rest)) :=
      Opening.skipSpace (c := '"') (by decide) _
    simp only [dumps, List.cons_append, List.append_assoc, scanValue, hskip]
    split
    · rename_i heq
      simp [dumpsString] at heq
    · simp [hhead, htail]
  | .null, 0, _, _, hfuel, _ => by simp [weight] at hfuel
  | .bool _, 0, _, _, hfuel, _ => by simp [weight] at hfuel
  | .int _, 0, _, _, hfuel, _ => by simp [weight] at hfuel
  | .str _, 0, _, _, hfuel, _ => by simp [weight] at hfuel
  | .arr [], 0, _, _, hfuel, _ => by simp [weight] at hfuel
  | .arr (_ :: _), 0, _, _, hfuel, _ => by simp [weight] at hfuel
  | .obj [], 0, _, _, hfuel, _ => by simp [weight] at hfuel
  | .obj (_ :: _), 0, _, _, hfuel, _ => by simp [weight] at hfuel
  | .obj (_ :: _), 1, _, _, hfuel, _ => by
    simp only [weight] at hfuel
    omega

/-- The text of the items of an array reads back as the items. -/
theorem scanItems_dumps : ∀ (vs : List Value) (fuel : ℕ) (rest : List Char),
    integralItems vs = true → weightItems vs ≤ fuel →
      scanItems fuel (dumpsItems vs ++ rest) = some (vs, rest)
  | [], fuel + 1, rest, _, _ => by simp [dumpsItems, scanItems, skipSpace]
  | v :: vs, fuel + 1, rest, hv, hfuel => by
    simp only [integralItems, Bool.and_eq_true] at hv
    simp only [weightItems] at hfuel
    have hhead := scanValue_dumps v fuel (dumpsItems vs ++ rest) hv.1 (by omega)
      (delimited_dumpsItems vs rest)
    have htail := scanItems_dumps vs fuel rest hv.2 (by omega)
    have hcomma := Opening.skipSpace (c := ',') (by decide) (dumps v ++ (dumpsItems vs ++ rest))
    simp [dumpsItems, scanItems, hcomma, skipSpace_dumps hv.1, hhead, htail]
  | [], 0, _, _, hfuel => by simp [weightItems] at hfuel
  | _ :: _, 0, _, _, hfuel => by simp [weightItems] at hfuel

/-- The text of the fields of an object reads back as the fields. -/
theorem scanFields_dumps : ∀ (fs : List (String × Value)) (fuel : ℕ) (rest : List Char),
    integralFields fs = true → weightFields fs ≤ fuel →
      scanFields fuel (dumpsFields fs ++ rest) = some (fs, rest)
  | [], fuel + 1, rest, _, _ => by simp [dumpsFields, scanFields, skipSpace]
  | (k, v) :: fs, fuel + 2, rest, hv, hfuel => by
    simp only [integralFields, Bool.and_eq_true] at hv
    simp only [weightFields] at hfuel
    have hvalue := scanValue_dumps v fuel (dumpsFields fs ++ rest) hv.1 (by omega)
      (delimited_dumpsFields fs rest)
    have hhead := scanField_dumps k hv.1 hvalue
    have htail := scanFields_dumps fs (fuel + 1) rest hv.2 (by omega)
    have hcomma := Opening.skipSpace (c := ',') (by decide)
      (dumpsString k ++ ':' :: (dumps v ++ (dumpsFields fs ++ rest)))
    have hskip : skipSpace (dumpsString k ++ ':' :: (dumps v ++ (dumpsFields fs ++ rest))) =
        dumpsString k ++ ':' :: (dumps v ++ (dumpsFields fs ++ rest)) :=
      Opening.skipSpace (c := '"') (by decide) _
    simp only [dumpsFields, List.cons_append, List.append_assoc]
    rw [scanFields, hcomma]
    simp [hskip, hhead, htail]
  | [], 0, _, _, hfuel => by simp [weightFields] at hfuel
  | _ :: _, 0, _, _, hfuel => by simp [weightFields] at hfuel
  | _ :: _, 1, _, _, hfuel => by
    simp only [weightFields] at hfuel
    omega

end

/-! ## Documents -/

/-- A written text has its two quotes. -/
theorem length_dumpsString_pos (s : String) : 2 ≤ (dumpsString s).length := by
  have : ∀ cs, 1 ≤ (dumpsChars cs).length := by
    intro cs
    induction cs with
    | nil => simp [dumpsChars]
    | cons c cs ih =>
      simp only [dumpsChars, List.length_append]
      omega
  have := this s.toList
  simp only [dumpsString, List.length_cons]
  omega

mutual

/-- The text of a value is as long as the fuel that reads it. -/
theorem weight_le_length : ∀ v : Value, integral v = true → weight v ≤ (dumps v).length
  | .null, _ => by simp [weight, dumps]
  | .bool true, _ => by simp [weight, dumps]
  | .bool false, _ => by simp [weight, dumps]
  | .int n, _ => by
    obtain ⟨c, cs, hn, -⟩ := dumpsInt_head n
    simp [weight, dumps, hn]
  | .float _, hv => by simp [integral] at hv
  | .str s, _ => by
    have := length_dumpsString_pos s
    simp only [weight, dumps]
    omega
  | .arr [], _ => by simp [weight, dumps]
  | .arr (v :: vs), hv => by
    simp only [integral, integralItems, Bool.and_eq_true] at hv
    have hhead := weight_le_length v hv.1
    have htail := weightItems_le_length vs hv.2
    simp only [weight, dumps, List.length_cons, List.length_append]
    omega
  | .obj [], _ => by simp [weight, dumps]
  | .obj ((k, v) :: fs), hv => by
    simp only [integral, integralFields, Bool.and_eq_true] at hv
    have hhead := weight_le_length v hv.1
    have htail := weightFields_le_length fs hv.2
    simp only [weight, dumps, List.length_cons, List.length_append]
    omega

theorem weightItems_le_length : ∀ vs : List Value, integralItems vs = true →
    weightItems vs ≤ (dumpsItems vs).length
  | [], _ => by simp [weightItems, dumpsItems]
  | v :: vs, hv => by
    simp only [integralItems, Bool.and_eq_true] at hv
    have hhead := weight_le_length v hv.1
    have htail := weightItems_le_length vs hv.2
    simp only [weightItems, dumpsItems, List.length_cons, List.length_append]
    omega

theorem weightFields_le_length : ∀ fs : List (String × Value), integralFields fs = true →
    weightFields fs ≤ (dumpsFields fs).length
  | [], _ => by simp [weightFields, dumpsFields]
  | (k, v) :: fs, hv => by
    simp only [integralFields, Bool.and_eq_true] at hv
    have hhead := weight_le_length v hv.1
    have htail := weightFields_le_length fs hv.2
    simp only [weightFields, dumpsFields, List.length_cons, List.length_append]
    omega

end

/-- A document reads back as its value. -/
theorem scan_dumps {v : Value} (hv : integral v = true) : scan (dumps v) = some v := by
  have hskip := skipSpace_dumps hv []
  have hscan := scanValue_dumps v (2 * (dumps v).length + 2) [] hv
    (by have := weight_le_length v hv; omega) delimited_nil
  rw [List.append_nil] at hskip hscan
  simp [scan, hskip, hscan, skipSpace]

/-- `json.dumps(value, ensure_ascii=False, sort_keys=True, separators=(",", ":")).encode()`. -/
def canonicalBytes (v : Value) : List UInt8 :=
  (dumps (sortKeys v)).flatMap String.utf8EncodeChar

/-- The value of a UTF-8 text, objects as their pairs. -/
def decode (raw : List UInt8) : Option Value := do
  let text ← String.fromUTF8? raw.toByteArray
  scan text.toList

/-- `json.loads` : the last binding of a repeated key counts. -/
def loads (raw : List UInt8) : Option Value := (decode raw).map toDict

theorem fromUTF8?_toUTF8 (s : String) : String.fromUTF8? s.toUTF8 = some s := by
  simp [String.fromUTF8?, String.toUTF8, s.isValidUTF8, String.fromUTF8]

theorem fromUTF8?_encode (cs : List Char) :
    String.fromUTF8? (cs.flatMap String.utf8EncodeChar).toByteArray = some (String.ofList cs) :=
  fromUTF8?_toUTF8 (String.ofList cs)

mutual

theorem integral_sortKeys : ∀ v : Value, integral (sortKeys v) = integral v
  | .null | .bool _ | .int _ | .float _ | .str _ => rfl
  | .arr items => by simp [sortKeys, integral, integralItems_sortItems items]
  | .obj fields => by
    simp only [sortKeys, integral]
    rw [integralFields_perm (List.perm_insertionSort _ _), integralFields_sortFields fields]

theorem integralItems_sortItems : ∀ vs : List Value,
    integralItems (sortItems vs) = integralItems vs
  | [] => rfl
  | v :: vs => by simp [sortItems, integralItems, integral_sortKeys v, integralItems_sortItems vs]

theorem integralFields_sortFields : ∀ fs : List (String × Value),
    integralFields (sortFields fs) = integralFields fs
  | [] => rfl
  | (k, v) :: fs => by
    simp [sortFields, integralFields, integral_sortKeys v, integralFields_sortFields fs]

end

/-- The canonical bytes of a value read back as the value with its keys sorted. -/
theorem decode_canonicalBytes {v : Value} (hv : integral v = true) :
    decode (canonicalBytes v) = some (sortKeys v) := by
  have hscan := scan_dumps ((integral_sortKeys v).trans hv)
  rw [decode, canonicalBytes, fromUTF8?_encode]
  simp [hscan]

/-- Canonical bytes without repeated keys load as the value with its keys sorted. -/
theorem loads_canonicalBytes {v : Value} (hv : integral v = true) (hu : uniqueKeys v = true) :
    loads (canonicalBytes v) = some (sortKeys v) := by
  rw [loads, decode_canonicalBytes hv, Option.map_some,
    toDict_of_uniqueKeys _ ((uniqueKeys_sortKeys v).trans hu)]

/-! ## Plain values -/

/-- A value the canonical text keeps : no fractional numbers, no repeated keys. -/
structure Plain (v : Value) : Prop where
  integral : integral v = true
  uniqueKeys : uniqueKeys v = true

theorem Plain.str (s : String) : Plain (.str s) := ⟨rfl, rfl⟩
theorem Plain.int (n : ℤ) : Plain (.int n) := ⟨rfl, rfl⟩
theorem Plain.bool (b : Bool) : Plain (.bool b) := ⟨rfl, rfl⟩
theorem Plain.null : Plain .null := ⟨rfl, rfl⟩

theorem Plain.optional (s : Option String) : Plain (Value.optional s) := by
  cases s
  · exact Plain.null
  · exact Plain.str _

theorem Plain.arr {items : List Value} (h : ∀ v ∈ items, Plain v) : Plain (.arr items) := by
  induction items with
  | nil => exact ⟨rfl, rfl⟩
  | cons v items ih =>
    have hv := h v List.mem_cons_self
    have hrest := ih fun w hw => h w (List.mem_cons_of_mem v hw)
    constructor
    · simpa [Json.integral, integralItems, hv.integral] using hrest.integral
    · simpa [Json.uniqueKeys, uniqueItems, hv.uniqueKeys] using hrest.uniqueKeys

theorem Plain.arr_map {α : Type} {f : α → Value} (h : ∀ a, Plain (f a)) (as : List α) :
    Plain (.arr (as.map f)) := by
  refine Plain.arr fun v hv => ?_
  obtain ⟨a, -, rfl⟩ := List.mem_map.mp hv
  exact h a

/-- An object with different names and plain values is plain. -/
theorem Plain.obj {fields : List (String × Value)} (hnodup : (fields.map Prod.fst).Nodup)
    (h : ∀ f ∈ fields, Plain f.2) : Plain (.obj fields) := by
  have hfields : integralFields fields = true ∧ uniqueFields fields = true := by
    clear hnodup
    induction fields with
    | nil => exact ⟨rfl, rfl⟩
    | cons f fields ih =>
      have hf := h f List.mem_cons_self
      have hrest := ih fun g hg => h g (List.mem_cons_of_mem f hg)
      simpa [integralFields, uniqueFields, hf.integral, hf.uniqueKeys] using hrest
  constructor
  · exact hfields.1
  · simp only [Json.uniqueKeys, decide_eq_true hnodup, hfields.2, Bool.and_self]

/-- The canonical bytes of a plain value load as the value with its keys sorted. -/
theorem Plain.loads {v : Value} (h : Plain v) : loads (canonicalBytes v) = some (sortKeys v) :=
  loads_canonicalBytes h.integral h.uniqueKeys

end Json
