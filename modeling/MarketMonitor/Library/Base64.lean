import Mathlib.Data.List.TakeWhile
import Mathlib.Data.Nat.Notation

/-!
# URL-safe Base64

`encode` writes the bytes of a text three at a time as four characters, the last ones padded
with `=`. `decode` reads a text the lenient way : it skips the characters outside the
alphabet, ends at the padding and refuses a text that ends within a group. Either alphabet is
read.

`decode_pad_strip` : a text that was written and stripped of its padding reads back as its
bytes, once it is padded to a multiple of four again.
-/

namespace Base64

/-! ## The alphabet -/

/-- The character of a number below 64. -/
def digit (n : ℕ) : Char :=
  if n < 26 then Char.ofNat (65 + n)
  else if n < 52 then Char.ofNat (71 + n)
  else if n < 62 then Char.ofNat (n - 4)
  else if n = 62 then '-' else '_'

/-- The number of a character of either alphabet. -/
def value (c : Char) : Option ℕ :=
  if 'A' ≤ c ∧ c ≤ 'Z' then some (c.toNat - 65)
  else if 'a' ≤ c ∧ c ≤ 'z' then some (c.toNat - 71)
  else if '0' ≤ c ∧ c ≤ '9' then some (c.toNat + 4)
  else if c = '-' ∨ c = '+' then some 62
  else if c = '_' ∨ c = '/' then some 63
  else none

theorem value_digit : ∀ n < 64, value (digit n) = some n := by decide

theorem digit_ne_pad : ∀ n < 64, digit n ≠ '=' := by decide

theorem digit_ascii : ∀ n < 64, (digit n).toNat < 128 := by decide

/-! ## Writing -/

/-- The characters of a text without the padding. -/
def core : List UInt8 → List Char
  | [] => []
  | [a] => [digit (a.toNat / 4), digit (a.toNat % 4 * 16)]
  | [a, b] => [digit (a.toNat / 4), digit (a.toNat % 4 * 16 + b.toNat / 16),
      digit (b.toNat % 16 * 4)]
  | a :: b :: c :: rest =>
    digit (a.toNat / 4) :: digit (a.toNat % 4 * 16 + b.toNat / 16) ::
      digit (b.toNat % 16 * 4 + c.toNat / 64) :: digit (c.toNat % 64) :: core rest

/-- `"=" * (-n % 4)` -/
def padding (n : ℕ) : List Char := List.replicate ((4 - n % 4) % 4) '='

/-- `base64.urlsafe_b64encode(raw)` -/
def encode (raw : List UInt8) : List Char := core raw ++ padding (core raw).length

/-! ## Reading -/

/-- The rest of a text, after `place` characters of a group that leave the bits `left`, with
`pads` characters of padding before it. -/
def decodeFrom (place left pads : ℕ) : List Char → Option (List UInt8)
  | [] => if place = 0 then some [] else none
  | c :: cs =>
    if c = '=' then
      if 2 ≤ place then
        if 4 ≤ place + (pads + 1) then some [] else decodeFrom place left (pads + 1) cs
      else decodeFrom place left pads cs
    else
      match value c with
      | none => decodeFrom place left pads cs
      | some v =>
        match place with
        | 0 => decodeFrom 1 v 0 cs
        | 1 => (decodeFrom 2 (v % 16) 0 cs).map (UInt8.ofNat (left * 4 + v / 16) :: ·)
        | 2 => (decodeFrom 3 (v % 4) 0 cs).map (UInt8.ofNat (left * 16 + v / 4) :: ·)
        | _ => (decodeFrom 0 0 0 cs).map (UInt8.ofNat (left * 64 + v) :: ·)

/-- `base64.urlsafe_b64decode(text)`, of a text within ASCII. -/
def decode (text : List Char) : Option (List UInt8) :=
  if text.all fun c => c.toNat < 128 then decodeFrom 0 0 0 text else none

/-! ## What was written reads back -/

section Reading

variable {n left pads : ℕ} {cs : List Char}

theorem decodeFrom_first (hn : n < 64) :
    decodeFrom 0 left pads (digit n :: cs) = decodeFrom 1 n 0 cs := by
  rw [decodeFrom, if_neg (digit_ne_pad n hn), value_digit n hn]
  rfl

theorem decodeFrom_second (hn : n < 64) :
    decodeFrom 1 left pads (digit n :: cs) =
      (decodeFrom 2 (n % 16) 0 cs).map (UInt8.ofNat (left * 4 + n / 16) :: ·) := by
  rw [decodeFrom, if_neg (digit_ne_pad n hn), value_digit n hn]
  rfl

theorem decodeFrom_third (hn : n < 64) :
    decodeFrom 2 left pads (digit n :: cs) =
      (decodeFrom 3 (n % 4) 0 cs).map (UInt8.ofNat (left * 16 + n / 4) :: ·) := by
  rw [decodeFrom, if_neg (digit_ne_pad n hn), value_digit n hn]
  rfl

theorem decodeFrom_fourth (hn : n < 64) :
    decodeFrom 3 left pads (digit n :: cs) =
      (decodeFrom 0 0 0 cs).map (UInt8.ofNat (left * 64 + n) :: ·) := by
  rw [decodeFrom, if_neg (digit_ne_pad n hn), value_digit n hn]
  rfl

end Reading

theorem ofNat_of_eq {n : ℕ} {a : UInt8} (h : n = a.toNat) : UInt8.ofNat n = a := by
  rw [h]
  exact UInt8.ofNat_toNat

/-- The characters of a text with their padding read back as its bytes. -/
theorem decodeFrom_encode : ∀ raw : List UInt8, decodeFrom 0 0 0 (encode raw) = some raw
  | [] => rfl
  | [a] => by
    have ha := a.toNat_lt
    have hpad : decodeFrom 2 (a.toNat % 4 * 16 % 16) 0 ['=', '='] = some [] := rfl
    rw [encode, core]
    change decodeFrom 0 0 0 (digit _ :: digit _ :: ['=', '=']) = _
    rw [decodeFrom_first (by omega), decodeFrom_second (by omega), hpad, Option.map_some,
      ofNat_of_eq (a := a) (by omega)]
  | [a, b] => by
    have ha := a.toNat_lt
    have hb := b.toNat_lt
    have hpad : decodeFrom 3 (b.toNat % 16 * 4 % 4) 0 ['='] = some [] := rfl
    rw [encode, core]
    change decodeFrom 0 0 0 (digit _ :: digit _ :: digit _ :: ['=']) = _
    rw [decodeFrom_first (by omega), decodeFrom_second (by omega), decodeFrom_third (by omega),
      hpad, Option.map_some, Option.map_some, ofNat_of_eq (a := a) (by omega),
      ofNat_of_eq (a := b) (by omega)]
  | a :: b :: c :: rest => by
    have ha := a.toNat_lt
    have hb := b.toNat_lt
    have hc := c.toNat_lt
    have hencode : encode (a :: b :: c :: rest) = digit (a.toNat / 4) ::
        digit (a.toNat % 4 * 16 + b.toNat / 16) :: digit (b.toNat % 16 * 4 + c.toNat / 64) ::
        digit (c.toNat % 64) :: encode rest := by
      have hlength : padding ((core rest).length + 4) = padding (core rest).length := by
        rw [padding, padding, Nat.add_mod_right]
      simp only [encode, core, List.length_cons, List.cons_append]
      rw [← hlength]
    rw [hencode, decodeFrom_first (by omega), decodeFrom_second (by omega),
      decodeFrom_third (by omega), decodeFrom_fourth (by omega), decodeFrom_encode rest]
    simp only [Option.map_some, Option.some.injEq, List.cons.injEq, and_true]
    exact ⟨ofNat_of_eq (by omega), ofNat_of_eq (by omega), ofNat_of_eq (by omega)⟩

/-- The characters of an encoding are digits. -/
theorem mem_core : ∀ {raw : List UInt8} {c : Char}, c ∈ core raw → ∃ n < 64, c = digit n
  | [], _, h => absurd h List.not_mem_nil
  | [a], _, h => by
    have ha := a.toNat_lt
    simp only [core, List.mem_cons, List.not_mem_nil, or_false] at h
    rcases h with rfl | rfl
    · exact ⟨_, by omega, rfl⟩
    · exact ⟨_, by omega, rfl⟩
  | [a, b], _, h => by
    have ha := a.toNat_lt
    have hb := b.toNat_lt
    simp only [core, List.mem_cons, List.not_mem_nil, or_false] at h
    rcases h with rfl | rfl | rfl
    · exact ⟨_, by omega, rfl⟩
    · exact ⟨_, by omega, rfl⟩
    · exact ⟨_, by omega, rfl⟩
  | a :: b :: c :: rest, _, h => by
    have ha := a.toNat_lt
    have hb := b.toNat_lt
    have hc := c.toNat_lt
    simp only [core, List.mem_cons] at h
    rcases h with rfl | rfl | rfl | rfl | h
    · exact ⟨_, by omega, rfl⟩
    · exact ⟨_, by omega, rfl⟩
    · exact ⟨_, by omega, rfl⟩
    · exact ⟨_, by omega, rfl⟩
    · exact mem_core h

/-- `text.rstrip("=")` -/
def strip (text : List Char) : List Char := (text.reverse.dropWhile (· = '=')).reverse

/-- Without its padding an encoding is its digits. -/
theorem strip_encode (raw : List UInt8) : strip (encode raw) = core raw := by
  have hpads : (padding (core raw).length).reverse.dropWhile (· = '=') = [] := by
    rw [List.dropWhile_eq_nil_iff]
    intro c hc
    exact decide_eq_true (List.eq_of_mem_replicate (List.mem_reverse.mp hc))
  have hcore : (core raw).reverse.dropWhile (· = '=') = (core raw).reverse := by
    rw [List.dropWhile_eq_self_iff]
    intro h
    have hmem : (core raw).reverse[0] ∈ core raw := List.mem_reverse.mp (List.getElem_mem h)
    obtain ⟨n, hn, heq⟩ := mem_core hmem
    rw [heq, decide_eq_true_eq]
    exact digit_ne_pad n hn
  rw [strip, encode, List.reverse_append]
  have hdrop : ∀ xs ys : List Char, xs.dropWhile (· = '=') = [] →
      (xs ++ ys).dropWhile (· = '=') = ys.dropWhile (· = '=') := by
    intro xs ys hxs
    rw [List.dropWhile_append, hxs]
    rfl
  rw [hdrop _ _ hpads, hcore, List.reverse_reverse]

/-- A text that is written, stripped and padded again reads back. -/
theorem decode_pad_strip (raw : List UInt8) :
    decode (strip (encode raw) ++ padding (strip (encode raw)).length) = some raw := by
  have hascii : ∀ c ∈ encode raw, c.toNat < 128 := by
    intro c hc
    rcases List.mem_append.mp hc with hc | hc
    · obtain ⟨n, hn, rfl⟩ := mem_core hc
      exact digit_ascii n hn
    · rw [List.eq_of_mem_replicate hc]
      decide
  rw [strip_encode]
  change decode (encode raw) = _
  rw [decode, if_pos (List.all_eq_true.mpr fun c hc => decide_eq_true (hascii c hc)),
    decodeFrom_encode]

end Base64
