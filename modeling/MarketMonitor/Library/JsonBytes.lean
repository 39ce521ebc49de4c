import MarketMonitor.Library.JsonText
import MarketMonitor.Library.Sha256

/-!
# The canonical bytes of a document

The text of a document is written as characters, and its canonical form is their
encoding. A string is stored as its encoding already, and no byte of a character outside
ASCII needs an escape, so that the canonical bytes can be written from the stored bytes
without decoding them (`map_toNat_canonicalBytes`). The bytes are numbers here, each
evaluated once : this is the form in which the kernel computes a hash
(`hexdigest_canonicalBytes`).
-/

namespace Json

open Sha256 (force force_eq)

/-! ## Strings -/

/-- The encoding of a character, as numbers. -/
def charBytes (c : Char) : List ℕ := (String.utf8EncodeChar c).map UInt8.toNat

/-- A byte of an encoded string, escaped when it is a character that needs it. -/
def escapeByte (n : ℕ) : List ℕ :=
  bif Nat.ble 128 n || (Nat.ble 32 n && !(Nat.beq n 34 || Nat.beq n 92)) then [n]
  else (escapeChar (Char.ofNat n)).flatMap charBytes

/-- The bytes of a string literal. -/
def encodeString (s : String) : List ℕ :=
  34 :: (s.toByteArray.data.toList.flatMap (fun b => force b.toNat escapeByte) ++ [34])

theorem charBytes_of_lt {c : Char} (h : c.toNat < 128) : charBytes c = [c.toNat] := by
  have hval : c.val.toNat = c.toNat := rfl
  unfold charBytes String.utf8EncodeChar
  simp only [hval]
  rw [if_pos (by omega), List.map_singleton, UInt8.toNat_ofNat_of_lt' (by
    show c.toNat < 256
    omega)]

/-- A character without an escape. -/
theorem escapeChar_eq_self {c : Char} (hlow : 32 ≤ c.toNat) (hquote : c.toNat ≠ 34)
    (hslash : c.toNat ≠ 92) : escapeChar c = [c] := by
  have hne : ∀ d : Char, c.toNat ≠ d.toNat → c ≠ d := by
    rintro d hd rfl
    exact hd rfl
  have hcontrol : ∀ d : Char, d.toNat < 32 → c ≠ d := fun d hd => hne d (by omega)
  simp only [escapeChar, hne '"' hquote, hne '\\' hslash, hcontrol '\n' (by decide),
    hcontrol '\r' (by decide), hcontrol '\t' (by decide), hcontrol '\x0c' (by decide),
    hcontrol '\x08' (by decide), if_false]
  rw [if_neg (by omega)]

/-- No byte of a character outside ASCII is one of ASCII. -/
theorem le_of_mem_charBytes {c : Char} (h : 128 ≤ c.toNat) {n : ℕ} (hn : n ∈ charBytes c) :
    128 ≤ n := by
  have hval : c.val.toNat = c.toNat := rfl
  have hbyte : ∀ m : ℕ, 128 ≤ m → m < 256 → 128 ≤ (UInt8.ofNat m).toNat := fun m hlow hhigh => by
    rw [UInt8.toNat_ofNat_of_lt' hhigh]
    exact hlow
  unfold charBytes String.utf8EncodeChar at hn
  simp only [hval] at hn
  rw [if_neg (by omega)] at hn
  split at hn
  · simp only [List.map_cons, List.map_nil, List.mem_cons, List.not_mem_nil, or_false] at hn
    rcases hn with rfl | rfl <;> exact hbyte _ (by omega) (by omega)
  · split at hn
    · simp only [List.map_cons, List.map_nil, List.mem_cons, List.not_mem_nil, or_false] at hn
      rcases hn with rfl | rfl | rfl <;> exact hbyte _ (by omega) (by omega)
    · simp only [List.map_cons, List.map_nil, List.mem_cons, List.not_mem_nil, or_false] at hn
      rcases hn with rfl | rfl | rfl | rfl <;> exact hbyte _ (by omega) (by omega)

theorem escapeByte_of_le {n : ℕ} (h : 128 ≤ n) : escapeByte n = [n] := by
  have hble : Nat.ble 128 n = true := Nat.ble_eq.mpr h
  simp [escapeByte, hble]

/-- The encoding of an escaped character is the escaped encoding. -/
theorem charBytes_escapeChar (c : Char) :
    (escapeChar c).flatMap charBytes = (charBytes c).flatMap escapeByte := by
  by_cases hascii : c.toNat < 128
  · rw [charBytes_of_lt hascii, List.flatMap_singleton, escapeByte]
    cases hplain : Nat.ble 128 c.toNat ||
      (Nat.ble 32 c.toNat && !(Nat.beq c.toNat 34 || Nat.beq c.toNat 92)) with
    | false => rw [cond_false, Char.ofNat_toNat]
    | true =>
      rw [cond_true]
      simp only [Bool.or_eq_true, Bool.and_eq_true, Nat.ble_eq, Bool.not_eq_true',
        Bool.or_eq_false_iff] at hplain
      obtain hhigh | ⟨hlow, hquote, hslash⟩ := hplain
      · omega
      · rw [escapeChar_eq_self hlow (Nat.ne_of_beq_eq_false hquote)
          (Nat.ne_of_beq_eq_false hslash), List.flatMap_singleton, charBytes_of_lt hascii]
  · have hhigh : 128 ≤ c.toNat := by omega
    rw [escapeChar_eq_self (by omega) (by omega) (by omega), List.flatMap_singleton]
    calc charBytes c = (charBytes c).flatMap fun n => [n] := (List.flatMap_pure_eq_map _ _).symm ▸
          (List.map_id _).symm
      _ = (charBytes c).flatMap escapeByte :=
          List.flatMap_congr fun n hn => (escapeByte_of_le (le_of_mem_charBytes hhigh hn)).symm

theorem charBytes_dumpsChars (cs : List Char) : (dumpsChars cs).flatMap charBytes =
    (cs.flatMap charBytes).flatMap escapeByte ++ [34] := by
  induction cs with
  | nil => rfl
  | cons c cs ih =>
    rw [dumpsChars, List.flatMap_append, ih, charBytes_escapeChar, List.flatMap_cons,
      List.flatMap_append, List.append_assoc]

/-- The bytes a string is stored as. -/
theorem map_toNat_toByteArray (s : String) :
    s.toByteArray.data.toList.map UInt8.toNat = s.toList.flatMap charBytes := by
  rw [← String.utf8Encode_toList, List.utf8Encode, List.data_toByteArray, List.toList_toArray,
    List.map_flatMap]
  rfl

theorem charBytes_dumpsString (s : String) :
    (dumpsString s).flatMap charBytes = encodeString s := by
  have hforce : (fun b : UInt8 => force b.toNat escapeByte) = fun b => escapeByte b.toNat :=
    funext fun b => force_eq _ _
  rw [dumpsString, List.flatMap_cons, charBytes_dumpsChars, encodeString,
    ← map_toNat_toByteArray, List.flatMap_map, hforce]
  rfl

/-! ## Values -/

mutual

/-- The bytes of the compact text of a value. -/
def encode : Value → List ℕ
  | .null => [110, 117, 108, 108]
  | .bool true => [116, 114, 117, 101]
  | .bool false => [102, 97, 108, 115, 101]
  | .int n => (dumpsInt n).flatMap charBytes
  | .float literal => literal.toByteArray.data.toList.map UInt8.toNat
  | .str s => encodeString s
  | .arr [] => [91, 93]
  | .arr (v :: vs) => 91 :: (encode v ++ encodeItems vs)
  | .obj [] => [123, 125]
  | .obj ((k, v) :: fs) => 123 :: (encodeString k ++ 58 :: (encode v ++ encodeFields fs))

/-- The bytes of the items after the first one. -/
def encodeItems : List Value → List ℕ
  | [] => [93]
  | v :: vs => 44 :: (encode v ++ encodeItems vs)

/-- The bytes of the fields after the first one. -/
def encodeFields : List (String × Value) → List ℕ
  | [] => [125]
  | (k, v) :: fs => 44 :: (encodeString k ++ 58 :: (encode v ++ encodeFields fs))

end

mutual

/-- The bytes of a text are those of its encoding. -/
theorem charBytes_dumps : ∀ v : Value, (dumps v).flatMap charBytes = encode v
  | .null | .bool true | .bool false | .int _ => rfl
  | .float literal => by rw [dumps, encode, map_toNat_toByteArray]
  | .str s => by rw [dumps, encode, charBytes_dumpsString]
  | .arr [] => rfl
  | .arr (v :: vs) => by
    rw [dumps, encode, List.flatMap_cons, List.flatMap_append, charBytes_dumps v,
      charBytes_dumpsItems vs]
    rfl
  | .obj [] => rfl
  | .obj ((k, v) :: fs) => by
    rw [dumps, encode, List.flatMap_cons, List.flatMap_append, List.flatMap_cons,
      List.flatMap_append, charBytes_dumpsString, charBytes_dumps v, charBytes_dumpsFields fs]
    rfl

theorem charBytes_dumpsItems : ∀ vs : List Value,
    (dumpsItems vs).flatMap charBytes = encodeItems vs
  | [] => rfl
  | v :: vs => by
    rw [dumpsItems, encodeItems, List.flatMap_cons, List.flatMap_append, charBytes_dumps v,
      charBytes_dumpsItems vs]
    rfl

theorem charBytes_dumpsFields : ∀ fs : List (String × Value),
    (dumpsFields fs).flatMap charBytes = encodeFields fs
  | [] => rfl
  | (k, v) :: fs => by
    rw [dumpsFields, encodeFields, List.flatMap_cons, List.flatMap_append, List.flatMap_cons,
      List.flatMap_append, charBytes_dumpsString, charBytes_dumps v, charBytes_dumpsFields fs]
    rfl

end

/-- The canonical bytes, written from the stored bytes of the strings. -/
theorem map_toNat_canonicalBytes (v : Value) :
    (canonicalBytes v).map UInt8.toNat = encode (sortKeys v) := by
  rw [← charBytes_dumps, canonicalBytes, List.map_flatMap]
  rfl

/-- The hash of a document, in the form the kernel evaluates. -/
theorem hexdigest_canonicalBytes (v : Value) :
    Sha256.hexdigest (canonicalBytes v) = (Sha256.digest (encode (sortKeys v))).text := by
  rw [Sha256.hexdigest, map_toNat_canonicalBytes]

end Json
