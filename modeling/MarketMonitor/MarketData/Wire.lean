import Mathlib.Data.List.Basic
import MarketMonitor.MarketData.Blocks

/-!
# The wire format of TDX

What the parsers of the TDX responses share : a reader takes bytes from the front of what is
left of a body and returns the rest.
-/

namespace MarketMonitor

open Transaction

def protocolError (message : String) : Exn := ⟨.tdxProtocolError, message⟩

/-- `_require(body, position, n)` and the bytes it asks for. -/
def readBytes (n : ℕ) (rest : List UInt8) : Except Exn (List UInt8 × List UInt8) :=
  if rest.length < n then .error (protocolError "truncated TDX response")
  else .ok (rest.take n, rest.drop n)

/-- `_read_u16(body, position)` -/
def readU16 (rest : List UInt8) : Except Exn (ℕ × List UInt8) := do
  let (bytes, rest) ← readBytes 2 rest
  return (unpackH bytes, rest)

/-- `struct.pack("<H", n)` -/
def packH (n : ℕ) : List UInt8 := [UInt8.ofNat n, UInt8.ofNat (n / 256)]

/-- A property of the bytes of a text is decided by looking at each of them. -/
instance (priority := 2000) decidableForallByte {p : UInt8 → Prop} [DecidablePred p]
    (bytes : List UInt8) : Decidable (∀ b ∈ bytes, p b) :=
  List.decidableBAll p bytes

/-- A code of six ASCII digits. -/
def decodeCode (error : Exn) (bytes : List UInt8) : Except Exn String := do
  check (∀ b ∈ bytes, b < 128) error
  check (IsCode (decodeAscii bytes)) error
  return String.ofList (decodeAscii bytes)

/-! ## ASCII -/

/-- The bytes of an ASCII text. -/
def asciiBytes (text : List Char) : List UInt8 := text.map fun c => UInt8.ofNat c.toNat

theorem isDigit_toNat_lt {c : Char} (h : c.isDigit = true) : c.toNat < 128 := by
  rw [Char.isDigit, Bool.and_eq_true, decide_eq_true_eq, decide_eq_true_eq] at h
  have hle : c.val.toNat ≤ '9'.val.toNat := UInt32.le_iff_toNat_le.mp h.2
  exact hle.trans_lt (by decide)

theorem charOfNat_toNat {b : UInt8} : (Char.ofNat b.toNat).toNat = b.toNat := by
  have hlt := b.toNat_lt
  have hvalid : b.toNat.isValidChar := .inl (by omega)
  rw [Char.toNat, Char.ofNat, dif_pos hvalid]
  rfl

theorem decodeAscii_of_ascii {bytes : List UInt8} (h : ∀ b ∈ bytes, b < 128) :
    decodeAscii bytes = bytes.map fun b => Char.ofNat b.toNat := by
  rw [decodeAscii, List.filter_eq_self.mpr fun b hb => decide_eq_true (h b hb)]

theorem asciiBytes_decodeAscii {bytes : List UInt8} (h : ∀ b ∈ bytes, b < 128) :
    asciiBytes (decodeAscii bytes) = bytes := by
  rw [decodeAscii_of_ascii h, asciiBytes, List.map_map]
  refine (List.map_congr_left fun b _ => ?_).trans (List.map_id bytes)
  rw [Function.comp_apply, charOfNat_toNat, UInt8.ofNat_toNat, id]

theorem ascii_asciiBytes {text : List Char} (h : ∀ c ∈ text, c.toNat < 128) :
    ∀ b ∈ asciiBytes text, b < 128 := by
  intro b hb
  obtain ⟨c, hc, rfl⟩ := List.mem_map.mp hb
  have := h c hc
  rw [UInt8.lt_iff_toNat_lt, UInt8.toNat_ofNat']
  exact (Nat.mod_le _ _).trans_lt this

theorem decodeAscii_asciiBytes {text : List Char} (h : ∀ c ∈ text, c.toNat < 128) :
    decodeAscii (asciiBytes text) = text := by
  rw [decodeAscii_of_ascii (ascii_asciiBytes h), asciiBytes, List.map_map]
  refine (List.map_congr_left fun c hc => ?_).trans (List.map_id text)
  have := h c hc
  rw [Function.comp_apply, UInt8.toNat_ofNat', Nat.mod_eq_of_lt (by omega), Char.ofNat_toNat, id]

theorem IsCode.ascii {code : List Char} (h : IsCode code) : ∀ c ∈ code, c.toNat < 128 :=
  fun c hc => isDigit_toNat_lt (h.2 c hc)

/-- A code of six digits is read back from its bytes. -/
theorem decodeCode_asciiBytes {code : List Char} (h : IsCode code) (error : Exn) :
    decodeCode error (asciiBytes code) = .ok (String.ofList code) := by
  have hdecode := decodeAscii_asciiBytes h.ascii
  refine except_bind_eq_ok.mpr ⟨(), check_eq_ok.mpr (ascii_asciiBytes h.ascii),
    except_bind_eq_ok.mpr ⟨(), check_eq_ok.mpr ?_, ?_⟩⟩
  · rwa [hdecode]
  · rw [hdecode]
    rfl

theorem decodeCode_eq_error {error e : Exn} {bytes : List UInt8}
    (h : decodeCode error bytes = .error e) : e = error := by
  unfold decodeCode check at h
  split_ifs at h <;> cases h <;> rfl

/-! ## Words -/

theorem unpackH_lt (bytes : List UInt8) : unpackH bytes < 65536 := by
  have := (bytes.getD 0 0).toNat_lt
  have := (bytes.getD 1 0).toNat_lt
  unfold unpackH
  omega

theorem unpackH_packH {n : ℕ} (h : n < 65536) (rest : List UInt8) :
    unpackH (packH n ++ rest) = n := by
  simp only [unpackH, packH, List.cons_append, List.getD_cons_zero, List.getD_cons_succ,
    UInt8.toNat_ofNat']
  omega

theorem packH_inj {m n : ℕ} (hm : m < 65536) (hn : n < 65536) (h : packH m = packH n) :
    m = n := by
  rw [← unpackH_packH hm [], h, unpackH_packH hn]

theorem readBytes_eq_ok {n : ℕ} {rest bytes rest' : List UInt8} :
    readBytes n rest = .ok (bytes, rest') ↔ bytes.length = n ∧ rest = bytes ++ rest' := by
  unfold readBytes
  constructor
  · intro h
    split_ifs at h with hshort
    cases h
    exact ⟨by rw [List.length_take]; omega, (List.take_append_drop n rest).symm⟩
  · rintro ⟨rfl, rfl⟩
    rw [if_neg (by simp), List.take_left, List.drop_left]

end MarketMonitor
