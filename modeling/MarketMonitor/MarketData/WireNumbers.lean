import Mathlib.Data.Nat.Digits.Lemmas
import MarketMonitor.Library.Reader
import MarketMonitor.Library.Rounding
import MarketMonitor.MarketData.Wire

/-!
# Numbers on the wire

The readers of the packed numbers of TDX, with the encoders they invert : integers of
variable length with a sign, and the words of single-precision floating-point numbers.
Every reader looks at nothing past the bytes it takes and raises protocol errors only.

A float word is read through decimal numbers of 28 digits : the significand is exact, the
power of two is rounded when it has more digits, and so is the product
(`readFloatDecimal_packI`).
-/

namespace MarketMonitor

open Decimal Reading Transaction

/-- A reader of the bytes of a response. -/
abbrev WireReader (α : Type) : Type := Reader UInt8 Exn α

def IsProtocolError (e : Exn) : Prop := e.cls = .tdxProtocolError

theorem isProtocolError (message : String) : IsProtocolError (protocolError message) := rfl

/-! ## Bytes -/

/-- The next `n` bytes. -/
def takeBytes (n : ℕ) : WireReader (List UInt8) := readBytes n

theorem reads_takeBytes {n : ℕ} {taken bytes : List UInt8} :
    Reads (takeBytes n) taken bytes ↔ bytes = taken ∧ taken.length = n := by
  constructor
  · intro h
    have h := readBytes_eq_ok.mp (h [])
    rw [List.append_nil, List.append_nil] at h
    exact ⟨h.2.symm, h.2 ▸ h.1⟩
  · rintro ⟨rfl, hlength⟩ rest
    exact readBytes_eq_ok.mpr ⟨hlength, rfl⟩

theorem local_takeBytes (n : ℕ) : Local IsProtocolError (takeBytes n) where
  reads h := by
    obtain ⟨hlength, rfl⟩ := readBytes_eq_ok.mp h
    exact ⟨_, rfl, reads_takeBytes.mpr ⟨rfl, hlength⟩⟩
  raises {text e} h := by
    change readBytes n text = .error e at h
    unfold readBytes at h
    split_ifs at h
    cases h
    rfl

/-- The value of two bytes. -/
def takeU16 : WireReader ℕ := do
  let bytes ← takeBytes 2
  return unpackH bytes

theorem local_takeU16 : Local IsProtocolError takeU16 :=
  (local_takeBytes 2).bind fun _ => .pure _

/-- Two bytes are taken as a number. -/
theorem reads_takeU16 {taken : List UInt8} {n : ℕ} :
    Reads takeU16 taken n ↔ taken.length = 2 ∧ unpackH taken = n := by
  rw [takeU16, (local_takeBytes 2).reads_bind fun _ => .pure _]
  constructor
  · rintro ⟨taken, last, bytes, rfl, hbytes, hlast⟩
    obtain ⟨rfl, hlength⟩ := reads_takeBytes.mp hbytes
    obtain ⟨rfl, rfl⟩ := reads_pure.mp hlast
    rw [List.append_nil]
    exact ⟨hlength, rfl⟩
  · rintro ⟨hlength, rfl⟩
    exact ⟨taken, [], taken, (List.append_nil _).symm, reads_takeBytes.mpr ⟨rfl, hlength⟩,
      Reads.pure _⟩

/-- `struct.unpack("<I", data)` -/
def unpackI (data : List UInt8) : ℕ := unpackH data + 65536 * unpackH (data.drop 2)

/-- `struct.pack("<I", n)` -/
def packI (n : ℕ) : List UInt8 := packH (n % 65536) ++ packH (n / 65536)

theorem length_packI (n : ℕ) : (packI n).length = 4 := rfl

theorem unpackI_packI {n : ℕ} (h : n < 2 ^ 32) : unpackI (packI n) = n := by
  rw [unpackI, packI, unpackH_packH (Nat.mod_lt _ (by norm_num)),
    show (packH (n % 65536) ++ packH (n / 65536)).drop 2 = packH (n / 65536) ++ [] from rfl,
    unpackH_packH (by omega)]
  omega

/-! ## Integers of variable length -/

/-- The groups of seven bits that follow a byte with its high bit set. -/
def readGroups (first : UInt8) (magnitude shift : ℕ) (rest : List UInt8) :
    Except Exn (ℕ × List UInt8) :=
  if first &&& 0x80 = 0 then .ok (magnitude, rest)
  else
    match rest with
    | [] => .error (protocolError "truncated TDX response")
    | byte :: rest =>
      let magnitude := magnitude ||| ((byte &&& 0x7F).toNat <<< shift)
      if 63 < shift + 7 then .error (protocolError "variable number exceeds safe range")
      else readGroups byte magnitude (shift + 7) rest

/-- `_read_number(body, position)` -/
def readNumber : WireReader ℤ := do
  let bytes ← takeBytes 1
  let first := bytes.getD 0 0
  let magnitude ← (readGroups first (first &&& 0x3F).toNat 6 : WireReader ℕ)
  return if first &&& 0x40 = 0 then (magnitude : ℤ) else -(magnitude : ℤ)

section Groups

variable {first : UInt8} {magnitude shift : ℕ}

theorem readGroups_last (h : first &&& 0x80 = 0) (rest : List UInt8) :
    readGroups first magnitude shift rest = .ok (magnitude, rest) := by
  rw [readGroups.eq_def, if_pos h]

theorem readGroups_nil (h : ¬first &&& 0x80 = 0) :
    readGroups first magnitude shift [] = .error (protocolError "truncated TDX response") := by
  rw [readGroups.eq_def, if_neg h]

theorem readGroups_cons (h : ¬first &&& 0x80 = 0) (byte : UInt8) (rest : List UInt8) :
    readGroups first magnitude shift (byte :: rest) =
      if 63 < shift + 7 then .error (protocolError "variable number exceeds safe range")
      else readGroups byte (magnitude ||| ((byte &&& 0x7F).toNat <<< shift)) (shift + 7) rest := by
  rw [readGroups.eq_def, if_neg h]

end Groups

/-- The groups of a number are read from their place on. -/
theorem local_readGroups (first : UInt8) (magnitude shift : ℕ) :
    Local IsProtocolError (readGroups first magnitude shift : WireReader ℕ) where
  reads {text n rest} h := by
    induction text generalizing first magnitude shift with
    | nil =>
      by_cases hlast : first &&& 0x80 = 0
      · rw [readGroups_last hlast] at h
        cases h
        exact ⟨[], rfl, fun rest => readGroups_last hlast rest⟩
      · rw [readGroups_nil hlast] at h
        cases h
    | cons byte text ih =>
      by_cases hlast : first &&& 0x80 = 0
      · rw [readGroups_last hlast] at h
        cases h
        exact ⟨[], rfl, fun rest => readGroups_last hlast rest⟩
      · rw [readGroups_cons hlast] at h
        split at h
        case isTrue => cases h
        case isFalse hshift =>
          obtain ⟨taken, rfl, hreads⟩ := ih _ _ _ h
          refine ⟨byte :: taken, rfl, fun rest => ?_⟩
          rw [List.cons_append, readGroups_cons hlast, if_neg hshift]
          exact hreads rest
  raises {text e} h := by
    induction text generalizing first magnitude shift with
    | nil =>
      by_cases hlast : first &&& 0x80 = 0
      · rw [readGroups_last hlast] at h
        cases h
      · rw [readGroups_nil hlast] at h
        cases h
        rfl
    | cons byte text ih =>
      by_cases hlast : first &&& 0x80 = 0
      · rw [readGroups_last hlast] at h
        cases h
      · rw [readGroups_cons hlast] at h
        split at h
        case isTrue =>
          cases h
          rfl
        case isFalse => exact ih _ _ _ h

theorem local_readNumber : Local IsProtocolError readNumber :=
  (local_takeBytes 1).bind fun _ => (local_readGroups _ _ _).bind fun _ => .pure _

/-- The groups of seven bits after the first byte, the lowest first. -/
def groupsMagnitude (groups : List UInt8) : ℕ := Nat.ofDigits 128 (groups.map (·.toNat % 128))

/-- A first byte with the bytes that its high bit announces. -/
def Continued : UInt8 → List UInt8 → Prop
  | first, [] => first.toNat < 128
  | first, byte :: rest => 128 ≤ first.toNat ∧ Continued byte rest

theorem bits_of_byte : ∀ n < 256, let byte := UInt8.ofNat n
    (byte &&& 0x3F).toNat = n % 64 ∧ (byte &&& 0x7F).toNat = n % 128 ∧
      (byte &&& 0x40 = 0 ↔ n / 64 % 2 = 0) ∧ (byte &&& 0x80 = 0 ↔ n < 128) := by
  decide +kernel

theorem byte_bits (byte : UInt8) : (byte &&& 0x3F).toNat = byte.toNat % 64 ∧
    (byte &&& 0x7F).toNat = byte.toNat % 128 ∧ (byte &&& 0x40 = 0 ↔ byte.toNat / 64 % 2 = 0) ∧
      (byte &&& 0x80 = 0 ↔ byte.toNat < 128) := by
  have h := bits_of_byte byte.toNat byte.toNat_lt
  rwa [UInt8.ofNat_toNat] at h

/-- A group is added above the bits that are there. -/
theorem or_shiftLeft {magnitude shift group : ℕ} (hm : magnitude < 2 ^ shift) (hg : group < 128) :
    magnitude ||| (group <<< shift) = magnitude + 2 ^ shift * group ∧
      magnitude + 2 ^ shift * group < 2 ^ (shift + 7) := by
  constructor
  · rw [Nat.or_comm, ← Nat.shiftLeft_add_eq_or_of_lt hm, Nat.shiftLeft_eq]
    ring
  · calc magnitude + 2 ^ shift * group < 2 ^ shift + 2 ^ shift * group := by omega
      _ = 2 ^ shift * (group + 1) := by ring
      _ ≤ 2 ^ shift * 128 := Nat.mul_le_mul_left _ hg
      _ = 2 ^ (shift + 7) := by rw [pow_add]; norm_num

/-- The loop takes the bytes that the first one announces, while the shift allows it. -/
theorem reads_readGroups {first : UInt8} {magnitude shift : ℕ} (hm : magnitude < 2 ^ shift)
    (hshift : shift ≤ 63) {taken : List UInt8} {n : ℕ} :
    Reads (readGroups first magnitude shift : WireReader ℕ) taken n ↔
      Continued first taken ∧ shift + 7 * taken.length ≤ 63 ∧
        n = magnitude + 2 ^ shift * groupsMagnitude taken := by
  have hbit := (byte_bits first).2.2.2
  induction taken generalizing first magnitude shift with
  | nil =>
    constructor
    · intro h
      have h := h []
      by_cases hlast : first &&& 0x80 = 0
      · rw [List.append_nil, readGroups_last hlast] at h
        cases h
        exact ⟨hbit.mp hlast, hshift, by simp [groupsMagnitude]⟩
      · rw [List.append_nil, readGroups_nil hlast] at h
        cases h
    · rintro ⟨hcontinued, -, rfl⟩ rest
      exact readGroups_last (hbit.mpr hcontinued) rest
  | cons byte taken ih =>
    have hgroup := (byte_bits byte).2.1
    obtain ⟨hor, hlt⟩ := or_shiftLeft hm (Nat.mod_lt byte.toNat (show 0 < 128 by decide))
    have hvalue : magnitude + 2 ^ shift * groupsMagnitude (byte :: taken) =
        magnitude + 2 ^ shift * (byte.toNat % 128) + 2 ^ (shift + 7) * groupsMagnitude taken := by
      rw [groupsMagnitude, List.map_cons, Nat.ofDigits_cons, groupsMagnitude, pow_add]
      ring
    rw [hvalue, List.length_cons]
    by_cases hlast : first &&& 0x80 = 0
    · constructor
      · intro h
        have h := h []
        rw [List.append_nil, readGroups_last hlast] at h
        cases h
      · rintro ⟨⟨hcontinued, -⟩, -⟩
        exact absurd (hbit.mp hlast) (by omega)
    by_cases hover : 63 < shift + 7
    · constructor
      · intro h
        have h := h []
        rw [List.append_nil, readGroups_cons hlast, if_pos hover] at h
        cases h
      · rintro ⟨-, hlength, -⟩
        omega
    · have hreads : Reads (readGroups first magnitude shift : WireReader ℕ) (byte :: taken) n ↔
          Reads (readGroups byte (magnitude + 2 ^ shift * (byte.toNat % 128)) (shift + 7) :
            WireReader ℕ) taken n := by
        refine forall_congr' fun rest => ?_
        rw [List.cons_append, readGroups_cons hlast, if_neg hover, hgroup, hor]
      have hfirst : 128 ≤ first.toNat := by
        by_contra hsmall
        exact hlast (hbit.mpr (by omega))
      have hrest := ih hlt (by omega) (byte_bits byte).2.2.2
      refine hreads.trans (hrest.trans ?_)
      constructor
      · rintro ⟨hcontinued, hlength, rfl⟩
        exact ⟨⟨hfirst, hcontinued⟩, by omega, rfl⟩
      · rintro ⟨⟨-, hcontinued⟩, hlength, rfl⟩
        exact ⟨hcontinued, by omega, rfl⟩

/-- The groups of a number as bytes, all but the last with the high bit set. -/
def packGroups : List ℕ → List UInt8
  | [] => []
  | group :: groups => UInt8.ofNat (group + if groups = [] then 0 else 0x80) :: packGroups groups

/-- An integer as bytes : its sign and six bits of its magnitude, then groups of seven. -/
def packNumber (value : ℤ) : List UInt8 :=
  let groups := Nat.digits 128 (value.natAbs / 64)
  UInt8.ofNat (value.natAbs % 64 + (if value < 0 then 0x40 else 0) +
    if groups = [] then 0 else 0x80) :: packGroups groups

/-- The bytes of a number that has its flags in the high bits. -/
theorem flags_of_byte : ∀ low < 64, ∀ negative more : Bool,
    let byte := UInt8.ofNat (low + (if negative then 0x40 else 0) + if more then 0x80 else 0)
    (byte &&& 0x3F).toNat = low ∧ (byte &&& 0x40 = 0 ↔ negative = false) ∧
      (byte &&& 0x80 = 0 ↔ more = false) := by
  decide +kernel

theorem flags_of_group : ∀ group < 128, ∀ more : Bool,
    let byte := UInt8.ofNat (group + if more then 0x80 else 0)
    byte.toNat % 128 = group ∧ (byte.toNat < 128 ↔ more = false) := by
  decide +kernel

/-- The bytes of groups are those that the byte before them announces, and their magnitude
is the number of the groups. -/
theorem packGroups_spec {groups : List ℕ} (hgroups : ∀ g ∈ groups, g < 128) {first : UInt8}
    (hfirst : first.toNat < 128 ↔ groups = []) : Continued first (packGroups groups) ∧
      groupsMagnitude (packGroups groups) = Nat.ofDigits 128 groups ∧
      (packGroups groups).length = groups.length := by
  induction groups generalizing first with
  | nil => exact ⟨hfirst.mpr rfl, rfl, rfl⟩
  | cons group groups ih =>
    obtain ⟨hgroup, hgroups⟩ := List.forall_mem_cons.mp hgroups
    obtain ⟨hbits, hmore⟩ := flags_of_group group hgroup (decide (groups ≠ []))
    simp only [decide_eq_true_eq, ite_not, decide_eq_false_iff_not, not_not] at hbits hmore
    obtain ⟨hcontinued, hmagnitude, hlength⟩ := ih hgroups hmore
    have hfirst : 128 ≤ first.toNat := by
      by_contra h
      exact List.cons_ne_nil _ _ (hfirst.mp (by omega))
    refine ⟨⟨hfirst, hcontinued⟩, ?_, by rw [packGroups, List.length_cons, hlength]; rfl⟩
    rw [groupsMagnitude] at hmagnitude
    rw [packGroups, groupsMagnitude, List.map_cons, hbits, Nat.ofDigits_cons, hmagnitude,
      Nat.ofDigits_cons]

/-- What the wire holds of an integer. -/
def FitsNumber (value : ℤ) : Prop := value.natAbs < 2 ^ 62

instance (value : ℤ) : Decidable (FitsNumber value) := inferInstanceAs (Decidable (_ < _))

/-- A packed number is read back. -/
theorem reads_packNumber {value : ℤ} (h : FitsNumber value) :
    Reads readNumber (packNumber value) value := by
  unfold FitsNumber at h
  have hdigits := Nat.ofDigits_digits 128 (value.natAbs / 64)
  have hlt : ∀ g ∈ Nat.digits 128 (value.natAbs / 64), g < 128 :=
    fun g hg => Nat.digits_lt_base (by norm_num) hg
  have hlength : (Nat.digits 128 (value.natAbs / 64)).length ≤ 8 := by
    rw [Nat.digits_length_le_iff (by norm_num)]
    omega
  unfold packNumber
  generalize Nat.digits 128 (value.natAbs / 64) = groups at *
  obtain ⟨hlow, hsign, hmore⟩ := flags_of_byte (value.natAbs % 64) (Nat.mod_lt _ (by norm_num))
    (decide (value < 0)) (decide (groups ≠ []))
  simp only [decide_eq_true_eq, ite_not, decide_eq_false_iff_not, not_not] at hlow hsign hmore
  obtain ⟨hcontinued, hmagnitude, hwidth⟩ :=
    packGroups_spec hlt ((byte_bits _).2.2.2.symm.trans hmore)
  have hgroups := (reads_readGroups (show value.natAbs % 64 < 2 ^ 6 from Nat.mod_lt _ (by norm_num))
    (by norm_num)).mpr ⟨hcontinued, by omega, rfl⟩
  rw [hmagnitude, hdigits,
    show value.natAbs % 64 + 2 ^ 6 * (value.natAbs / 64) = value.natAbs by omega] at hgroups
  rw [← List.singleton_append, ← List.append_nil (packGroups groups)]
  refine Reads.bind (reads_takeBytes.mpr ⟨rfl, rfl⟩) ?_
  rw [List.getD_cons_zero]
  dsimp only
  rw [hlow]
  refine hgroups.bind (reads_pure.mpr ⟨rfl, ?_⟩)
  simp only [hsign, ite_not]
  split_ifs <;> omega

/-- The numbers one after the other. -/
def packNumbers (values : List ℤ) : List UInt8 := (values.map packNumber).flatten

theorem reads_packNumbers {values : List ℤ} (h : ∀ v ∈ values, FitsNumber v) :
    Reads (times values.length readNumber) (packNumbers values) values := by
  refine (local_readNumber.reads_times).mpr ⟨rfl, _, rfl, ?_⟩
  rw [List.forall₂_map_left_iff, List.forall₂_same]
  exact fun v hv => reads_packNumber (h v hv)

/-! ## Float words -/

/-- `_read_float_decimal(data)` -/
def readFloatDecimal (data : List UInt8) : Except Exn Decimal := do
  let bits := unpackI data
  let sign : ℤ := if bits >>> 31 = 0 then 1 else -1
  let exponent := (bits >>> 23) &&& 0xFF
  let mantissa := bits &&& 0x7FFFFF
  check (exponent ≠ 0xFF) (protocolError "non-finite TDX floating value")
  let value :=
    if exponent = 0 then ofInt mantissa * twoPow (-149)
    else (one + ofInt mantissa / ofInt (1 <<< 23)) * twoPow ((exponent : ℤ) - 127)
  return ofInt sign * value

theorem raises_readFloatDecimal {data : List UInt8} {e : Exn}
    (h : readFloatDecimal data = .error e) : IsProtocolError e := by
  unfold readFloatDecimal check at h
  dsimp only at h
  split at h
  · cases h
  · cases h
    rfl

/-- A word of 32 bits that stands for a finite number. -/
structure FloatWord where
  bits : ℕ
  bits_lt : bits < 2 ^ 32
  finite : bits / 2 ^ 23 % 256 ≠ 255

namespace FloatWord

variable (w : FloatWord)

def sign : ℤ := if w.bits / 2 ^ 31 = 0 then 1 else -1

/-- The biased exponent, zero for a subnormal number. -/
def exponent : ℕ := w.bits / 2 ^ 23 % 256

def mantissa : ℕ := w.bits % 2 ^ 23

def significand : ℚ := if w.exponent = 0 then w.mantissa else 1 + w.mantissa / 2 ^ 23

def power : ℤ := if w.exponent = 0 then -149 else w.exponent - 127

/-- The number the word stands for. -/
def value : ℚ := w.sign * (w.significand * 2 ^ w.power)

/-- The number it is read as : the power of two is rounded before the product is. -/
def decoded : ℚ := w.sign * rounded (w.significand * rounded (2 ^ w.power))

theorem mantissa_lt : w.mantissa < 2 ^ 23 := Nat.mod_lt _ (by norm_num)

theorem sign_eq : w.sign = 1 ∨ w.sign = -1 := by
  unfold sign
  split
  · exact .inl rfl
  · exact .inr rfl

theorem rounded_sign_mul (q : ℚ) : rounded (w.sign * q) = w.sign * rounded q := by
  rcases w.sign_eq with h | h <;> rw [h]
  · simp
  · simp [rounded_neg]

/-- A power of two of at most 28 digits is not rounded, and the product is rounded once. -/
theorem decoded_eq_rounded (h : 87 ≤ w.exponent ∧ w.exponent ≤ 220) :
    w.decoded = rounded w.value := by
  have hpower : w.power = w.exponent - 127 := if_neg (by omega)
  rw [decoded, value, rounded_two_zpow (by omega) (by omega), rounded_sign_mul]

/-- A word that stands for a positive integer has a power that is no fraction. -/
theorem power_nonneg {n : ℕ} (hn : 0 < n) (h : w.value = n) :
    1 ≤ w.significand ∧ w.significand < 2 ∧ 0 ≤ w.power ∧ w.significand * 2 ^ w.power = n := by
  have hm : (w.mantissa : ℚ) < 2 ^ 23 := by exact_mod_cast w.mantissa_lt
  have hpos : (1 : ℚ) ≤ n := by exact_mod_cast hn
  have hsignificand : 0 ≤ w.significand := by
    unfold significand
    split <;> positivity
  have hproduct : w.significand * 2 ^ w.power = n := by
    rw [value] at h
    rcases w.sign_eq with hs | hs <;> rw [hs] at h
    · rwa [Int.cast_one, one_mul] at h
    · have : 0 ≤ w.significand * (2 : ℚ) ^ w.power := by positivity
      push_cast at h
      linarith
  by_cases hzero : w.exponent = 0
  · -- A subnormal number is below one.
    exfalso
    rw [significand, power, if_pos hzero, if_pos hzero] at hproduct
    have : (w.mantissa : ℚ) * 2 ^ (-149 : ℤ) < 2 ^ 23 * 2 ^ (-149 : ℤ) :=
      mul_lt_mul_of_pos_right hm (by positivity)
    rw [hproduct] at this
    norm_num at this
    linarith
  · have heq : w.significand = 1 + w.mantissa / 2 ^ 23 := if_neg hzero
    have hlow : 1 ≤ w.significand := by
      rw [heq]
      have : (0 : ℚ) ≤ w.mantissa / 2 ^ 23 := by positivity
      linarith
    have hhigh : w.significand < 2 := by
      rw [heq]
      have : (w.mantissa : ℚ) / 2 ^ 23 < 1 := (div_lt_one (by positivity)).mpr hm
      linarith
    refine ⟨hlow, hhigh, ?_, hproduct⟩
    by_contra hneg
    have hpower : (2 : ℚ) ^ w.power ≤ 2 ^ (-1 : ℤ) := zpow_le_zpow_right₀ (by norm_num) (by omega)
    have : w.significand * (2 : ℚ) ^ w.power < 2 * 2 ^ (-1 : ℤ) :=
      mul_lt_mul hhigh hpower (by positivity) (by norm_num)
    norm_num at this
    linarith

/-- A word that stands for a natural number is read as one, and as the same one when it has
at most 28 digits. -/
theorem decoded_of_natural {n : ℕ} (h : w.value = n) :
    ∃ m : ℕ, w.decoded = m ∧ (n < 10 ^ 28 → m = n) := by
  rcases Nat.eq_zero_or_pos n with rfl | hn
  · refine ⟨0, ?_, fun _ => rfl⟩
    have hpower : (2 : ℚ) ^ w.power ≠ 0 := by positivity
    have hsign : (w.sign : ℚ) ≠ 0 := by rcases w.sign_eq with hs | hs <;> rw [hs] <;> norm_num
    rw [value, Nat.cast_zero, mul_eq_zero_iff_left hsign, mul_eq_zero_iff_right hpower] at h
    rw [decoded, h, zero_mul, rounded_zero, mul_zero, Nat.cast_zero]
  · obtain ⟨hlow, hhigh, hpower, hproduct⟩ := w.power_nonneg hn h
    have hsign : w.sign = 1 := by
      rcases w.sign_eq with hs | hs
      · exact hs
      · rw [value, hproduct, hs] at h
        have : (0 : ℚ) < n := by exact_mod_cast hn
        push_cast at h
        linarith
    have hnonneg : 0 ≤ w.decoded := by
      rw [decoded, hsign, Int.cast_one, one_mul]
      exact rounded_nonneg (mul_nonneg (by linarith) (rounded_nonneg (by positivity)))
    rcases le_or_gt w.power 93 with hle | hgt
    · have hdecoded : w.decoded = rounded ((n : ℤ) : ℚ) := by
        rw [decoded, rounded_two_zpow (by omega) hle, hproduct, hsign, Int.cast_one, one_mul,
          Int.cast_natCast]
      obtain ⟨m, hm⟩ := exists_rounded_intCast n
      rw [hdecoded] at hnonneg ⊢
      rw [hm] at hnonneg ⊢
      obtain ⟨k, rfl⟩ := Int.eq_ofNat_of_zero_le (Int.cast_nonneg_iff.mp hnonneg)
      refine ⟨k, Int.cast_natCast k, fun hlt => ?_⟩
      rw [rounded_intCast (by rw [abs_of_nonneg (by positivity)]; exact_mod_cast hlt)] at hm
      exact_mod_cast hm.symm
    · have hlarge : (10 : ℚ) ^ 28 ≤ 2 ^ w.power :=
        calc (10 : ℚ) ^ 28 ≤ 2 ^ (94 : ℤ) := by norm_num
          _ ≤ 2 ^ w.power := zpow_le_zpow_right₀ (by norm_num) hgt
      have hround : (10 : ℚ) ^ 28 ≤ rounded (2 ^ w.power) := by
        have heq : rounded ((10 : ℚ) ^ 28) = 10 ^ 28 := by
          have := rounded_eq_self (c := 1) (e := 28) (by norm_num)
          rw [Int.cast_one, one_mul] at this
          exact_mod_cast this
        exact heq ▸ rounded_mono hlarge
      have hq : (10 : ℚ) ^ 28 ≤ w.significand * rounded (2 ^ w.power) := by
        calc (10 : ℚ) ^ 28 ≤ 1 * rounded (2 ^ w.power) := by rwa [one_mul]
          _ ≤ w.significand * rounded (2 ^ w.power) :=
            mul_le_mul_of_nonneg_right hlow (by linarith [show (0 : ℚ) < 10 ^ 28 by positivity])
      obtain ⟨m, hm⟩ := exists_rounded_of_large (hq.trans (le_abs_self _))
      have hdecoded : w.decoded = (m : ℚ) := by rw [decoded, hm, hsign, Int.cast_one, one_mul]
      rw [hdecoded] at hnonneg
      obtain ⟨k, rfl⟩ := Int.eq_ofNat_of_zero_le (Int.cast_nonneg_iff.mp hnonneg)
      refine ⟨k, by rw [hdecoded, Int.cast_natCast], fun hlt => ?_⟩
      -- The number itself has more than 28 digits.
      have : (10 : ℚ) ^ 28 ≤ n :=
        calc (10 : ℚ) ^ 28 ≤ 1 * 2 ^ w.power := by rwa [one_mul]
          _ ≤ w.significand * 2 ^ w.power := mul_le_mul_of_nonneg_right hlow (by positivity)
          _ = n := hproduct
      have hn' : (10 : ℕ) ^ 28 ≤ n := by exact_mod_cast this
      omega

end FloatWord

/-- The significand of a normal number needs no rounding. -/
theorem toRat_significand {m : ℕ} (h : m < 2 ^ 23) :
    (one + ofInt m / ofInt (1 <<< 23)).toRat = 1 + m / 2 ^ 23 := by
  have hquotient : (ofInt m / ofInt (1 <<< 23)).toRat = m / 2 ^ 23 := by
    rw [toRat_div _ (by decide), toRat_ofInt, toRat_ofInt]
    have hm : |((m * 5 ^ 23 : ℕ) : ℤ)| < 10 ^ 28 := by
      rw [abs_of_nonneg (by positivity)]
      exact_mod_cast (by omega : m * 5 ^ 23 < 10 ^ 28)
    have heq : ((m : ℤ) : ℚ) / ((1 <<< 23 : ℤ) : ℚ) = ((m * 5 ^ 23 : ℕ) : ℤ) * 10 ^ (-23 : ℤ) := by
      rw [show (1 <<< 23 : ℤ) = 2 ^ 23 from rfl, zpow_neg]
      push_cast
      norm_num
      ring
    rw [heq, rounded_eq_self hm, ← heq]
    norm_num [Int.shiftLeft_eq]
  rw [toRat_add, hquotient, show one.toRat = 1 from by rw [one, toRat_ofInt, Int.cast_one]]
  have hm : |((10 ^ 23 + m * 5 ^ 23 : ℕ) : ℤ)| < 10 ^ 28 := by
    rw [abs_of_nonneg (by positivity)]
    exact_mod_cast (by omega : 10 ^ 23 + m * 5 ^ 23 < 10 ^ 28)
  have heq : 1 + (m : ℚ) / 2 ^ 23 = ((10 ^ 23 + m * 5 ^ 23 : ℕ) : ℤ) * 10 ^ (-23 : ℤ) := by
    rw [zpow_neg]
    push_cast
    norm_num
    ring
  rw [heq, rounded_eq_self hm]

/-- The word of a finite number is read, and as `decoded`. -/
theorem readFloatDecimal_packI (w : FloatWord) :
    ∃ x, readFloatDecimal (packI w.bits) = .ok x ∧ x.toRat = w.decoded := by
  have hexponent : (w.bits >>> 23) &&& 0xFF = w.exponent := by
    rw [Nat.shiftRight_eq_div_pow]
    exact Nat.and_two_pow_sub_one_eq_mod _ 8
  have hmantissa : w.bits &&& 0x7FFFFF = w.mantissa := Nat.and_two_pow_sub_one_eq_mod _ 23
  have hsign : (if w.bits >>> 31 = 0 then 1 else -1 : ℤ) = w.sign := by
    rw [Nat.shiftRight_eq_div_pow]
    rfl
  unfold readFloatDecimal
  rw [unpackI_packI w.bits_lt]
  dsimp only
  rw [hexponent, hmantissa, hsign]
  refine ⟨_, except_bind_eq_ok.mpr ⟨(), check_eq_ok.mpr w.finite, rfl⟩, ?_⟩
  rw [toRat_mul, toRat_ofInt, FloatWord.rounded_sign_mul, FloatWord.decoded]
  congr 1
  unfold FloatWord.significand FloatWord.power
  split
  · rw [toRat_mul, toRat_ofInt, toRat_twoPow, rounded_rounded, Int.cast_natCast]
  · rw [toRat_mul, toRat_significand w.mantissa_lt, toRat_twoPow, rounded_rounded]

end MarketMonitor
