import Mathlib.Data.List.Basic
import Mathlib.Data.Nat.Notation

/-!
# SHA-256

The hash of FIPS 180-4 on a list of bytes, in the operations the kernel evaluates on
numerals : words are natural numbers below `2 ^ 32`. `hexdigest` is the digest as 64
lower-case hexadecimal digits (`hexdigest_isDigest`).
-/

namespace Sha256

/-! ## Words -/

/-- A number modulo `2 ^ 32`. -/
def word (n : ℕ) : ℕ := Nat.mod n 4294967296

/-- Rotation of a word to the right by `k`, that is to the left by `l = 32 - k`. -/
def rotr (k l x : ℕ) : ℕ := Nat.lor (Nat.shiftRight x k) (word (Nat.shiftLeft x l))

def xor3 (x y z : ℕ) : ℕ := Nat.xor (Nat.xor x y) z
def bigSigma0 (x : ℕ) : ℕ := xor3 (rotr 2 30 x) (rotr 13 19 x) (rotr 22 10 x)
def bigSigma1 (x : ℕ) : ℕ := xor3 (rotr 6 26 x) (rotr 11 21 x) (rotr 25 7 x)
def smallSigma0 (x : ℕ) : ℕ := xor3 (rotr 7 25 x) (rotr 18 14 x) (Nat.shiftRight x 3)
def smallSigma1 (x : ℕ) : ℕ := xor3 (rotr 17 15 x) (rotr 19 13 x) (Nat.shiftRight x 10)
def ch (x y z : ℕ) : ℕ := Nat.xor (Nat.land x y) (Nat.land (Nat.sub 4294967295 x) z)
def maj (x y z : ℕ) : ℕ := xor3 (Nat.land x y) (Nat.land x z) (Nat.land y z)

/-- The round constants. -/
def roundConstants : List ℕ :=
  [0x428a2f98, 0x71374491, 0xb5c0fbcf, 0xe9b5dba5, 0x3956c25b, 0x59f111f1, 0x923f82a4, 0xab1c5ed5,
    0xd807aa98, 0x12835b01, 0x243185be, 0x550c7dc3, 0x72be5d74, 0x80deb1fe, 0x9bdc06a7, 0xc19bf174,
    0xe49b69c1, 0xefbe4786, 0x0fc19dc6, 0x240ca1cc, 0x2de92c6f, 0x4a7484aa, 0x5cb0a9dc, 0x76f988da,
    0x983e5152, 0xa831c66d, 0xb00327c8, 0xbf597fc7, 0xc6e00bf3, 0xd5a79147, 0x06ca6351, 0x14292967,
    0x27b70a85, 0x2e1b2138, 0x4d2c6dfc, 0x53380d13, 0x650a7354, 0x766a0abb, 0x81c2c92e, 0x92722c85,
    0xa2bfe8a1, 0xa81a664b, 0xc24b8b70, 0xc76c51a3, 0xd192e819, 0xd6990624, 0xf40e3585, 0x106aa070,
    0x19a4c116, 0x1e376c08, 0x2748774c, 0x34b0bcb5, 0x391c0cb3, 0x4ed8aa4a, 0x5b9cca4f, 0x682e6ff3,
    0x748f82ee, 0x78a5636f, 0x84c87814, 0x8cc70208, 0x90befffa, 0xa4506ceb, 0xbef9a3f7, 0xc67178f2]

/-! ## Compression -/

/-- The eight working words. -/
structure State where
  (a b c d e f g h : ℕ)

/-- The next sixteen words of the message schedule. -/
structure Window where
  (w0 w1 w2 w3 w4 w5 w6 w7 w8 w9 w10 w11 w12 w13 w14 w15 : ℕ)

/-- The initial hash value. -/
def State.initial : State :=
  ⟨0x6a09e667, 0xbb67ae85, 0x3c6ef372, 0xa54ff53a, 0x510e527f, 0x9b05688c, 0x1f83d9ab, 0x5be0cd19⟩

/-- Evaluate `n` before `f` is applied to it. -/
def force {β : Type} (n : ℕ) (f : ℕ → β) : β :=
  match n with
  | 0 => f 0
  | k + 1 => f (k + 1)

theorem force_eq {β : Type} (n : ℕ) (f : ℕ → β) : force n f = f n := by
  cases n <;> rfl

/-- The rounds on the given constants. -/
def rounds : List ℕ → Window → State → State
  | [], _, s => s
  | k :: ks, ⟨w0, w1, w2, w3, w4, w5, w6, w7, w8, w9, w10, w11, w12, w13, w14, w15⟩,
      ⟨a, b, c, d, e, f, g, h⟩ =>
    force (word (Nat.add (Nat.add (Nat.add (smallSigma1 w14) w9) (smallSigma0 w1)) w0)) fun w16 =>
    force (word (Nat.add (Nat.add (Nat.add (Nat.add h (bigSigma1 e)) (ch e f g)) k) w0)) fun t1 =>
    force (word (Nat.add (Nat.add t1 (bigSigma0 a)) (maj a b c))) fun a' =>
    force (word (Nat.add d t1)) fun e' =>
    rounds ks ⟨w1, w2, w3, w4, w5, w6, w7, w8, w9, w10, w11, w12, w13, w14, w15, w16⟩
      ⟨a', a, b, c, e', e, f, g⟩

/-- The sums of the words of two states, given to `k`. -/
def addWords (s r : State) (k : State → State) : State :=
  match s, r with
  | ⟨a, b, c, d, e, f, g, h⟩, ⟨a', b', c', d', e', f', g', h'⟩ =>
    force (word (Nat.add a a')) fun a => force (word (Nat.add b b')) fun b =>
    force (word (Nat.add c c')) fun c => force (word (Nat.add d d')) fun d =>
    force (word (Nat.add e e')) fun e => force (word (Nat.add f f')) fun f =>
    force (word (Nat.add g g')) fun g => force (word (Nat.add h h')) fun h =>
    k ⟨a, b, c, d, e, f, g, h⟩

/-- The first word of a list of bytes and the rest of it, given to `k`. -/
def takeWord (bytes : List ℕ) (k : ℕ → List ℕ → State) : State :=
  match bytes with
  | b0 :: b1 :: b2 :: b3 :: rest =>
    force (Nat.add (Nat.mul b0 16777216) (Nat.add (Nat.mul b1 65536)
      (Nat.add (Nat.mul b2 256) b3))) fun w => k w rest
  | _ => k 0 []

/-- The first block of a list of bytes and the rest of it, given to `k`. -/
def takeBlock (bytes : List ℕ) (k : Window → List ℕ → State) : State :=
  takeWord bytes fun w0 bytes => takeWord bytes fun w1 bytes =>
  takeWord bytes fun w2 bytes => takeWord bytes fun w3 bytes =>
  takeWord bytes fun w4 bytes => takeWord bytes fun w5 bytes =>
  takeWord bytes fun w6 bytes => takeWord bytes fun w7 bytes =>
  takeWord bytes fun w8 bytes => takeWord bytes fun w9 bytes =>
  takeWord bytes fun w10 bytes => takeWord bytes fun w11 bytes =>
  takeWord bytes fun w12 bytes => takeWord bytes fun w13 bytes =>
  takeWord bytes fun w14 bytes => takeWord bytes fun w15 bytes =>
  k ⟨w0, w1, w2, w3, w4, w5, w6, w7, w8, w9, w10, w11, w12, w13, w14, w15⟩ bytes

/-- The hash value after `n` blocks of a list of bytes. -/
def absorb : ℕ → List ℕ → State → State
  | 0, _, s => s
  | n + 1, bytes, s =>
    takeBlock bytes fun w rest => addWords s (rounds roundConstants w s) (absorb n rest)

/-! ## Padding -/

/-- The `k` bytes of a number, most significant first. -/
def bigEndian : ℕ → ℕ → List ℕ
  | 0, _ => []
  | k + 1, n => bigEndian k (n / 256) ++ [n % 256]

/-- The message with the delimiter, the zeros and its length in bits. -/
def pad (message : List ℕ) : List ℕ :=
  message ++ 128 :: (List.replicate ((119 - message.length % 64) % 64) 0 ++
    bigEndian 8 (8 * message.length))

/-- The final hash value of a message. -/
def digest (message : List ℕ) : State :=
  absorb ((message.length + 72) / 64) (pad message) State.initial

/-! ## Hexadecimal digits -/

def hexDigit (n : ℕ) : Char :=
  if n < 10 then Char.ofNat (48 + n) else Char.ofNat (87 + n)

/-- The last `k` hexadecimal digits of a number. -/
def hexDigits : ℕ → ℕ → List Char
  | 0, _ => []
  | k + 1, n => hexDigits k (n / 16) ++ [hexDigit (n % 16)]

/-- The hexadecimal digits of a hash value. -/
def State.text : State → String
  | ⟨a, b, c, d, e, f, g, h⟩ =>
    String.ofList (hexDigits 8 a ++ hexDigits 8 b ++ hexDigits 8 c ++ hexDigits 8 d ++
      hexDigits 8 e ++ hexDigits 8 f ++ hexDigits 8 g ++ hexDigits 8 h)

/-- `sha256(data).hexdigest()`. -/
def hexdigest (data : List UInt8) : String := (digest (data.map UInt8.toNat)).text

/-- A condition on the characters of a text is decided on the text. -/
instance (priority := 2000) decidableForallChar {p : Char → Prop} [DecidablePred p]
    (text : List Char) : Decidable (∀ c ∈ text, p c) :=
  List.decidableBAll p text

/-- `[0-9a-f]{64}`. -/
def IsDigest (s : String) : Prop :=
  s.toList.length = 64 ∧ ∀ c ∈ s.toList, ('0' ≤ c ∧ c ≤ '9') ∨ ('a' ≤ c ∧ c ≤ 'f')

instance (s : String) : Decidable (IsDigest s) :=
  inferInstanceAs (Decidable (_ ∧ _))

theorem length_hexDigits (k n : ℕ) : (hexDigits k n).length = k := by
  induction k generalizing n with
  | zero => rfl
  | succ k ih => simp [hexDigits, ih]

/-- The digits are lowercase hexadecimal. -/
theorem mem_hexDigits {k n : ℕ} {c : Char} (hc : c ∈ hexDigits k n) :
    ('0' ≤ c ∧ c ≤ '9') ∨ ('a' ≤ c ∧ c ≤ 'f') := by
  have hdigit : ∀ m < 16, ('0' ≤ hexDigit m ∧ hexDigit m ≤ '9') ∨
      ('a' ≤ hexDigit m ∧ hexDigit m ≤ 'f') := by decide
  induction k generalizing n with
  | zero => simp [hexDigits] at hc
  | succ k ih =>
    rcases List.mem_append.mp hc with hc | hc
    · exact ih hc
    · rw [List.mem_singleton.mp hc]
      exact hdigit _ (Nat.mod_lt _ (by decide))

theorem hexdigest_isDigest (data : List UInt8) : IsDigest (hexdigest data) := by
  refine ⟨by simp [hexdigest, State.text, length_hexDigits], ?_⟩
  intro c hc
  simp only [hexdigest, State.text, String.toList_ofList, List.mem_append] at hc
  rcases hc with ((((((hc | hc) | hc) | hc) | hc) | hc) | hc) | hc <;> exact mem_hexDigits hc

attribute [irreducible] hexdigest

/-- The one-block example of the standard. -/
example : hexdigest [97, 98, 99] =
    "ba7816bf8f01cfea414140de5dae2223b00361a396177a9cb410ff61f20015ad" := by
  decide +kernel

end Sha256
