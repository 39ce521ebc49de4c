import MarketMonitor.MarketData.WireNumbers

/-!
# The reader of variable integers

`_read_number` at a position of a body, as the source has it : a loop that shifts groups of
seven bits above the six of the first byte. It is the reader of the front of the rest of the
body (`readNumberAt_append`), and what that reads are the numbers of at most nine bytes whose
high bits say where they end (`reads_readNumber`). Both together say which bytes of a body
are accepted at a position, as which integer, and where the reader stops (`number_reader`).
-/

namespace MarketMonitor

open Reading Transaction

/-! ## The loop over positions -/

/-- `_require(body, position, length)` -/
def requireBytes (body : List UInt8) (position length : ℤ) : Except Exn Unit :=
  check (¬(position < 0 ∨ length < 0 ∨ (body.length : ℤ) - position < length))
    (protocolError "truncated TDX response")

/-- `body[position]`, of a position that is not negative. -/
def byteAt (body : List UInt8) (position : ℤ) : Except Exn UInt8 :=
  match body[position.toNat]? with
  | some byte => .ok byte
  | none => .error ⟨.indexError, "index out of range"⟩

/-- The loop of `_read_number`, after a first byte. -/
def readNumberLoop (body : List UInt8) (first : UInt8) (position : ℤ) (magnitude shift : ℕ) :
    Except Exn (ℕ × ℤ) :=
  if first &&& 0x80 = 0 then .ok (magnitude, position)
  else do
    requireBytes body position 1
    let first ← byteAt body position
    let magnitude := magnitude ||| ((first &&& 0x7F).toNat <<< shift)
    if 63 < shift + 7 then .error (protocolError "variable number exceeds safe range")
    else readNumberLoop body first (position + 1) magnitude (shift + 7)
termination_by 64 - shift

/-- `_read_number(body, position)` -/
def readNumberAt (body : List UInt8) (position : ℤ) : Except Exn (ℤ × ℤ) := do
  requireBytes body position 1
  let first ← byteAt body position
  let (magnitude, position) ← readNumberLoop body first (position + 1) (first &&& 0x3F).toNat 6
  return (if first &&& 0x40 = 0 then (magnitude : ℤ) else -(magnitude : ℤ), position)

/-! ## The rest of a body -/

/-- What a reader of the rest returns, as a position of the body. -/
def atPosition {α : Type} (length : ℕ) (result : Except Exn (α × List UInt8)) :
    Except Exn (α × ℤ) :=
  result.map fun p => (p.1, (length : ℤ) - p.2.length)

/-- One more byte is there, or the response is truncated. -/
theorem requireBytes_append (start text : List UInt8) :
    requireBytes (start ++ text) start.length 1 =
      if text = [] then .error (protocolError "truncated TDX response") else .ok () := by
  unfold requireBytes check
  rw [List.length_append]
  cases text with
  | nil =>
    rw [if_neg (by simp), if_pos rfl]
  | cons byte text =>
    have hinside : ¬((start.length : ℤ) < 0 ∨ (1 : ℤ) < 0 ∨
        ((start.length + (byte :: text).length : ℕ) : ℤ) - start.length < 1) := by
      rw [List.length_cons]
      omega
    rw [if_pos hinside, if_neg (List.cons_ne_nil _ _)]

theorem byteAt_append (start : List UInt8) (byte : UInt8) (text : List UInt8) :
    byteAt (start ++ byte :: text) start.length = .ok byte := by
  unfold byteAt
  rw [Int.toNat_natCast, List.getElem?_append_right le_rfl, Nat.sub_self, List.getElem?_cons_zero]

/-- The loop reads the groups from its position on. -/
theorem readNumberLoop_append (text start : List UInt8) (first : UInt8) (magnitude shift : ℕ) :
    readNumberLoop (start ++ text) first start.length magnitude shift =
      atPosition (start ++ text).length (readGroups first magnitude shift text) := by
  induction text generalizing start first magnitude shift with
  | nil =>
    rw [readNumberLoop]
    split
    case isTrue hlast =>
      rw [readGroups_last hlast]
      simp [atPosition, Except.map]
    case isFalse hlast =>
      rw [readGroups_nil hlast, requireBytes_append, if_pos rfl]
      rfl
  | cons byte text ih =>
    rw [readNumberLoop]
    split
    case isTrue hlast =>
      rw [readGroups_last hlast]
      simp [atPosition, Except.map]
    case isFalse hlast =>
      rw [readGroups_cons hlast, requireBytes_append, if_neg (List.cons_ne_nil _ _), byteAt_append]
      change (if 63 < shift + 7 then _ else _) = _
      split
      · rfl
      · have h := ih (start ++ [byte]) byte (magnitude ||| ((byte &&& 0x7F).toNat <<< shift))
          (shift + 7)
        rw [List.length_append, List.length_singleton, List.append_assoc,
          List.singleton_append] at h
        exact_mod_cast h

/-- At a position of the body, the reader is the one of the rest. -/
theorem readNumberAt_append (start text : List UInt8) :
    readNumberAt (start ++ text) start.length =
      atPosition (start ++ text).length (readNumber text) := by
  cases text with
  | nil =>
    unfold readNumberAt
    rw [requireBytes_append, if_pos rfl]
    rfl
  | cons first text =>
    unfold readNumberAt
    rw [requireBytes_append, if_neg (List.cons_ne_nil _ _), byteAt_append]
    have h := readNumberLoop_append text (start ++ [first]) first (first &&& 0x3F).toNat 6
    rw [List.length_append, List.length_singleton, List.append_assoc, List.singleton_append] at h
    push_cast at h
    change (readNumberLoop _ _ _ _ _ >>= _) = _
    rw [h]
    change _ = atPosition _ (readGroups first (first &&& 0x3F).toNat 6 text >>= _)
    cases readGroups first (first &&& 0x3F).toNat 6 text <;> rfl

/-! ## Numbers as bytes -/

/-- Six bits of the magnitude and the sign in the first byte, seven in each other one. -/
def varintValue : List UInt8 → ℤ
  | [] => 0
  | first :: groups => (if first.toNat / 64 % 2 = 0 then 1 else -1) *
      ((first.toNat % 64 + 2 ^ 6 * groupsMagnitude groups : ℕ) : ℤ)

/-- The bytes of an integer, with the high bit set in all but the last, nine at most. -/
structure IsVarint (taken : List UInt8) (value : ℤ) : Prop where
  length_pos : 1 ≤ taken.length
  length_le : taken.length ≤ 9
  continued : ∀ byte ∈ taken.dropLast, 128 ≤ byte.toNat
  ended : ∀ byte ∈ taken.getLast?, byte.toNat < 128
  value_eq : value = varintValue taken

theorem continued_iff {first : UInt8} {rest : List UInt8} : Continued first rest ↔
    (∀ byte ∈ (first :: rest).dropLast, 128 ≤ byte.toNat) ∧
      ∀ byte ∈ (first :: rest).getLast?, byte.toNat < 128 := by
  induction rest generalizing first with
  | nil => simp [Continued]
  | cons byte rest ih =>
    rw [Continued, ih, List.dropLast_cons_cons, List.forall_mem_cons, List.getLast?_cons_cons,
      and_assoc]

/-- The sign of the first byte and the groups make the value. -/
theorem signed_eq (first : UInt8) (groups : List UInt8) :
    (if first &&& 0x40 = 0 then ((first.toNat % 64 + 2 ^ 6 * groupsMagnitude groups : ℕ) : ℤ)
      else -((first.toNat % 64 + 2 ^ 6 * groupsMagnitude groups : ℕ) : ℤ)) =
      varintValue (first :: groups) := by
  have hsign := (byte_bits first).2.2.1
  rw [varintValue]
  by_cases hs : first.toNat / 64 % 2 = 0
  · rw [if_pos (hsign.mpr hs), if_pos hs, one_mul]
  · rw [if_neg fun h => hs (hsign.mp h), if_neg hs, neg_one_mul]

/-- A number is read from its bytes and from nothing else. -/
theorem reads_readNumber {taken : List UInt8} {value : ℤ} :
    Reads readNumber taken value ↔ IsVarint taken value := by
  rw [readNumber, (local_takeBytes 1).reads_bind fun _ =>
    (local_readGroups _ _ _).bind fun _ => .pure _]
  constructor
  · rintro ⟨head, rest, bytes, rfl, hhead, hrest⟩
    obtain ⟨rfl, hlength⟩ := reads_takeBytes.mp hhead
    obtain ⟨first, rfl⟩ := List.length_eq_one_iff.mp hlength
    obtain ⟨rest, last, n, rfl, hgroups, hlast⟩ :=
      ((local_readGroups _ _ _).reads_bind fun _ => .pure _).mp hrest
    obtain ⟨rfl, hvalue⟩ := reads_pure.mp hlast
    rw [List.getD_cons_zero, (byte_bits first).1] at hgroups
    obtain ⟨hcontinued, hlength, rfl⟩ := (reads_readGroups
      (show first.toNat % 64 < 2 ^ 6 from Nat.mod_lt _ (by decide)) (by decide)).mp hgroups
    obtain ⟨hcontinues, hends⟩ := continued_iff.mp hcontinued
    rw [List.append_nil, List.singleton_append]
    exact ⟨by simp, by rw [List.length_cons]; omega, hcontinues, hends,
      hvalue.symm.trans (signed_eq first rest)⟩
  · intro h
    obtain ⟨first, rest, rfl⟩ : ∃ first rest, taken = first :: rest :=
      List.exists_cons_of_length_pos h.length_pos
    refine ⟨[first], rest, [first], rfl, reads_takeBytes.mpr ⟨rfl, rfl⟩, ?_⟩
    rw [List.getD_cons_zero, (byte_bits first).1]
    have hlength := h.length_le
    rw [List.length_cons] at hlength
    have hgroups := (@reads_readGroups first _ _
      (show first.toNat % 64 < 2 ^ 6 from Nat.mod_lt _ (by decide)) (by decide) _ _).mpr
      ⟨continued_iff.mpr ⟨h.continued, h.ended⟩, by omega, rfl⟩
    have := hgroups.bind
      (f := fun n : ℕ => Pure.pure (if first &&& 0x40 = 0 then (n : ℤ) else -(n : ℤ)))
      (reads_pure.mpr ⟨rfl, (signed_eq first rest).trans h.value_eq.symm⟩)
    rwa [List.append_nil] at this

/-- A number that is read fits. -/
theorem IsVarint.fits {taken : List UInt8} {value : ℤ} (h : IsVarint taken value) :
    FitsNumber value := by
  obtain ⟨first, groups, rfl⟩ := List.exists_cons_of_length_pos h.length_pos
  have hgroups : groupsMagnitude groups < 128 ^ 8 := by
    have hlt : groupsMagnitude groups < 128 ^ (groups.map (·.toNat % 128)).length :=
      Nat.ofDigits_lt_base_pow_length (by decide) fun n hn => by
        obtain ⟨byte, -, rfl⟩ := List.mem_map.mp hn
        exact Nat.mod_lt _ (by decide)
    have hlength : (groups.map (·.toNat % 128)).length ≤ 8 := by
      have := h.length_le
      rw [List.length_cons] at this
      rw [List.length_map]
      omega
    exact hlt.trans_le (Nat.pow_le_pow_right (by decide) hlength)
  have hvalue := h.value_eq
  rw [varintValue] at hvalue
  unfold FitsNumber
  split at hvalue <;> omega

/-! ## The reader at a position -/

/-- The reader accepts at a position exactly the bytes of a number, returns it with the
position after them, and raises protocol errors otherwise. The numbers are those below
`2 ^ 62`, and each of these is read back from its encoding, whatever stands around it. -/
theorem number_reader :
    (∀ (body : List UInt8) (position value next : ℤ),
      readNumberAt body position = .ok (value, next) ↔
        ∃ start taken rest, body = start ++ (taken ++ rest) ∧ position = start.length ∧
          next = (start.length + taken.length : ℕ) ∧ IsVarint taken value) ∧
    (∀ (body : List UInt8) (position : ℤ) (e : Exn), readNumberAt body position = .error e →
      IsProtocolError e) ∧
    (∀ (taken : List UInt8) (value : ℤ), IsVarint taken value → FitsNumber value) ∧
    ∀ value, FitsNumber value → ∀ start rest : List UInt8,
      readNumberAt (start ++ (packNumber value ++ rest)) start.length =
        .ok (value, (start.length + (packNumber value).length : ℕ)) := by
  have hreads : ∀ {start taken rest : List UInt8} {value : ℤ}, IsVarint taken value →
      readNumberAt (start ++ (taken ++ rest)) start.length =
        .ok (value, (start.length + taken.length : ℕ)) := by
    intro start taken rest value h
    rw [readNumberAt_append, reads_readNumber.mpr h rest]
    simp only [atPosition, Except.map, List.length_append]
    congr 2
    push_cast
    ring
  -- A position outside of the body is refused.
  have houtside : ∀ {body : List UInt8} {position : ℤ}, ¬(0 ≤ position ∧ position ≤ body.length) →
      readNumberAt body position = .error (protocolError "truncated TDX response") := by
    intro body position h
    unfold readNumberAt requireBytes check
    rw [if_neg (by omega)]
    rfl
  have hsplit : ∀ {body : List UInt8} {position : ℤ}, 0 ≤ position ∧ position ≤ body.length →
      ∃ start text, body = start ++ text ∧ position = start.length := by
    intro body position h
    refine ⟨body.take position.toNat, body.drop position.toNat, (List.take_append_drop ..).symm, ?_⟩
    rw [List.length_take]
    omega
  refine ⟨fun body position value next => ⟨fun h => ?_, ?_⟩, fun body position e h => ?_,
    fun _ _ h => h.fits,
    fun value h start rest => hreads (reads_readNumber.mp (reads_packNumber h))⟩
  · by_cases hinside : 0 ≤ position ∧ position ≤ body.length
    · obtain ⟨start, text, rfl, rfl⟩ := hsplit hinside
      rw [readNumberAt_append] at h
      cases hread : readNumber text with
      | error e =>
        rw [hread] at h
        cases h
      | ok p =>
        obtain ⟨value', rest⟩ := p
        obtain ⟨taken, rfl, hvarint⟩ := local_readNumber.reads hread
        rw [← readNumberAt_append, hreads (reads_readNumber.mp hvarint)] at h
        cases h
        exact ⟨start, taken, rest, rfl, rfl, rfl, reads_readNumber.mp hvarint⟩
    · rw [houtside hinside] at h
      cases h
  · rintro ⟨start, taken, rest, rfl, rfl, rfl, h⟩
    exact hreads h
  · by_cases hinside : 0 ≤ position ∧ position ≤ body.length
    · obtain ⟨start, text, rfl, rfl⟩ := hsplit hinside
      rw [readNumberAt_append] at h
      cases hread : readNumber text with
      | error e' =>
        rw [hread] at h
        cases h
        exact local_readNumber.raises hread
      | ok p =>
        rw [hread] at h
        cases h
    · rw [houtside hinside] at h
      cases h
      rfl

end MarketMonitor
