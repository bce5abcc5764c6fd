import Mathlib.GroupTheory.OrderOfElement
import Mathlib.Tactic.NormNum.Prime
import SingleWire.Proofs.Remainders

/-!
What the checksums notice. A sequence that ends in its checksum is a multiple of the generator, so
damage passes unnoticed exactly if the bits that it changes make up a multiple of the generator
too. Such a multiple has an even number of bits and stretches over more bits than a register holds;
one of CRC-8 that has only two bits has them a multiple of 127 places apart.
-/

namespace SingleWire

open Polynomial

/-- The bits that differ between two sequences of one length, in the order sent. -/
def damage (sent received : List UInt8) : List Bool :=
  List.zipWith xor (sent.flatMap bitsOf) (received.flatMap bitsOf)

/-- Some bits are changed, all of them within `width` consecutive places. -/
structure Burst (width : Nat) (changed : List Bool) : Prop where
  changes : true ∈ changed
  narrow : ∃ start, ∀ place, changed[place]? = some true → start ≤ place ∧ place < start + width

theorem Burst.of_start {width : Nat} {changed : List Bool} (start : Nat) (changes : true ∈ changed)
    (narrow : ∀ place < changed.length, changed[place]? = some true →
      start ≤ place ∧ place < start + width) : Burst width changed :=
  ⟨changes, start, fun place set => narrow place (List.getElem?_eq_some_iff.mp set).1 set⟩

theorem polynomial_zipWith_xor {left right : List Bool} (same : left.length = right.length) :
    polynomial (List.zipWith xor left right) = polynomial left + polynomial right := by
  induction left generalizing right with
  | nil =>
      obtain rfl : right = [] := List.eq_nil_of_length_eq_zero same.symm
      simp [polynomial]
  | cons bit rest ih =>
      cases right with
      | nil => simp at same
      | cons other others =>
          have behind : rest.length = others.length := by simpa using same
          have length : (List.zipWith xor rest others).length = others.length := by simp [behind]
          have first : (if xor bit other then X ^ others.length else 0 : (ZMod 2)[X]) =
              (if bit then X ^ others.length else 0) + if other then X ^ others.length else 0 := by
            cases bit <;> cases other <;> simp [CharTwo.add_self_eq_zero]
          rw [List.zipWith_cons_cons, polynomial, polynomial, polynomial, ih behind, length, behind,
            first]
          ring

theorem length_damage {sent received : List UInt8} (same : received.length = sent.length) :
    (damage sent received).length = 8 * sent.length := by
  rw [damage, List.length_zipWith, length_flatMap_bitsOf, length_flatMap_bitsOf, same, min_self]

theorem polynomial_damage {sent received : List UInt8} (same : received.length = sent.length) :
    polynomial (damage sent received) =
      polynomial (sent.flatMap bitsOf) + polynomial (received.flatMap bitsOf) := by
  apply polynomial_zipWith_xor
  rw [length_flatMap_bitsOf, length_flatMap_bitsOf, same]

theorem polynomial_eq_zero_iff (bits : List Bool) : polynomial bits = 0 ↔ true ∉ bits := by
  rw [← List.mem_reverse, List.mem_iff_getElem?]
  constructor
  · rintro zero ⟨place, set⟩
    have coefficient := coeff_polynomial bits place
    rw [zero, coeff_zero, if_pos set] at coefficient
    exact zero_ne_one coefficient
  · intro clear
    ext place
    rw [coeff_polynomial, coeff_zero, if_neg fun set => clear ⟨place, set⟩]

theorem degree_polynomial_lt (bits : List Bool) : (polynomial bits).degree < bits.length := by
  rw [degree_lt_iff_coeff_zero]
  intro place beyond
  rw [coeff_polynomial, List.getElem?_eq_none (by simpa using beyond)]
  simp

theorem eval_one_polynomial (bits : List Bool) :
    (polynomial bits).eval 1 = (bits.count true : ZMod 2) := by
  induction bits with
  | nil => simp [polynomial]
  | cons bit rest ih =>
      rw [polynomial, eval_add, ih]
      cases bit <;> simp [add_comm]

theorem polynomial_of_count_one {bits : List Bool} (one : bits.count true = 1) :
    ∃ place < bits.length, polynomial bits = X ^ place := by
  induction bits with
  | nil => simp at one
  | cons bit rest ih =>
      cases bit with
      | true =>
          have clear : true ∉ rest := List.count_eq_zero.mp (by simpa using one)
          exact ⟨rest.length, by simp, by simp [polynomial, (polynomial_eq_zero_iff rest).mpr clear]⟩
      | false =>
          obtain ⟨place, inside, same⟩ := ih (by simpa using one)
          exact ⟨place, by simp; omega, by simpa [polynomial] using same⟩

theorem polynomial_of_count_two {bits : List Bool} (two : bits.count true = 2) :
    ∃ low high, low < high ∧ high < bits.length ∧ polynomial bits = X ^ high + X ^ low := by
  induction bits with
  | nil => simp at two
  | cons bit rest ih =>
      cases bit with
      | true =>
          obtain ⟨place, inside, same⟩ := @polynomial_of_count_one rest (by simpa using two)
          exact ⟨place, rest.length, inside, by simp, by simp [polynomial, same]⟩
      | false =>
          obtain ⟨low, high, apart, inside, same⟩ := ih (by simpa using two)
          exact ⟨low, high, apart, by simp; omega, by simpa [polynomial] using same⟩

section

variable {generator : (ZMod 2)[X]} {changed : List Bool}

theorem not_dvd_of_odd (even : generator.eval 1 = 0) (odd : Odd (changed.count true)) :
    ¬ generator ∣ polynomial changed := by
  intro divides
  have zero : (polynomial changed).eval 1 = 0 := by
    obtain ⟨factor, product⟩ := divides
    rw [product, eval_mul, even, zero_mul]
  rw [eval_one_polynomial, ZMod.natCast_eq_zero_iff_even] at zero
  exact Nat.not_even_iff_odd.mpr odd zero

theorem Burst.polynomial_eq {width : Nat} (burst : Burst width changed) :
    ∃ middle : List Bool, ∃ behind, true ∈ middle ∧ middle.length ≤ width ∧
      polynomial changed = polynomial middle * X ^ behind := by
  obtain ⟨start, narrow⟩ := burst.narrow
  have front : true ∉ changed.take start := by
    intro member
    obtain ⟨place, set⟩ := List.mem_iff_getElem?.mp member
    rw [List.getElem?_take] at set
    split at set
    · have inside := narrow place set
      omega
    · cases set
  have back : true ∉ (changed.drop start).drop width := by
    intro member
    obtain ⟨place, set⟩ := List.mem_iff_getElem?.mp member
    rw [List.getElem?_drop, List.getElem?_drop] at set
    have inside := narrow _ set
    omega
  have whole : changed.take start ++ ((changed.drop start).take width ++
      (changed.drop start).drop width) = changed := by
    rw [List.take_append_drop, List.take_append_drop]
  refine ⟨(changed.drop start).take width, ((changed.drop start).drop width).length, ?_, by simp, ?_⟩
  · have member := burst.changes
    rw [← whole, List.mem_append, List.mem_append] at member
    exact (member.resolve_left front).resolve_right back
  · conv_lhs => rw [← whole]
    rw [polynomial_append, polynomial_append, (polynomial_eq_zero_iff _).mpr front,
      (polynomial_eq_zero_iff _).mpr back]
    simp

theorem not_dvd_of_burst {width : Nat} (last : IsCoprime generator X) (wide : generator.degree = width)
    (burst : Burst width changed) : ¬ generator ∣ polynomial changed := by
  intro divides
  obtain ⟨middle, behind, member, short, same⟩ := burst.polynomial_eq
  rw [same] at divides
  have inside : generator ∣ polynomial middle := last.pow_right.dvd_of_dvd_mul_right divides
  have small : (polynomial middle).degree < generator.degree := by
    rw [wide]
    exact lt_of_lt_of_le (degree_polynomial_lt middle) (by exact_mod_cast short)
  exact (polynomial_eq_zero_iff middle).mp (eq_zero_of_dvd_of_degree_lt inside small) member

/-- Two changed bits are noticed unless they lie as far apart as the generator takes to repeat. -/
theorem dvd_pair_iff (last : IsCoprime generator X) {low high : Nat} (apart : low < high) :
    generator ∣ X ^ high + X ^ low ↔ orderOf (AdjoinRoot.root generator) ∣ high - low := by
  have product : (X ^ high + X ^ low : (ZMod 2)[X]) = (X ^ (high - low) - 1) * X ^ low := by
    rw [sub_mul, ← pow_add, Nat.sub_add_cancel apart.le, one_mul, CharTwo.sub_eq_add]
  have shifted : generator ∣ X ^ high + X ^ low ↔ generator ∣ X ^ (high - low) - 1 := by
    rw [product]
    exact ⟨last.pow_right.dvd_of_dvd_mul_right, fun divides => divides.mul_right _⟩
  rw [shifted, ← AdjoinRoot.mk_eq_mk, orderOf_dvd_iff_pow_eq_one, map_pow, AdjoinRoot.mk_X, map_one]

end

theorem polynomial_lowFirst_eq_zero_iff {width : Nat} (word : BitVec width) :
    polynomial (lowFirst word) = 0 ↔ word = 0 := by
  rw [polynomial_eq_zero_iff]
  constructor
  · intro clear
    apply BitVec.eq_of_getLsbD_eq
    intro index inside
    have bit : word.getLsbD index ≠ true := fun set =>
      clear (List.mem_map.mpr ⟨index, List.mem_range.mpr inside, set⟩)
    simpa using bit
  · rintro rfl
    simp [lowFirst]

namespace Crc8

theorem eval_one_generator : generator.eval 1 = 0 := by
  simp only [generator, eval_add, eval_pow, eval_X, eval_one, one_pow]
  decide

theorem isCoprime_generator_X : IsCoprime generator X :=
  ⟨1, -(X ^ 7 + X ^ 4 + X ^ 3), by rw [generator]; ring⟩

theorem root_pow_of_repeat {count : Nat} (around : Nat.repeat shift count 0x80 = 0x80) :
    AdjoinRoot.root generator ^ count = 1 := by
  have unit : polynomial (bitsOf 0x80) = 1 := by
    have bits : bitsOf 0x80 = List.replicate 7 false ++ [true] := by decide
    simp [bits, polynomial, List.replicate]
  have moved := residue_shifts count 0x80
  rw [around, unit, mul_one, map_one, map_pow, AdjoinRoot.mk_X] at moved
  exact moved.symm

theorem root_ne_one : AdjoinRoot.root generator ≠ 1 := by
  intro one
  rw [← AdjoinRoot.mk_X, ← map_one (AdjoinRoot.mk generator), AdjoinRoot.mk_eq_mk] at one
  have degree : (X - 1 : (ZMod 2)[X]).degree = 1 := by simpa using degree_X_sub_C (1 : ZMod 2)
  have zero := eq_zero_of_dvd_of_degree_lt one (by rw [degree, degree_generator]; decide)
  rw [zero, degree_zero] at degree
  cases degree

theorem orderOf_root : orderOf (AdjoinRoot.root generator) = 127 := by
  have prime : Fact (Nat.Prime 127) := ⟨by norm_num⟩
  exact orderOf_eq_prime (root_pow_of_repeat (by decide +kernel)) root_ne_one

theorem crc8_eq_zero_iff (bytes : List UInt8) :
    crc8 bytes = 0 ↔ generator ∣ polynomial (bytes.flatMap bitsOf) := by
  have folded := @residue_foldl UInt8 (fun register => polynomial (bitsOf register)) generator update
    8 residue_update bytes 0
  have empty : polynomial (bitsOf 0) = 0 :=
    (polynomial_lowFirst_eq_zero_iff (0 : UInt8).toBitVec).mpr rfl
  rw [empty, zero_mul, add_zero] at folded
  have remainder := eq_remainder folded
  calc
    crc8 bytes = 0 ↔ polynomial (bitsOf (crc8 bytes)) = 0 := by
      rw [bitsOf_eq_lowFirst, polynomial_lowFirst_eq_zero_iff, ← UInt8.toBitVec_inj]
      rfl
    _ ↔ generator ∣ polynomial (bytes.flatMap bitsOf) * X ^ 8 := by
      rw [← modByMonic_eq_zero_iff_dvd monic_generator, ← remainder]
      rfl
    _ ↔ generator ∣ polynomial (bytes.flatMap bitsOf) :=
      ⟨isCoprime_generator_X.pow_right.dvd_of_dvd_mul_right, fun divides => divides.mul_right _⟩

/-- Damage to a valid sequence passes unnoticed exactly if it is a multiple of the generator. -/
theorem isValid_iff_dvd_damage {sent received : List UInt8} (same : received.length = sent.length)
    (valid : isValid sent = true) :
    isValid received = true ↔ generator ∣ polynomial (damage sent received) := by
  have nonempty : sent ≠ [] := by
    intro nothing
    rw [nothing] at valid
    cases valid
  have others : received ≠ [] := by
    intro nothing
    rw [nothing] at same
    exact nonempty (List.eq_nil_of_length_eq_zero same.symm)
  have whole : generator ∣ polynomial (sent.flatMap bitsOf) := by
    rw [← crc8_eq_zero_iff]
    simpa [isValid, nonempty] using valid
  rw [polynomial_damage same, dvd_add_right whole, ← crc8_eq_zero_iff]
  simp [isValid, others]

/-- A sequence behind which its checksum stands is valid. It is refused once an odd number of its
bits is changed, or only bits within eight places, or up to three bits of at most fifteen bytes. -/
theorem isValid_damaged (bytes : List UInt8) :
    let sent := bytes ++ [crc8 bytes]
    isValid sent = true ∧
      ∀ received : List UInt8, received.length = sent.length →
        let changed := damage sent received
        Odd (changed.count true) ∨ Burst 8 changed ∨
            sent.length ≤ 15 ∧ 1 ≤ changed.count true ∧ changed.count true ≤ 3 →
          isValid received = false := by
  intro sent
  have valid : isValid sent = true := (isValid_append_iff bytes _).mpr rfl
  refine ⟨valid, ?_⟩
  intro received same changed harm
  suffices noticed : ¬ generator ∣ polynomial changed by
    rw [← isValid_iff_dvd_damage same valid] at noticed
    exact Bool.eq_false_iff.mpr noticed
  rcases harm with odd | burst | ⟨short, any, few⟩
  · exact not_dvd_of_odd eval_one_generator odd
  · exact not_dvd_of_burst isCoprime_generator_X degree_generator burst
  · by_cases two : changed.count true = 2
    · obtain ⟨low, high, apart, inside, pair⟩ := polynomial_of_count_two two
      have length : changed.length = 8 * sent.length := length_damage same
      rw [pair, dvd_pair_iff isCoprime_generator_X apart, orderOf_root]
      -- fifteen bytes are 120 bits, so no two of them stand 127 places apart
      intro repeats
      have far := Nat.le_of_dvd (by omega) repeats
      omega
    · exact not_dvd_of_odd eval_one_generator (Nat.odd_iff.mpr (by omega))

theorem isValid_damaged_code :
    let bytes : List UInt8 := [0x02, 0x1c, 0xb8, 0x01, 0x00, 0x00, 0x00]
    crc8 bytes = 0xa2 ∧
      isValid [0x02, 0x1c, 0xb8, 0x01, 0x00, 0x00, 0x90, 0xab] = false ∧
      isValid [0x03, 0x1c, 0xb8, 0x01, 0x00, 0x00, 0x00, 0x22] = false := by
  intro bytes
  have checksum : crc8 bytes = 0xa2 := by decide +kernel
  have burst : Burst 8
      (damage (bytes ++ [0xa2]) [0x02, 0x1c, 0xb8, 0x01, 0x00, 0x00, 0x90, 0xab]) :=
    Burst.of_start 52 (by decide +kernel) (by decide +kernel)
  have refused := (isValid_damaged bytes).2
  rw [checksum] at refused
  refine ⟨checksum, refused _ (by decide) (.inr (.inl burst)), ?_⟩
  exact refused _ (by decide) (.inr (.inr (by decide +kernel)))

end Crc8

namespace Crc16

theorem eval_one_generator : generator.eval 1 = 0 := by
  simp only [generator, eval_add, eval_pow, eval_X, eval_one, one_pow]
  decide

theorem isCoprime_generator_X : IsCoprime generator X :=
  ⟨1, -(X ^ 15 + X ^ 14 + X), by rw [generator]; ring⟩

/-- The inverted checksum that is sent behind the bytes, low byte first. -/
def trailer (bytes : List UInt8) (seed : UInt16) : UInt8 × UInt8 :=
  ((~~~crc16 bytes seed).toUInt8, (~~~crc16 bytes seed >>> 8).toUInt8)

theorem getLsbD_joined (low high : UInt8) (index : Nat) :
    (low.toUInt16 ||| high.toUInt16 <<< 8).toBitVec.getLsbD index =
      if index < 8 then low.toBitVec.getLsbD index
      else decide (index < 16) && high.toBitVec.getLsbD (index - 8) := by
  have shifted : (low.toUInt16 ||| high.toUInt16 <<< 8).toBitVec =
      low.toBitVec.setWidth 16 ||| high.toBitVec.setWidth 16 <<< 8 := rfl
  rw [shifted, BitVec.getLsbD_or, BitVec.getLsbD_shiftLeft, BitVec.getLsbD_setWidth,
    BitVec.getLsbD_setWidth]
  by_cases first : index < 8
  · have inside : index < 16 := by omega
    simp [first, inside]
  · have beyond : low.toBitVec.getLsbD index = false := BitVec.getLsbD_of_ge _ _ (by omega)
    by_cases inside : index < 16
    · have within : index - 8 < 16 := by omega
      simp [first, inside, within, beyond]
    · simp [first, inside, beyond]

theorem bitsOf_append_bitsOf (low high : UInt8) :
    bitsOf low ++ bitsOf high = lowFirst (low.toUInt16 ||| high.toUInt16 <<< 8).toBitVec := by
  have halves : List.range 16 = List.range 8 ++ (List.range 8).map (8 + ·) := rfl
  rw [lowFirst, halves, List.map_append, List.map_map]
  congr 1
  · apply List.map_congr_left
    intro index member
    rw [getLsbD_joined, if_pos (List.mem_range.mp member)]
  · apply List.map_congr_left
    intro index member
    have inside : index < 8 := List.mem_range.mp member
    rw [Function.comp_apply, getLsbD_joined, if_neg (by omega), Nat.add_sub_cancel_left]
    simp [show 8 + index < 16 by omega]

theorem accepts_trailer (bytes : List UInt8) (seed : UInt16) :
    accepts bytes (trailer bytes seed).1 (trailer bytes seed).2 seed = true := by
  rw [accepts, beq_iff_eq, ← UInt16.toBitVec_inj]
  apply BitVec.eq_of_getLsbD_eq
  intro index inside
  rw [getLsbD_joined]
  have low : (trailer bytes seed).1.toBitVec = (~~~crc16 bytes seed).toBitVec.setWidth 8 := rfl
  have high : (trailer bytes seed).2.toBitVec = ((~~~crc16 bytes seed).toBitVec >>> 8).setWidth 8 := rfl
  rw [low, high, BitVec.getLsbD_setWidth, BitVec.getLsbD_setWidth, BitVec.getLsbD_ushiftRight]
  by_cases first : index < 8
  · simp [first]
  · have within : index - 8 < 8 := by omega
    simp [first, inside, within, Nat.add_sub_cancel' (Nat.le_of_not_lt first)]

noncomputable def offset (length : Nat) (seed : UInt16) : (ZMod 2)[X] :=
  polynomial (lowFirst seed.toBitVec) * X ^ (8 * length) + polynomial (lowFirst (BitVec.allOnes 16))

theorem polynomial_not (word : BitVec 16) :
    polynomial (lowFirst (~~~word)) =
      polynomial (lowFirst word) + polynomial (lowFirst (BitVec.allOnes 16)) := by
  rw [← polynomial_xor, BitVec.xor_allOnes]

theorem residue_crc16 (bytes : List UInt8) (seed : UInt16) :
    AdjoinRoot.mk generator (polynomial (lowFirst (crc16 bytes seed).toBitVec)) =
      AdjoinRoot.mk generator (polynomial (bytes.flatMap bitsOf) * X ^ 16 +
        polynomial (lowFirst seed.toBitVec) * X ^ (8 * bytes.length)) :=
  @residue_foldl UInt16 (fun register => polynomial (lowFirst register.toBitVec)) generator update 16
    residue_update bytes seed

theorem accepts_iff (bytes : List UInt8) (low high : UInt8) (seed : UInt16) :
    accepts bytes low high seed = true ↔
      generator ∣ polynomial ((bytes ++ [low, high]).flatMap bitsOf) + offset bytes.length seed := by
  have joined : polynomial ((bytes ++ [low, high]).flatMap bitsOf) =
      polynomial (bytes.flatMap bitsOf) * X ^ 16 +
        polynomial (lowFirst (low.toUInt16 ||| high.toUInt16 <<< 8).toBitVec) := by
    have trailing : [low, high].flatMap bitsOf = bitsOf low ++ bitsOf high := by simp
    rw [List.flatMap_append, polynomial_append, trailing, bitsOf_append_bitsOf]
    simp [lowFirst]
  generalize received : low.toUInt16 ||| high.toUInt16 <<< 8 = word at joined
  calc
    accepts bytes low high seed = true ↔ (~~~crc16 bytes seed).toBitVec ^^^ word.toBitVec = 0 := by
      rw [accepts, received, beq_iff_eq, ← UInt16.toBitVec_inj]
      exact BitVec.xor_eq_zero_iff.symm
    _ ↔ polynomial (lowFirst ((~~~crc16 bytes seed).toBitVec ^^^ word.toBitVec)) = 0 :=
      (polynomial_lowFirst_eq_zero_iff _).symm
    _ ↔ generator ∣ polynomial (lowFirst ((~~~crc16 bytes seed).toBitVec ^^^ word.toBitVec)) := by
      constructor
      · intro zero
        rw [zero]
        exact dvd_zero _
      · intro divides
        apply eq_zero_of_dvd_of_degree_lt divides
        rw [degree_generator]
        exact degree_lowFirst_lt _
    _ ↔ _ := by
      rw [← AdjoinRoot.mk_eq_zero, ← AdjoinRoot.mk_eq_zero, UInt16.toBitVec_not, polynomial_xor,
        polynomial_not, map_add, map_add, residue_crc16, ← map_add, ← map_add, joined, offset]
      ring_nf

theorem accepts_iff_dvd_damage {sent received : List UInt8} {low high sentLow sentHigh : UInt8}
    {seed : UInt16} (same : received.length = sent.length)
    (accepted : accepts sent sentLow sentHigh seed = true) :
    accepts received low high seed = true ↔
      generator ∣ polynomial (damage (sent ++ [sentLow, sentHigh]) (received ++ [low, high])) := by
  rw [accepts_iff] at accepted
  rw [accepts_iff, polynomial_damage (by simp [same]), same, ← dvd_add_right accepted]
  have twice := CharTwo.add_self_eq_zero (offset sent.length seed)
  have cancelled : ∀ left right : (ZMod 2)[X],
      left + offset sent.length seed + (right + offset sent.length seed) = left + right := by
    intro left right
    linear_combination twice
  rw [cancelled]

/-- Bytes with their inverted checksum are accepted. They are refused once an odd number of the bits
of both is changed, or only bits within sixteen places, wherever the border lies among them. -/
theorem accepts_damaged (bytes : List UInt8) (seed : UInt16) :
    let (sentLow, sentHigh) := trailer bytes seed
    accepts bytes sentLow sentHigh seed = true ∧
      ∀ (received : List UInt8) (low high : UInt8), received.length = bytes.length →
        let changed := damage (bytes ++ [sentLow, sentHigh]) (received ++ [low, high])
        Odd (changed.count true) ∨ Burst 16 changed → accepts received low high seed = false := by
  have accepted := accepts_trailer bytes seed
  refine ⟨accepted, ?_⟩
  intro received low high same changed harm
  apply Bool.eq_false_iff.mpr
  rw [ne_eq, accepts_iff_dvd_damage same accepted]
  rcases harm with odd | burst
  · exact not_dvd_of_odd eval_one_generator odd
  · exact not_dvd_of_burst isCoprime_generator_X degree_generator burst

theorem accepts_damaged_chained :
    trailer [0x31, 0x32, 0x33] 0xbb3d = (0x18, 0x79) ∧
      accepts [0x31, 0x32, 0x23] 0x18 0x71 0xbb3d = false := by
  have sent : trailer [0x31, 0x32, 0x33] 0xbb3d = (0x18, 0x79) := by decide +kernel
  have burst : Burst 16
      (damage ([0x31, 0x32, 0x33] ++ [0x18, 0x79]) ([0x31, 0x32, 0x23] ++ [0x18, 0x71])) :=
    Burst.of_start 20 (by decide +kernel) (by decide +kernel)
  have refused := accepts_damaged [0x31, 0x32, 0x33] 0xbb3d
  rw [sent] at refused
  exact ⟨sent, refused.2 _ _ _ rfl (.inr burst)⟩

end Crc16

end SingleWire
