import Mathlib.Algebra.CharP.Two
import Mathlib.Algebra.Field.ZMod
import Mathlib.RingTheory.AdjoinRoot
import Mathlib.RingTheory.Polynomial.Basic
import Mathlib.Tactic.ComputeDegree
import SingleWire.Proofs.Checksum

/-!
Checksums as remainders of polynomials over the field of two elements. Bits in the order sent are
the coefficients, the highest one first; a register is read like the bits that went through it, its
low bit first. A shift multiplies what a register reads as by `X`, up to the generator, so the
register ends as the remainder of all that was shifted through it.
-/

namespace SingleWire

open Polynomial

/-- Bits in the order sent as a polynomial, the first one its highest coefficient. -/
noncomputable def polynomial : List Bool → (ZMod 2)[X]
  | [] => 0
  | bit :: rest => (if bit then X ^ rest.length else 0) + polynomial rest

def lowFirst {width : Nat} (word : BitVec width) : List Bool :=
  (List.range width).map word.getLsbD

theorem bitsOf_eq_lowFirst (byte : UInt8) : bitsOf byte = lowFirst byte.toBitVec := rfl

theorem length_flatMap_bitsOf (bytes : List UInt8) :
    (bytes.flatMap bitsOf).length = 8 * bytes.length := by
  induction bytes with
  | nil => rfl
  | cons byte rest ih =>
      have eight : (bitsOf byte).length = 8 := by simp [bitsOf]
      rw [List.flatMap_cons, List.length_append, eight, ih, List.length_cons]
      omega

theorem coeff_polynomial (bits : List Bool) (place : Nat) :
    (polynomial bits).coeff place = if bits.reverse[place]? = some true then 1 else 0 := by
  induction bits with
  | nil => simp [polynomial]
  | cons bit rest ih =>
      rw [polynomial, coeff_add, ih, List.reverse_cons, List.getElem?_append, List.length_reverse]
      rcases Nat.lt_trichotomy place rest.length with below | rfl | above
      · cases bit <;> simp [coeff_X_pow, below, below.ne]
      · cases bit <;> simp
      · have beyond : [bit][place - rest.length]? = none := List.getElem?_eq_none (by simp; omega)
        cases bit <;> simp [coeff_X_pow, beyond, above.ne', Nat.not_lt_of_lt above]

theorem polynomial_append (first second : List Bool) :
    polynomial (first ++ second) = polynomial first * X ^ second.length + polynomial second := by
  induction first with
  | nil => simp [polynomial]
  | cons bit rest ih =>
      rw [List.cons_append, polynomial, ih, polynomial, List.length_append, pow_add]
      cases bit with
      | false => simp
      | true =>
          simp only [if_true]
          ring

section

variable {width : Nat}

theorem coeff_lowFirst (word : BitVec width) (place : Nat) :
    (polynomial (lowFirst word)).coeff place =
      if place < width ∧ word.getLsbD (width - 1 - place) = true then 1 else 0 := by
  rw [coeff_polynomial]
  by_cases inside : place < width
  · simp [lowFirst, inside]
  · simp [lowFirst, inside]

theorem degree_lowFirst_lt (word : BitVec width) : (polynomial (lowFirst word)).degree < width := by
  rw [degree_lt_iff_coeff_zero]
  intro place beyond
  rw [coeff_lowFirst, if_neg fun inside => Nat.not_lt_of_le beyond inside.1]

theorem polynomial_xor (left right : BitVec width) :
    polynomial (lowFirst (left ^^^ right)) =
      polynomial (lowFirst left) + polynomial (lowFirst right) := by
  have two : (1 + 1 : ZMod 2) = 0 := by decide
  ext place
  simp only [coeff_add, coeff_lowFirst, BitVec.getLsbD_xor]
  by_cases inside : place < width
  · cases left.getLsbD (width - 1 - place) <;> cases right.getLsbD (width - 1 - place) <;>
      simp [inside, two]
  · simp [inside]

theorem polynomial_setWidth (word : BitVec width) (more : Nat) :
    polynomial (lowFirst (word.setWidth (width + more))) = X ^ more * polynomial (lowFirst word) := by
  ext place
  rw [coeff_X_pow_mul', coeff_lowFirst, coeff_lowFirst, BitVec.getLsbD_setWidth]
  by_cases low : more ≤ place
  · have same : width + more - 1 - place = width - 1 - (place - more) := by omega
    rw [same]
    by_cases inside : place < width + more
    · have within : place - more < width := by omega
      have early : width - 1 - (place - more) < width + more := by omega
      simp [low, inside, within, early]
    · have outside : ¬ place - more < width := by omega
      simp [low, inside, outside]
  · have zero : word.getLsbD (width + more - 1 - place) = false :=
      BitVec.getLsbD_of_ge _ _ (by omega)
    simp [low, zero]

theorem polynomial_ushiftRight (word : BitVec width) (positive : 0 < width) :
    X * polynomial (lowFirst word) =
      (if word.getLsbD 0 then X ^ width else 0) + polynomial (lowFirst (word >>> 1)) := by
  ext place
  have dropped : (if word.getLsbD 0 then X ^ width else 0 : (ZMod 2)[X]).coeff place =
      if place = width ∧ word.getLsbD 0 = true then 1 else 0 := by
    cases word.getLsbD 0 <;> simp [coeff_X_pow]
  rw [coeff_add, dropped, coeff_lowFirst, BitVec.getLsbD_ushiftRight]
  cases place with
  | zero =>
      have top : word.getLsbD (1 + (width - 1 - 0)) = false := BitVec.getLsbD_of_ge _ _ (by omega)
      simp only [mul_coeff_zero, coeff_X_zero, zero_mul, top]
      simp [positive.ne]
  | succ place =>
      rw [coeff_X_mul, coeff_lowFirst]
      rcases Nat.lt_trichotomy (place + 1) width with below | top | above
      · have same : 1 + (width - 1 - (place + 1)) = width - 1 - place := by omega
        have inside : place < width := by omega
        rw [same]
        simp [below, inside, below.ne]
      · have low : width - 1 - place = 0 := by omega
        have inside : place < width := by omega
        rw [low]
        simp [top, inside]
      · have outside : ¬ place < width := by omega
        have beyond : ¬ place + 1 < width := by omega
        simp [outside, beyond, above.ne']

theorem and_one_eq_one_iff (word : BitVec width) (positive : 0 < width) :
    word &&& BitVec.ofNat width 1 = BitVec.ofNat width 1 ↔ word.getLsbD 0 = true := by
  rw [BitVec.and_one_eq_setWidth_ofBool_getLsbD]
  constructor
  · intro one
    have bit := congrArg (fun word => word.getLsbD 0) one
    simpa [positive] using bit
  · intro one
    rw [one]
    apply BitVec.eq_of_toNat_eq
    simp

/-- One bit through a register. What drops out at the top is the head of the generator, so the rest
of the generator is added for it. -/
theorem residue_shift (taps word : BitVec width) (positive : 0 < width) :
    let generator := X ^ width + polynomial (lowFirst taps)
    AdjoinRoot.mk generator
        (polynomial (lowFirst (if word.getLsbD 0 then (word >>> 1) ^^^ taps else word >>> 1))) =
      AdjoinRoot.mk generator (X * polynomial (lowFirst word)) := by
  intro generator
  rw [AdjoinRoot.mk_eq_mk, polynomial_ushiftRight word positive]
  cases word.getLsbD 0 with
  | false => simp
  | true =>
      have difference : polynomial (lowFirst (word >>> 1)) + polynomial (lowFirst taps) -
          (X ^ width + polynomial (lowFirst (word >>> 1))) = generator := by
        rw [CharTwo.sub_eq_add]
        linear_combination CharTwo.add_self_eq_zero (polynomial (lowFirst (word >>> 1)))
      simp only [if_true, polynomial_xor, difference, dvd_refl]

end

section

variable {ρ : Type} {read : ρ → (ZMod 2)[X]} {generator : (ZMod 2)[X]}

theorem residue_repeat {shift : ρ → ρ}
    (shifted : ∀ register, AdjoinRoot.mk generator (read (shift register)) =
      AdjoinRoot.mk generator (X * read register)) (count : Nat) (register : ρ) :
    AdjoinRoot.mk generator (read (Nat.repeat shift count register)) =
      AdjoinRoot.mk generator (X ^ count * read register) := by
  induction count with
  | zero => simp [Nat.repeat]
  | succ count ih =>
      calc
        _ = AdjoinRoot.mk generator X * AdjoinRoot.mk generator (X ^ count * read register) := by
          rw [Nat.repeat, shifted, map_mul, ih]
        _ = AdjoinRoot.mk generator (X ^ (count + 1) * read register) := by
          rw [← map_mul, pow_succ', mul_assoc]

theorem residue_foldl {update : ρ → UInt8 → ρ} {width : Nat}
    (updated : ∀ register byte, AdjoinRoot.mk generator (read (update register byte)) =
      AdjoinRoot.mk generator (polynomial (bitsOf byte) * X ^ width + read register * X ^ 8))
    (bytes : List UInt8) (register : ρ) :
    AdjoinRoot.mk generator (read (bytes.foldl update register)) =
      AdjoinRoot.mk generator (polynomial (bytes.flatMap bitsOf) * X ^ width +
        read register * X ^ (8 * bytes.length)) := by
  induction bytes generalizing register with
  | nil => simp [polynomial]
  | cons byte rest ih =>
      rw [List.foldl_cons, ih, map_add, map_mul _ (read _), updated, ← map_mul, ← map_add,
        List.flatMap_cons, polynomial_append, length_flatMap_bitsOf, List.length_cons]
      congr 1
      ring

theorem eq_modByMonic {reading dividend : (ZMod 2)[X]} (monic : generator.Monic)
    (small : reading.degree < generator.degree)
    (same : AdjoinRoot.mk generator reading = AdjoinRoot.mk generator dividend) :
    reading = dividend %ₘ generator :=
  calc
    reading = reading %ₘ generator := ((modByMonic_eq_self_iff monic).mpr small).symm
    _ = dividend %ₘ generator := modByMonic_eq_of_dvd_sub monic (AdjoinRoot.mk_eq_mk.mp same)

end

namespace Crc8

noncomputable def generator : (ZMod 2)[X] := X ^ 8 + X ^ 5 + X ^ 4 + 1

theorem monic_generator : generator.Monic := by
  unfold generator
  monicity!

theorem degree_generator : generator.degree = 8 := by
  unfold generator
  compute_degree!

theorem generator_eq : generator = X ^ 8 + polynomial (lowFirst 0x8c#8) := by
  have bits : lowFirst 0x8c#8 = [false, false, true, true, false, false, false, true] := by decide
  simp [generator, bits, polynomial, add_assoc]

theorem toBitVec_shift (register : UInt8) :
    (shift register).toBitVec =
      if register.toBitVec.getLsbD 0 then (register.toBitVec >>> 1) ^^^ 0x8c#8
      else register.toBitVec >>> 1 := by
  have low : register &&& 1 = 1 ↔ register.toBitVec.getLsbD 0 = true := by
    rw [← UInt8.toBitVec_inj]
    exact and_one_eq_one_iff register.toBitVec (by decide)
  rw [shift, apply_ite UInt8.toBitVec]
  simp only [low]
  rfl

theorem residue_shifts (count : Nat) (register : UInt8) :
    AdjoinRoot.mk generator (polynomial (bitsOf (Nat.repeat shift count register))) =
      AdjoinRoot.mk generator (X ^ count * polynomial (bitsOf register)) := by
  refine @residue_repeat UInt8 (fun register => polynomial (bitsOf register)) generator shift ?_
    count register
  intro register
  rw [bitsOf_eq_lowFirst, toBitVec_shift, generator_eq]
  exact residue_shift 0x8c#8 register.toBitVec (by decide)

theorem residue_table (start : Fin 256) :
    AdjoinRoot.mk generator (polynomial (bitsOf (table.get start))) =
      AdjoinRoot.mk generator (X ^ 8 * polynomial (bitsOf (UInt8.ofNat start))) := by
  rw [table_get, residue_shifts]

theorem residue_update (register byte : UInt8) :
    AdjoinRoot.mk generator (polynomial (bitsOf (update register byte))) =
      AdjoinRoot.mk generator
        (polynomial (bitsOf byte) * X ^ 8 + polynomial (bitsOf register) * X ^ 8) := by
  have mixed : polynomial (bitsOf (register ^^^ byte)) =
      polynomial (bitsOf register) + polynomial (bitsOf byte) :=
    polynomial_xor register.toBitVec byte.toBitVec
  have entry : UInt8.ofNat (register ^^^ byte).toNat = register ^^^ byte := UInt8.ofNat_toNat
  rw [update, residue_table]
  dsimp only
  rw [entry, mixed]
  congr 1
  ring

theorem eq_remainder {register : UInt8} {dividend : (ZMod 2)[X]}
    (same : AdjoinRoot.mk generator (polynomial (bitsOf register)) =
      AdjoinRoot.mk generator dividend) :
    polynomial (bitsOf register) = dividend %ₘ generator := by
  apply eq_modByMonic monic_generator ?_ same
  rw [degree_generator]
  exact degree_lowFirst_lt register.toBitVec

end Crc8

namespace Crc16

noncomputable def generator : (ZMod 2)[X] := X ^ 16 + X ^ 15 + X ^ 2 + 1

theorem monic_generator : generator.Monic := by
  unfold generator
  monicity!

theorem degree_generator : generator.degree = 16 := by
  unfold generator
  compute_degree!

theorem generator_eq : generator = X ^ 16 + polynomial (lowFirst 0xa001#16) := by
  have bits : lowFirst 0xa001#16 =
      true :: List.replicate 12 false ++ [true, false, true] := by decide
  simp [generator, bits, polynomial, List.replicate, add_assoc]

theorem toBitVec_shift (register : UInt16) :
    (shift register).toBitVec =
      if register.toBitVec.getLsbD 0 then (register.toBitVec >>> 1) ^^^ 0xa001#16
      else register.toBitVec >>> 1 := by
  have low : register &&& 1 = 1 ↔ register.toBitVec.getLsbD 0 = true := by
    rw [← UInt16.toBitVec_inj]
    exact and_one_eq_one_iff register.toBitVec (by decide)
  rw [shift, apply_ite UInt16.toBitVec]
  simp only [low]
  rfl

theorem residue_update (register : UInt16) (byte : UInt8) :
    AdjoinRoot.mk generator (polynomial (lowFirst (update register byte).toBitVec)) =
      AdjoinRoot.mk generator
        (polynomial (bitsOf byte) * X ^ 16 + polynomial (lowFirst register.toBitVec) * X ^ 8) := by
  have mixed : polynomial (lowFirst (register ^^^ byte.toUInt16).toBitVec) =
      polynomial (lowFirst register.toBitVec) + X ^ 8 * polynomial (bitsOf byte) := by
    rw [UInt16.toBitVec_xor, polynomial_xor]
    congr 1
    exact polynomial_setWidth byte.toBitVec 8
  have shifted : ∀ register,
      AdjoinRoot.mk generator (polynomial (lowFirst (shift register).toBitVec)) =
        AdjoinRoot.mk generator (X * polynomial (lowFirst register.toBitVec)) := by
    intro register
    rw [toBitVec_shift, generator_eq]
    exact residue_shift 0xa001#16 register.toBitVec (by decide)
  calc
    _ = AdjoinRoot.mk generator
        (X ^ 8 * polynomial (lowFirst (register ^^^ byte.toUInt16).toBitVec)) :=
      @residue_repeat UInt16 (fun register => polynomial (lowFirst register.toBitVec)) generator
        shift shifted 8 (register ^^^ byte.toUInt16)
    _ = _ := by
      rw [mixed]
      congr 1
      ring

theorem eq_remainder {register : UInt16} {dividend : (ZMod 2)[X]}
    (same : AdjoinRoot.mk generator (polynomial (lowFirst register.toBitVec)) =
      AdjoinRoot.mk generator dividend) :
    polynomial (lowFirst register.toBitVec) = dividend %ₘ generator := by
  apply eq_modByMonic monic_generator ?_ same
  rw [degree_generator]
  exact degree_lowFirst_lt register.toBitVec

end Crc16

theorem registers_eq {ρ : Type} (update : ρ → UInt8 → ρ) (start : ρ) (bytes : List UInt8) :
    start :: registers update start bytes =
      (List.range (bytes.length + 1)).map fun count => (bytes.take count).foldl update start := by
  induction bytes generalizing start with
  | nil => rfl
  | cons byte rest ih =>
      rw [registers, ih, List.length_cons]
      conv_rhs => rw [List.range_succ_eq_map, List.map_cons, List.map_map]
      rfl

/-- CRC-8 is the remainder of the bits sent, with eight zeros behind them; each entry of its table is
that of one byte. CRC-16 is the remainder of the bits sent, with sixteen zeros behind them and the
seed added to the first sixteen. A register holds the checksum of the bytes that it has taken in. -/
theorem checksums_are_remainders (bytes : List UInt8) (seed : UInt16) :
    (polynomial (bitsOf (crc8 bytes)) =
        (polynomial (bytes.flatMap bitsOf) * X ^ 8) %ₘ Crc8.generator ∧
      ∀ start : Fin 256, polynomial (bitsOf (Crc8.table.get start)) =
        (polynomial (bitsOf (UInt8.ofNat start)) * X ^ 8) %ₘ Crc8.generator) ∧
    polynomial (lowFirst (crc16 bytes seed).toBitVec) =
      (polynomial (bytes.flatMap bitsOf) * X ^ 16 +
        polynomial (lowFirst seed.toBitVec) * X ^ (8 * bytes.length)) %ₘ Crc16.generator ∧
    0 :: registers Crc8.update 0 bytes =
      (List.range (bytes.length + 1)).map (fun count => crc8 (bytes.take count)) ∧
    seed :: registers Crc16.update seed bytes =
      (List.range (bytes.length + 1)).map fun count => crc16 (bytes.take count) seed := by
  refine ⟨⟨?_, ?_⟩, ?_, registers_eq Crc8.update 0 bytes, registers_eq Crc16.update seed bytes⟩
  · apply Crc8.eq_remainder
    have folded := @residue_foldl UInt8 (fun register => polynomial (bitsOf register))
      Crc8.generator Crc8.update 8 Crc8.residue_update bytes 0
    have empty : polynomial (bitsOf 0) = 0 := by
      have bits : bitsOf 0 = List.replicate 8 false := by decide
      simp [bits, polynomial, List.replicate]
    rwa [empty, zero_mul, add_zero] at folded
  · intro start
    apply Crc8.eq_remainder
    rw [Crc8.residue_table, mul_comm]
  · apply Crc16.eq_remainder
    exact @residue_foldl UInt16 (fun register => polynomial (lowFirst register.toBitVec))
      Crc16.generator Crc16.update 16 Crc16.residue_update bytes seed

end SingleWire
