import Mathlib.Data.Fintype.Basic
import SingleWire.Proofs.Bytes
import SingleWire.Proofs.RomOrder

namespace SingleWire

namespace Crc8

theorem table_get (start : Fin 256) : table.get start = Nat.repeat shift 8 (UInt8.ofNat start) := by
  change (Vector.ofFn fun start : Fin 256 => Nat.repeat shift 8 (UInt8.ofNat start))[start.val] = _
  rw [Vector.getElem_ofFn]

theorem table_eq_zero_iff (start : Fin 256) : table.get start = 0 ↔ start = 0 := by
  rw [table_get]
  revert start
  decide +kernel

theorem update_eq_zero_iff (register byte : UInt8) : update register byte = 0 ↔ byte = register := by
  rw [update, table_eq_zero_iff]
  constructor
  · intro zero
    have same : register ^^^ byte = 0 := UInt8.toNat_inj.mp (congrArg Fin.val zero)
    exact (UInt8.xor_eq_zero_iff.mp same).symm
  · rintro rfl
    exact Fin.ext (congrArg UInt8.toNat (UInt8.xor_self))

theorem isValid_append_iff (bytes : List UInt8) (byte : UInt8) :
    isValid (bytes ++ [byte]) = true ↔ byte = crc8 bytes := by
  have folded : crc8 (bytes ++ [byte]) = update (crc8 bytes) byte := by
    rw [crc8, List.foldl_append]
    rfl
  simp [isValid, folded, update_eq_zero_iff]

end Crc8

namespace Rom

theorem serial_lt (rom : Rom) : rom.serial < 256 ^ 6 :=
  Nat.mod_lt _ (by decide)

theorem bytes_eq_fields (rom : Rom) :
    rom.bytes = rom.family :: toBytes 6 rom.serial ++ [rom.checksum] := by
  have serial : toBytes 6 rom.serial = toBytes 6 (rom.code.toNat / 256) := toBytes_mod 6 _
  have last : rom.code.toNat / 256 / 256 ^ 6 % 256 = rom.code.toNat / 0x100000000000000 := by
    have small : rom.code.toNat < 2 ^ 64 := rom.code.isLt
    omega
  rw [bytes, toBytes, toBytes_succ 6, last, ← serial]
  rfl

theorem bytes_make (family : UInt8) (serial : Nat) :
    (make family serial).bytes =
      family :: toBytes 6 serial ++ [crc8 (family :: toBytes 6 serial)] := by
  rw [make, bytes_ofBytes _ (by simp)]

theorem isValid_iff_checksum (rom : Rom) :
    rom.isValid = true ↔ rom.checksum = crc8 (rom.family :: toBytes 6 rom.serial) := by
  rw [isValid, bytes_eq_fields, Crc8.isValid_append_iff]

section

variable (family : UInt8) (serial : Nat)

theorem isValid_make : (make family serial).isValid = true := by
  rw [isValid, bytes_make, Crc8.isValid_append_iff]

theorem family_make : (make family serial).family = family := by
  have same := (bytes_eq_fields (make family serial)).symm.trans (bytes_make family serial)
  exact (List.cons.inj same).1

theorem serial_make : (make family serial).serial = serial % 2 ^ 48 := by
  have same := (bytes_eq_fields (make family serial)).symm.trans (bytes_make family serial)
  have middle := (List.append_inj (List.cons.inj same).2 (by simp)).1
  calc
    (make family serial).serial = (make family serial).serial % 256 ^ 6 :=
      (Nat.mod_eq_of_lt (serial_lt _)).symm
    _ = SingleWire.ofBytes (toBytes 6 (make family serial).serial) := (ofBytes_toBytes 6 _).symm
    _ = SingleWire.ofBytes (toBytes 6 serial) := congrArg _ middle
    _ = serial % 2 ^ 48 := ofBytes_toBytes 6 serial

end

theorem make_fields {rom : Rom} (valid : rom.isValid = true) : make rom.family rom.serial = rom := by
  have whole : (make rom.family rom.serial).bytes = rom.bytes := by
    rw [bytes_make, bytes_eq_fields rom, (isValid_iff_checksum rom).mp valid]
  rw [← ofBytes_bytes (make rom.family rom.serial), whole, ofBytes_bytes]

section

variable {left right : Rom}

theorem eq_of_fields (valid : left.isValid = true) (other : right.isValid = true)
    (family : left.family = right.family) (serial : left.serial = right.serial) : left = right := by
  rw [← make_fields valid, ← make_fields other, family, serial]

theorem toNat_mod_of_agrees {count : Nat} (same : left.agrees right count) :
    left.code.toNat % 2 ^ count = right.code.toNat % 2 ^ count := by
  apply Nat.eq_of_testBit_eq
  intro place
  rw [Nat.testBit_mod_two_pow, Nat.testBit_mod_two_pow, BitVec.testBit_toNat, BitVec.testBit_toNat]
  by_cases inside : place < count
  · rw [show left.code.getLsbD place = right.code.getLsbD place from same place inside]
  · simp [inside]

theorem eq_of_isValid (valid : left.isValid = true) (other : right.isValid = true)
    (same : left.agrees right 56) : left = right := by
  have serial : ∀ rom : Rom, rom.serial = rom.code.toNat % 2 ^ 56 / 256 := by
    intro rom
    rw [Rom.serial]
    omega
  apply eq_of_fields valid other (family_eq_iff.mpr (same.mono (by decide)))
  rw [serial, serial, toNat_mod_of_agrees same]

end

/-- A sequence is valid exactly if its last byte is the checksum of those before it. So a code built
from its fields is valid and has them, with 48 bits of the serial number, each valid code is built
from its own, and valid codes with the same fields are the same. -/
theorem valid_codes_built_from_fields :
    (∀ (bytes : List UInt8) (byte : UInt8),
      Crc8.isValid (bytes ++ [byte]) = true ↔ byte = crc8 bytes) ∧
    (∀ (family : UInt8) (serial : Nat), (make family serial).isValid = true ∧
      (make family serial).family = family ∧ (make family serial).serial = serial % 2 ^ 48) ∧
    (∀ rom : Rom, rom.isValid = true ↔ rom = make rom.family rom.serial) ∧
    ∀ left right : Rom, left.isValid = true → right.isValid = true →
      left.family = right.family → left.serial = right.serial → left = right := by
  refine ⟨Crc8.isValid_append_iff, ?_, ?_, ?_⟩
  · intro family serial
    exact ⟨isValid_make family serial, family_make family serial, serial_make family serial⟩
  · intro rom
    constructor
    · intro valid
      exact (make_fields valid).symm
    · intro made
      rw [made]
      exact isValid_make _ _
  · intro left right valid other family serial
    exact eq_of_fields valid other family serial

theorem valid_codes_built_from_fields_wide_serial :
    make 0x02 0xffff00000001b81c = ⟨0xa200000001b81c02⟩ := by
  apply valid_codes_built_from_fields.2.2.2 _ _ (isValid_make _ _)
  · decide +kernel
  · rw [family_make]
    decide
  · rw [serial_make]
    decide

end Rom

end SingleWire
