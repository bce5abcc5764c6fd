import Mathlib.Data.Nat.Bitwise
import SingleWire.Bus.Transfer

namespace SingleWire

theorem ofBytes_lt (bytes : List UInt8) : ofBytes bytes < 256 ^ bytes.length := by
  induction bytes with
  | nil => simp [ofBytes]
  | cons byte rest ih =>
      have small : byte.toNat < 256 := byte.toNat_lt
      simp only [ofBytes, List.length_cons, Nat.pow_succ]
      omega

theorem ofBytes_toBytes (width value : Nat) : ofBytes (toBytes width value) = value % 256 ^ width := by
  induction width generalizing value with
  | zero => simp [toBytes, ofBytes, Nat.mod_one]
  | succ width ih =>
      have small : value % 256 % 256 = value % 256 := Nat.mod_mod _ _
      simp only [toBytes, ofBytes, ih, UInt8.toNat_ofNat', Nat.reducePow, small]
      rw [Nat.pow_succ, Nat.mul_comm (256 ^ width), Nat.mod_mul]

theorem toBytes_succ (width value : Nat) :
    toBytes (width + 1) value = toBytes width value ++ [UInt8.ofNat (value / 256 ^ width % 256)] := by
  induction width generalizing value with
  | zero => simp [toBytes]
  | succ width ih =>
      rw [toBytes, ih (value / 256), Nat.div_div_eq_div_mul, ← Nat.pow_succ', toBytes,
        List.cons_append]

theorem toBytes_mod (width value : Nat) : toBytes width (value % 256 ^ width) = toBytes width value := by
  have inverse := toBytes_ofBytes (toBytes width value)
  rw [length_toBytes, ofBytes_toBytes] at inverse
  exact inverse

theorem toBytes_eq_map (width value : Nat) :
    toBytes width value =
      (List.range width).map fun index => UInt8.ofNat (value / 256 ^ index % 256) := by
  induction width with
  | zero => rfl
  | succ width ih => rw [toBytes_succ, ih, List.range_succ, List.map_append, List.map_singleton]

theorem getLsbD_byte (value index place : Nat) (inside : place < 8) :
    (UInt8.ofNat (value / 256 ^ index % 256)).toBitVec.getLsbD place =
      value.testBit (8 * index + place) := by
  have shifted : value / 256 ^ index % 256 = value / 2 ^ (8 * index) % 2 ^ 8 := by
    simp [Nat.pow_mul]
  rw [shifted, UInt8.toBitVec_ofNat', BitVec.getLsbD_ofNat, Nat.testBit_mod_two_pow,
    Nat.testBit_div_two_pow]
  simp [inside, Nat.add_comm]

theorem bitsOf_byte (value index : Nat) :
    bitsOf (UInt8.ofNat (value / 256 ^ index % 256)) =
      (List.range 8).map fun place => value.testBit (8 * index + place) := by
  apply List.map_congr_left
  intro place member
  exact getLsbD_byte value index place (List.mem_range.mp member)

theorem byteOf_range {byte : UInt8} {bit : Nat → Bool}
    (same : ∀ place < 8, bit place = byte.toBitVec.getLsbD place) :
    byteOf ((List.range 8).map bit) = byte := by
  have bits : (List.range 8).map bit = bitsOf byte :=
    List.map_congr_left fun place member => same place (List.mem_range.mp member)
  rw [bits, byteOf_bitsOf]

namespace Rom

theorem ofBytes_bytes (rom : Rom) : ofBytes rom.bytes = rom := by
  have small : rom.code.toNat < 256 ^ 8 := rom.code.isLt
  rw [ofBytes, bytes, SingleWire.ofBytes_toBytes, Nat.mod_eq_of_lt small, BitVec.ofNat_toNat,
    BitVec.setWidth_eq]

theorem bytes_ofBytes (bytes : List UInt8) (eight : bytes.length = 8) :
    (ofBytes bytes).bytes = bytes := by
  have bound := ofBytes_lt bytes
  rw [eight] at bound
  have small : SingleWire.ofBytes bytes < 2 ^ 64 := bound
  have back := toBytes_ofBytes bytes
  rw [eight] at back
  simp only [ofBytes, Rom.bytes, BitVec.toNat_ofNat]
  rw [Nat.mod_eq_of_lt small, back]

theorem bytes_eq_map (rom : Rom) :
    rom.bytes =
      (List.range 8).map fun index => UInt8.ofNat (rom.code.toNat / 256 ^ index % 256) :=
  toBytes_eq_map 8 rom.code.toNat

theorem flatMap_bitsOf_bytes (rom : Rom) :
    rom.bytes.flatMap bitsOf = (List.range 64).map rom.bit := by
  rw [bytes_eq_map, List.flatMap_map]
  simp only [bitsOf_byte]
  rfl

theorem ofBytes_range {rom : Rom} {bit : Nat → Bool} (same : ∀ index < 64, bit index = rom.bit index) :
    ofBytes ((List.range 8).map fun index =>
      byteOf ((List.range 8).map fun place => bit (8 * index + place))) = rom := by
  have bytes : (List.range 8).map (fun index =>
      byteOf ((List.range 8).map fun place => bit (8 * index + place))) = rom.bytes := by
    rw [bytes_eq_map]
    apply List.map_congr_left
    intro index member
    have inside : index < 8 := List.mem_range.mp member
    apply byteOf_range
    intro place within
    rw [same (8 * index + place) (by omega), getLsbD_byte _ index place within]
    rfl
  rw [bytes, ofBytes_bytes]

end Rom

end SingleWire
