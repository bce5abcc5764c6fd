import Mathlib.Data.Fintype.Basic
import SingleWire.Proofs.Bytes
import SingleWire.Proofs.Wire

namespace SingleWire

namespace Device

@[simp] theorem rom_endSlot (device : Device) (bit : Bool) : (device.endSlot bit).rom = device.rom := by
  obtain ⟨phase, lastCommand, same⟩ := endSlot_frame device bit
  rw [same]

theorem endSlot_idle {device : Device} (idle : device.phase = .idle) (bit : Bool) :
    device.endSlot bit = device := by
  rw [endSlot, idle]

theorem foldl_endSlot_idle {device : Device} (idle : device.phase = .idle) (bits : List Bool) :
    bits.foldl endSlot device = device := by
  induction bits with
  | nil => rfl
  | cons bit rest ih => rw [List.foldl_cons, endSlot_idle idle, ih]

theorem endSlot_romCommand (device : Device) (byte : UInt8) (count : Nat) (bit : Bool) :
    { device with phase := .romCommand byte count }.endSlot bit =
      if count < 7 then { device with phase := .romCommand (addBit byte count bit) (count + 1) }
      else { device with phase := device.obey (addBit byte count bit) } := rfl

theorem endSlot_functionCommand (device : Device) (byte : UInt8) (count : Nat) (bit : Bool) :
    { device with phase := .functionCommand byte count }.endSlot bit =
      if count < 7 then
        { device with phase := .functionCommand (addBit byte count bit) (count + 1) }
      else
        { device with phase := .sendData 0, lastCommand := some (addBit byte count bit) } := rfl

def received (byte : UInt8) : (count : Nat) → UInt8
  | 0 => 0
  | count + 1 => addBit (received byte count) count (byte.toBitVec.getLsbD count)

theorem received_whole (byte : UInt8) : received byte 8 = byte := by
  cases byte with
  | ofBitVec byte =>
      cases byte with
      | ofFin byte =>
          revert byte
          decide +kernel

theorem foldl_endSlot_collecting {device : Device} (collecting : UInt8 → Nat → Phase)
    (complete : UInt8 → Device)
    (step : ∀ byte count bit, { device with phase := collecting byte count }.endSlot bit =
      if count < 7 then { device with phase := collecting (addBit byte count bit) (count + 1) }
      else complete (addBit byte count bit))
    (waiting : device.phase = collecting 0 0) (byte : UInt8) :
    (bitsOf byte).foldl endSlot device = complete byte := by
  have begun : ∀ count ≤ 7,
      (List.range count).foldl (fun before place => before.endSlot (byte.toBitVec.getLsbD place))
        device = { device with phase := collecting (received byte count) count } := by
    intro count within
    induction count with
    | zero => simp [received, ← waiting]
    | succ count ih =>
        rw [List.range_succ, List.foldl_append, ih (by omega)]
        have early : count < 7 := by omega
        simp only [List.foldl_cons, List.foldl_nil, step, early, if_true, received]
  have whole : addBit (received byte 7) 7 (byte.toBitVec.getLsbD 7) = byte := received_whole byte
  rw [bitsOf, List.foldl_map, List.range_succ, List.foldl_append, begun 7 (Nat.le_refl 7)]
  simp only [List.foldl_cons, List.foldl_nil, step, whole, Nat.lt_irrefl, if_false]

theorem foldl_endSlot_bitsOf {device : Device} (waiting : device.phase = .romCommand 0 0)
    (byte : UInt8) :
    (bitsOf byte).foldl endSlot device = { device with phase := device.obey byte } :=
  foldl_endSlot_collecting .romCommand (fun byte => { device with phase := device.obey byte })
    (endSlot_romCommand device) waiting byte

theorem foldl_endSlot_command {device : Device} (addressed : device.phase = .functionCommand 0 0)
    (command : UInt8) :
    (bitsOf command).foldl endSlot device =
      { device with phase := .sendData 0, lastCommand := some command } :=
  foldl_endSlot_collecting .functionCommand
    (fun byte => { device with phase := .sendData 0, lastCommand := some byte })
    (endSlot_functionCommand device) addressed command

/-- The device after so many read slots. -/
def afterReads (device : Device) : (count : Nat) → Device
  | 0 => device
  | count + 1 => (device.afterReads count).endSlot true

theorem afterReads_idle {device : Device} (idle : device.phase = .idle) (count : Nat) :
    device.afterReads count = device := by
  induction count with
  | zero => rfl
  | succ count ih => rw [afterReads, ih, endSlot_idle idle]

end Device

namespace Wire

variable {ε : Type} {wire : Wire}

def natures (wire : Wire) : List Device := wire.devices.map Device.nature

theorem natures_slot (wire : Wire) (bit : Bool) : (wire.slot bit).natures = wire.natures := by
  simp [natures, slot]

theorem natures_reset (wire : Wire) : wire.reset.natures = wire.natures := by
  simp [natures, reset]

theorem natures_foldl_slot (bits : List Bool) (wire : Wire) :
    (bits.foldl slot wire).natures = wire.natures := by
  induction bits generalizing wire with
  | nil => rfl
  | cons bit rest ih => rw [List.foldl_cons, ih, natures_slot]

theorem mem_slot {bit : Bool} {device : Device} (member : device ∈ (wire.slot bit).devices) :
    ∃ before ∈ wire.devices, before.endSlot bit = device :=
  List.mem_map.mp member

theorem eval_demandPresence (wire : Wire) :
    Task.eval answer (Bus.demandPresence : Task (Bus.interface ε) ε Unit) wire =
      (if wire.devices.isEmpty then .error .noDevicePresent else .ok (), wire.reset) := by
  have reset : Task.eval (answer (ε := ε)) Bus.reset wire = (.ok !wire.devices.isEmpty, wire.reset) :=
    rfl
  rw [Bus.demandPresence, Task.eval_bind, reset]
  cases wire.devices.isEmpty <;> rfl

theorem eval_demandPresence_present (present : wire.devices ≠ []) :
    Task.eval answer (Bus.demandPresence : Task (Bus.interface ε) ε Unit) wire =
      (.ok (), wire.reset) := by
  rw [eval_demandPresence, List.isEmpty_eq_false_iff.mpr present]
  rfl

theorem eval_writeBits (bits : List Bool) (wire : Wire) :
    Task.eval answer (Bus.writeBits bits : Task (Bus.interface ε) ε Unit) wire =
      (.ok (), bits.foldl slot wire) := by
  induction bits generalizing wire with
  | nil => rfl
  | cons bit rest ih => exact ih (wire.slot bit)

theorem foldl_slot (bits : List Bool) (wire : Wire) :
    (bits.foldl slot wire).devices = wire.devices.map (fun device => bits.foldl Device.endSlot device) ∧
      (bits.foldl slot wire).slots = wire.slots + bits.length ∧
      (bits.foldl slot wire).resets = wire.resets := by
  induction bits generalizing wire with
  | nil => simp
  | cons bit rest ih =>
      obtain ⟨devices, slots, resets⟩ := ih (wire.slot bit)
      simp only [List.foldl_cons, devices, slots, resets]
      simp [slot, Nat.add_assoc, Nat.add_comm 1]

theorem eval_writeByte (byte : UInt8) (wire : Wire) :
    Task.eval answer (Bus.writeByte byte : Task (Bus.interface ε) ε Unit) wire =
      (.ok (), (bitsOf byte).foldl slot wire) := by
  rw [Bus.writeByte, Task.eval_bind, eval_writeBits]
  rfl

theorem eval_writeBytes (bytes : List UInt8) (wire : Wire) :
    Task.eval answer (Bus.writeBytes bytes : Task (Bus.interface ε) ε Unit) wire =
      (.ok (), (bytes.flatMap bitsOf).foldl slot wire) := by
  induction bytes generalizing wire with
  | nil => rfl
  | cons byte rest ih =>
      rw [Bus.writeBytes, Task.forEach, Task.eval_bind, eval_writeByte, List.flatMap_cons,
        List.foldl_append]
      exact ih ((bitsOf byte).foldl slot wire)

def afterReads (wire : Wire) : (count : Nat) → Wire
  | 0 => wire
  | count + 1 => (wire.afterReads count).slot true

theorem afterReads_afterReads (wire : Wire) (first second : Nat) :
    (wire.afterReads first).afterReads second = wire.afterReads (first + second) := by
  induction second with
  | zero => rfl
  | succ second ih => rw [afterReads, ih, ← Nat.add_assoc, afterReads]

theorem devices_afterReads (wire : Wire) (count : Nat) :
    (wire.afterReads count).devices = wire.devices.map fun device => device.afterReads count := by
  induction count with
  | zero => simp [afterReads, Device.afterReads]
  | succ count ih => simp [afterReads, slot, ih, Device.afterReads]

theorem counts_afterReads (wire : Wire) (count : Nat) :
    (wire.afterReads count).slots = wire.slots + count ∧
      (wire.afterReads count).resets = wire.resets := by
  induction count with
  | zero => exact ⟨rfl, rfl⟩
  | succ count ih => exact ⟨congrArg (· + 1) ih.1, ih.2⟩

theorem level_afterReads (wire : Wire) (count : Nat) :
    (wire.afterReads count).level =
      wire.devices.all fun device => (device.afterReads count).sending != some false := by
  rw [level, devices_afterReads, List.all_map]
  rfl

theorem eval_readBits (count : Nat) (wire : Wire) :
    Task.eval answer (Bus.readBits count : Task (Bus.interface ε) ε (List Bool)) wire =
      (.ok ((List.range count).map fun index => (wire.afterReads index).level),
        wire.afterReads count) := by
  induction count generalizing wire with
  | zero => rfl
  | succ count ih =>
      have read : Task.eval (answer (ε := ε)) Bus.readBit wire = (.ok wire.level, wire.slot true) :=
        rfl
      have later : ∀ index, (wire.slot true).afterReads index = wire.afterReads (index + 1) := by
        intro index
        rw [Nat.add_comm]
        exact afterReads_afterReads wire 1 index
      simp only [Bus.readBits, Task.eval_bind, read, ih, Task.eval_pure, later,
        List.range_succ_eq_map, List.map_cons, List.map_map]
      rfl

def byteAt (wire : Wire) (index : Nat) : UInt8 :=
  byteOf ((List.range 8).map fun place => (wire.afterReads (8 * index + place)).level)

theorem eval_readByte (wire : Wire) (index : Nat) :
    Task.eval answer (Bus.readByte : Task (Bus.interface ε) ε UInt8) (wire.afterReads (8 * index)) =
      (.ok (wire.byteAt index), wire.afterReads (8 * (index + 1))) := by
  rw [Bus.readByte, Task.eval_bind, eval_readBits]
  simp only [Task.eval_pure, afterReads_afterReads]
  rfl

theorem eval_readBytes (count : Nat) (wire : Wire) :
    Task.eval answer (Bus.readBytes count : Task (Bus.interface ε) ε (List UInt8)) wire =
      (.ok ((List.range count).map wire.byteAt), wire.afterReads (8 * count)) := by
  have after : ∀ (count first : Nat) (read : List UInt8),
      Task.eval (answer (ε := ε)) (Bus.readBytesAfter count read) (wire.afterReads (8 * first)) =
        (.ok (read.reverse ++ (List.range' first count).map wire.byteAt),
          wire.afterReads (8 * (first + count))) := by
    intro count
    induction count with
    | zero =>
        intro first read
        simp [Bus.readBytesAfter]
    | succ count ih =>
        intro first read
        rw [Bus.readBytesAfter, Task.eval_bind, eval_readByte]
        dsimp only
        rw [ih (first + 1), List.range'_succ]
        simp [Nat.add_assoc, Nat.add_comm 1]
  have whole := after count 0 []
  rw [← List.range_eq_range', Nat.zero_add] at whole
  exact whole

end Wire

end SingleWire
