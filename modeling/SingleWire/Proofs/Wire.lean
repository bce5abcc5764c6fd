import SingleWire.Proofs.Line.Slots

namespace SingleWire

structure Wire where
  devices : List Device
  powered : Bool := false
  resets : Nat := 0
  slots : Nat := 0

namespace Wire

def level (wire : Wire) : Bool :=
  wire.devices.all fun device => device.sending != some false

def slot (wire : Wire) (bit : Bool) : Wire :=
  { wire with
    powered := false
    slots := wire.slots + 1
    devices := wire.devices.map (·.endSlot bit) }

def reset (wire : Wire) : Wire :=
  { wire with
    powered := false
    resets := wire.resets + 1
    devices := wire.devices.map Device.reset }

def triplet (wire : Wire) (direction : Bool) : Triplet × Wire :=
  let bit := wire.level
  let second := wire.slot true
  let complement := second.level
  let third := second.slot true
  if bit && complement then (⟨true, true, true⟩, third)
  else
    let taken := if bit != complement then bit else direction
    (⟨bit, complement, taken⟩, third.slot taken)

def answer {ε : Type} : Handler (Bus.interface ε) Wire
  | .reset, wire => (.ok !wire.devices.isEmpty, wire.reset)
  | .writeBit bit, wire => (.ok (), wire.slot bit)
  | .readBit, wire => (.ok wire.level, wire.slot true)
  | .power, wire => (.ok (), { wire with powered := true })
  | .depower, wire => (.ok (), { wire with powered := false })
  | .triplet direction, wire => (.ok (wire.triplet direction).1, (wire.triplet direction).2)

end Wire

namespace Device

/-- A device without the pull that it may still have on the line. -/
def calm (device : Device) : Device := { device with pullUntil := none }

theorem endSlot_pulling (device : Device) (pull : Option Nat) (bit : Bool) :
    ({ device with pullUntil := pull } : Device).endSlot bit =
      { device.endSlot bit with pullUntil := pull } := by
  obtain ⟨rom, alarm, data, phase, before, lastCommand⟩ := device
  cases phase with
  | idle => rfl
  | search index step =>
      cases step with
      | bit | complement => rfl
      | direction =>
          simp only [endSlot]
          split
          · rfl
          · rfl
  | _ =>
      simp only [endSlot]
      repeat' split
      all_goals rfl

theorem calm_endSlot (device : Device) (bit : Bool) :
    (device.endSlot bit).calm = device.calm.endSlot bit :=
  (endSlot_pulling device none bit).symm

theorem calm_slot (device : Device) (now : Nat) (bit : Bool) :
    ((device.startSlot now).endSlot bit).calm = device.calm.endSlot bit :=
  calm_endSlot (device.startSlot now) bit

end Device

namespace SimulatedLine

def wire (line : SimulatedLine) : Wire :=
  ⟨line.devices.map Device.calm, line.powered, line.resets, line.slots⟩

/-- What can be seen of a device apart from its timing is the same on the untimed bus. -/
theorem map_wire {α : Type} (line : SimulatedLine) {view : Device → α}
    (untimed : ∀ device, view device.calm = view device) :
    line.wire.devices.map view = line.devices.map view := by
  rw [wire, List.map_map]
  exact List.map_congr_left fun device _ => untimed device

theorem wire_ne_nil {line : SimulatedLine} (present : line.devices ≠ []) : line.wire.devices ≠ [] :=
  fun none => present (List.map_eq_nil_iff.mp none)

theorem slots_wire (line : SimulatedLine) : line.wire.slots = line.slots := rfl

theorem resets_wire (line : SimulatedLine) : line.wire.resets = line.resets := rfl

theorem wire_slot (line : SimulatedLine) (bit : Bool) (length : Nat) :
    (line.slot bit length).wire = line.wire.slot bit := by
  simp only [wire, slot, Wire.slot, List.map_map, Function.comp_def, Device.calm_slot]

theorem level_wire (line : SimulatedLine) : line.wire.level = line.level := by
  simp only [wire, Wire.level, level, List.all_map]
  rfl

theorem wire_reset (line : SimulatedLine) (first second : Nat) :
    ((line.wait first).endReset.wait second).wire = line.wire.reset := by
  simp only [wire, wait, endReset, Wire.reset, List.map_map]
  rfl

end SimulatedLine

end SingleWire
