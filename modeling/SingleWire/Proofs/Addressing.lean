import SingleWire.Proofs.Overflow
import SingleWire.Proofs.RomOrder

namespace SingleWire

variable {ε : Type} {line : SimulatedLine} {master : Master}

def wiredAnd {width : Nat} (words : List (BitVec width)) : BitVec width :=
  words.foldr (· &&& ·) (BitVec.allOnes width)

theorem getLsbD_wiredAnd {width index : Nat} (inside : index < width) (words : List (BitVec width)) :
    (wiredAnd words).getLsbD index = words.all fun word => word.getLsbD index := by
  induction words with
  | nil => simp [wiredAnd, inside]
  | cons word rest ih =>
      rw [wiredAnd, List.foldr_cons, BitVec.getLsbD_and, List.all_cons, ← ih]
      rfl

namespace Bus

/-- The target is the code of the device, or all devices. -/
def names (target : Option Rom) (device : Device) : Bool :=
  target.all fun rom => device.rom == rom

/-- Addresses devices, sends them a function command and reads what they answer. -/
def query (target : Option Rom) (command : UInt8) (count : Nat) :
    Task (interface ε) ε (List UInt8) := do
  address target
  writeByte command
  readBytes count

def addressBits : Option Rom → List Bool
  | some rom => bitsOf RomCommand.matchRom ++ (List.range 64).map rom.bit
  | none => bitsOf RomCommand.skipRom

theorem beginsWithReset_query (target : Option Rom) (command : UInt8) (count : Nat) :
    BeginsWithReset (query (ε := ε) target command count).run := by
  cases target <;> rfl

end Bus

namespace Device

def dataByte (device : Device) (index : Nat) : UInt8 := device.data[index]?.getD 0xff

def asked (device : Device) (target : Option Rom) (command : UInt8) : Device :=
  if Bus.names target device then
    { device.reset with phase := .sendData 0, lastCommand := some command }
  else { device.reset with phase := .idle }

theorem endSlot_matchRom (device : Device) (index : Nat) (bit : Bool) :
    { device with phase := .matchRom index }.endSlot bit =
      { device with
        phase :=
          if bit ≠ device.rom.bit index then .idle
          else if index = 63 then .functionCommand 0 0 else .matchRom (index + 1) } := by
  simp only [endSlot]
  split
  · rfl
  split <;> rfl

theorem foldl_endSlot_match {device : Device} (matching : device.phase = .matchRom 0) (rom : Rom)
    {count : Nat} (within : count ≤ 64) :
    ((List.range count).map rom.bit).foldl endSlot device =
      { device with
        phase :=
          if device.rom.agrees rom count then
            if count = 64 then .functionCommand 0 0 else .matchRom count
          else .idle } := by
  induction count with
  | zero =>
      have all : device.rom.agrees rom 0 := fun index inside => absurd inside (Nat.not_lt_zero index)
      simp [all, ← matching]
  | succ count ih =>
      have earlier : count ≠ 64 := by omega
      rw [List.range_succ, List.map_append, List.foldl_append, ih (by omega), if_neg earlier]
      by_cases before : device.rom.agrees rom count
      · rw [if_pos before, List.map_singleton, List.foldl_cons, List.foldl_nil, endSlot_matchRom]
        by_cases here : device.rom.bit count = rom.bit count
        · have both : device.rom.agrees rom (count + 1) := Rom.agrees_succ_iff.mpr ⟨before, here⟩
          simp [both, here]
        · have dropped : ¬ device.rom.agrees rom (count + 1) := fun both =>
            here (Rom.agrees_succ_iff.mp both).2
          simp [dropped, Ne.symm here]
      · have dropped : ¬ device.rom.agrees rom (count + 1) := fun both =>
          before (both.mono (Nat.le_succ count))
        rw [if_neg before, if_neg dropped]
        exact foldl_endSlot_idle rfl ([count].map rom.bit)

theorem foldl_endSlot_address (device : Device) (target : Option Rom) :
    (Bus.addressBits target).foldl endSlot device.reset =
      { device.reset with
        phase := if Bus.names target device then .functionCommand 0 0 else .idle } := by
  cases target with
  | none => exact @foldl_endSlot_bitsOf device.reset rfl RomCommand.skipRom
  | some rom =>
      rw [Bus.addressBits, List.foldl_append, foldl_endSlot_bitsOf (by rfl),
        foldl_endSlot_match (by rfl) rom (Nat.le_refl 64)]
      have same : device.rom.agrees rom 64 ↔ device.rom = rom :=
        ⟨Rom.eq_of_agrees, fun equal index _ => by rw [equal]⟩
      simp [Bus.names, reset, same]

theorem foldl_endSlot_asked (device : Device) (target : Option Rom) (command : UInt8) :
    (Bus.addressBits target ++ bitsOf command).foldl endSlot device.reset =
      device.asked target command := by
  rw [List.foldl_append, foldl_endSlot_address, asked]
  cases Bus.names target device with
  | false => exact foldl_endSlot_idle rfl (bitsOf command)
  | true => exact foldl_endSlot_command rfl command

theorem afterReads_sendData {device : Device} (sending : device.phase = .sendData 0) (count : Nat) :
    device.afterReads count = { device with phase := .sendData (min count lastPosition) } := by
  induction count with
  | zero => simp [afterReads, ← sending]
  | succ count ih =>
      have next : min (min count lastPosition + 1) lastPosition = min (count + 1) lastPosition := by
        omega
      rw [afterReads, ih, endSlot]
      simp only [next]

theorem sending_asked (device : Device) (target : Option Rom) (command : UInt8) (count : Nat) :
    ((device.asked target command).afterReads count).sending =
      if Bus.names target device then some (device.dataBit (min count lastPosition)) else none := by
  rw [asked]
  cases Bus.names target device with
  | false =>
      simp only [Bool.false_eq_true, if_false]
      rw [afterReads_idle rfl, sending]
  | true =>
      simp only [if_true]
      rw [afterReads_sendData rfl, sending]
      rfl

theorem lastCommand_asked (device : Device) (target : Option Rom) (command : UInt8) (count : Nat) :
    ((device.asked target command).afterReads count).lastCommand =
      if Bus.names target device then some command else device.lastCommand := by
  rw [asked]
  cases Bus.names target device with
  | false =>
      simp only [Bool.false_eq_true, if_false]
      rw [afterReads_idle rfl]
      rfl
  | true =>
      simp only [if_true]
      rw [afterReads_sendData rfl]

theorem ones_getLsbD {place : Nat} (inside : place < 8) :
    (0xff : UInt8).toBitVec.getLsbD place = true := by
  revert place
  decide

/-- The position stops far behind the longest data block, so no byte is sent twice. -/
theorem dataBit_eq {device : Device} (fits : device.data.length ≤ dataCapacity) {index place : Nat}
    (inside : place < 8) :
    device.dataBit (min (8 * index + place) lastPosition) =
      (device.dataByte index).toBitVec.getLsbD place := by
  by_cases early : 8 * index + place ≤ lastPosition
  · have byte : (8 * index + place) / 8 = index := by omega
    have bit : (8 * index + place) % 8 = place := by omega
    rw [Nat.min_eq_left early, dataBit, byte, bit, dataByte]
    cases device.data[index]? with
    | some byte => rfl
    | none => exact (ones_getLsbD inside).symm
  · have capacity : dataCapacity = 32 := rfl
    have last : lastPosition = 65535 := rfl
    have beyond : device.data[index]? = none := List.getElem?_eq_none_iff.mpr (by omega)
    have end_beyond : device.data[lastPosition / 8]? = none :=
      List.getElem?_eq_none_iff.mpr (by omega)
    rw [Nat.min_eq_right (by omega), dataBit, end_beyond, dataByte, beyond]
    exact (ones_getLsbD inside).symm

end Device

namespace Wire

variable {wire : Wire} (target : Option Rom) (command : UInt8)

theorem eval_address (present : wire.devices ≠ []) :
    Task.eval answer (Bus.address target : Task (Bus.interface ε) ε Unit) wire =
      (.ok (), (Bus.addressBits target).foldl slot wire.reset) := by
  cases target with
  | none =>
      rw [Bus.address, Task.eval_bind, eval_demandPresence_present present]
      exact eval_writeByte RomCommand.skipRom wire.reset
  | some rom =>
      rw [Bus.address, Task.eval_bind, eval_demandPresence_present present]
      simp only [Bus.select, Task.eval_bind, eval_writeByte, eval_writeBytes,
        Rom.flatMap_bitsOf_bytes, Bus.addressBits, List.foldl_append]

theorem devices_asked (wire : Wire) :
    ((Bus.addressBits target ++ bitsOf command).foldl slot wire.reset).devices =
      wire.devices.map fun device => device.asked target command := by
  rw [(foldl_slot _ wire.reset).1, Wire.reset, List.map_map]
  apply List.map_congr_left
  intro device _
  exact device.foldl_endSlot_asked target command

section

variable {devices : List Device}
  (asked : wire.devices = devices.map fun device => device.asked target command)
include asked

theorem level_asked (index : Nat) :
    (wire.afterReads index).level =
      (devices.filter (Bus.names target)).all fun device =>
        device.dataBit (min index Device.lastPosition) := by
  rw [level_afterReads, asked, List.all_map, List.all_filter]
  apply List.all_congr rfl
  intro device
  rw [Function.comp_apply, Device.sending_asked]
  cases Bus.names target device with
  | false => rfl
  | true => cases device.dataBit (min index Device.lastPosition) <;> rfl

theorem byteAt_asked (fits : ∀ device ∈ devices, device.data.length ≤ Device.dataCapacity)
    (index : Nat) :
    wire.byteAt index =
      UInt8.ofBitVec (wiredAnd ((devices.filter (Bus.names target)).map fun device =>
        (device.dataByte index).toBitVec)) := by
  apply byteOf_range
  intro place inside
  rw [level_asked target command asked, getLsbD_wiredAnd inside, List.all_map]
  apply Bool.eq_iff_iff.mpr
  simp only [List.all_eq_true, Function.comp_apply]
  apply forall₂_congr
  intro device member
  rw [Device.dataBit_eq (fits device (List.mem_filter.mp member).1) inside]

end

theorem eval_query (present : wire.devices ≠ [])
    (fits : ∀ device ∈ wire.devices, device.data.length ≤ Device.dataCapacity) (count : Nat) :
    ∃ after, Task.eval (answer (ε := ε)) (Bus.query target command count) wire =
        (.ok ((List.range count).map fun index =>
          UInt8.ofBitVec (wiredAnd ((wire.devices.filter (Bus.names target)).map fun device =>
            (device.dataByte index).toBitVec))), after) ∧
      (after.devices = wire.devices.map fun device =>
        (device.asked target command).afterReads (8 * count)) ∧
      after.slots = wire.slots + ((Bus.addressBits target).length + 8 + 8 * count) ∧
      after.resets = wire.resets + 1 := by
  let opened := (Bus.addressBits target ++ bitsOf command).foldl slot wire.reset
  have asked : opened.devices = wire.devices.map fun device => device.asked target command :=
    devices_asked target command wire
  have opened_counts := (foldl_slot (Bus.addressBits target ++ bitsOf command) wire.reset).2
  have counts := opened.counts_afterReads (8 * count)
  refine ⟨opened.afterReads (8 * count), ?_, ?_, ?_, counts.2.trans opened_counts.2⟩
  · simp only [Bus.query, Task.eval_bind, eval_address target present, eval_writeByte,
      eval_readBytes, ← List.foldl_append]
    simp only [← byteAt_asked target command asked fits]
    rfl
  · rw [devices_afterReads, asked, List.map_map]
    rfl
  · have byte : (bitsOf command).length = 8 := rfl
    have written : opened.slots = wire.slots + ((Bus.addressBits target).length + 8) := by
      rw [← byte, ← List.length_append]
      exact opened_counts.1
    rw [counts.1, written, Nat.add_assoc]

end Wire

theorem Master.Drives.fits (drives : master.Drives line) : line.Fits :=
  drives.wellFormed.fits

namespace Bus

end Bus

end SingleWire
