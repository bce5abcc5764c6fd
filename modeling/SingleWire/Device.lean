import SingleWire.Rom
import SingleWire.RomCommand

namespace SingleWire

inductive SearchStep
  | bit
  | complement
  | direction
  deriving DecidableEq, Repr

inductive Phase
  /-- Silent until the next reset. -/
  | idle
  /-- Receiving a command: the bits so far and how many there are. -/
  | romCommand (byte : UInt8) (count : Nat)
  | search (index : Nat) (step : SearchStep)
  | matchRom (index : Nat)
  | sendRom (index : Nat)
  | functionCommand (byte : UInt8) (count : Nat)
  | sendData (position : Nat)
  deriving DecidableEq, Repr

structure Device where
  rom : Rom
  alarm : Bool := false
  data : List UInt8 := []
  phase : Phase := .idle
  /-- The device holds the line low before this time. -/
  pullUntil : Option Nat := none
  lastCommand : Option UInt8 := none
  deriving DecidableEq, Repr

namespace Device

def dataCapacity : Nat := 32

/-- How long a device holds the line low to send a zero. -/
def zeroLow : Nat := 30

/-- Where the position in the data stops counting. -/
def lastPosition : Nat := 65535

def withData (device : Device) (data : List UInt8) : Device :=
  { device with data := data.take dataCapacity }

def dataBit (device : Device) (position : Nat) : Bool :=
  match device.data[position / 8]? with
  | some byte => byte.toBitVec.getLsbD (position % 8)
  | none => true

/-- The bit that the device sends in the next slot, if it sends one. -/
def sending (device : Device) : Option Bool :=
  match device.phase with
  | .search index .bit => some (device.rom.bit index)
  | .search index .complement => some (!device.rom.bit index)
  | .sendRom index => some (device.rom.bit index)
  | .sendData position => some (device.dataBit position)
  | _ => none

def startSlot (device : Device) (now : Nat) : Device :=
  { device with
    pullUntil := if device.sending = some false then some (now + zeroLow) else none }

def reset (device : Device) : Device :=
  { device with pullUntil := none, phase := .romCommand 0 0 }

def addBit (byte : UInt8) (count : Nat) (bit : Bool) : UInt8 :=
  if bit then byte ||| (1 <<< UInt8.ofNat count) else byte

def obey (device : Device) (command : UInt8) : Phase :=
  if command = RomCommand.search then .search 0 .bit
  else if command = RomCommand.alarmSearch then
    if device.alarm then .search 0 .bit else .idle
  else if command = RomCommand.matchRom then .matchRom 0
  else if command = RomCommand.skipRom then .functionCommand 0 0
  else if command = RomCommand.readRom then .sendRom 0
  else .idle

/-- The end of a slot in which the line carried the given bit. -/
def endSlot (device : Device) (bit : Bool) : Device :=
  match device.phase with
  | .idle => device
  | .romCommand byte count =>
      let received := addBit byte count bit
      if count < 7 then { device with phase := .romCommand received (count + 1) }
      else { device with phase := device.obey received }
  | .search index .bit => { device with phase := .search index .complement }
  | .search index .complement => { device with phase := .search index .direction }
  | .search index .direction =>
      if bit ≠ device.rom.bit index ∨ index = 63 then { device with phase := .idle }
      else { device with phase := .search (index + 1) .bit }
  | .matchRom index =>
      if bit ≠ device.rom.bit index then { device with phase := .idle }
      else if index = 63 then { device with phase := .functionCommand 0 0 }
      else { device with phase := .matchRom (index + 1) }
  | .sendRom index =>
      if index = 63 then { device with phase := .idle }
      else { device with phase := .sendRom (index + 1) }
  | .functionCommand byte count =>
      let received := addBit byte count bit
      if count < 7 then { device with phase := .functionCommand received (count + 1) }
      else { device with phase := .sendData 0, lastCommand := some received }
  | .sendData position =>
      { device with phase := .sendData (min (position + 1) lastPosition) }

def pulls (device : Device) (now : Nat) : Bool :=
  match device.pullUntil with
  | some limit => decide (now < limit)
  | none => false

end Device

end SingleWire
