import SingleWire.Device
import SingleWire.Line

/-!
A line in virtual time with devices on it. The line is low while the master, a presence pulse or a
device pulls it; letting go of it ends a reset or a slot, according to how long it was low.
-/

namespace SingleWire

structure SimulatedLine where
  capacity : Nat := 16
  devices : List Device := []
  now : Nat := 0
  /-- When the master pulled the line low, while it does. -/
  fellAt : Option Nat := none
  /-- The presence pulse holds the line low from the first time until before the second. -/
  presence : Option (Nat × Nat) := none
  powered : Bool := false
  stuckLow : Bool := false
  latency : Nat := 1
  resets : Nat := 0
  slots : Nat := 0
  deriving DecidableEq, Repr

namespace SimulatedLine

/-- The shortest low time that is a reset. -/
def resetLow : Nat := 480

def zeroLow : Nat := 15

def presenceStart : Nat := 15

def presenceEnd : Nat := 135

def attach? (line : SimulatedLine) (device : Device) : Option SimulatedLine :=
  if line.devices.length < line.capacity then
    some { line with devices := line.devices ++ [device] }
  else none

/-- Attaches devices in order and drops those that do not fit. -/
def populate (line : SimulatedLine) : List Device → SimulatedLine × List Event
  | [] => (line, [])
  | device :: rest =>
      match line.attach? device with
      | some grown => grown.populate rest
      | none =>
          let (full, events) := line.populate rest
          (full, .attachmentRefused device.rom :: events)

def pull (line : SimulatedLine) : SimulatedLine :=
  match line.fellAt with
  | some _ => { line with powered := false }
  | none =>
      { line with
        powered := false
        fellAt := some line.now
        devices := line.devices.map (·.startSlot line.now) }

/-- The end of a low time that was long enough for a reset. -/
def endReset (line : SimulatedLine) : SimulatedLine :=
  { line with
    powered := false
    fellAt := none
    resets := line.resets + 1
    presence :=
      if line.devices.isEmpty then none
      else some (line.now + presenceStart, line.now + presenceEnd)
    devices := line.devices.map Device.reset }

def endSlot (line : SimulatedLine) (bit : Bool) : SimulatedLine :=
  { line with
    powered := false
    fellAt := none
    slots := line.slots + 1
    devices := line.devices.map (·.endSlot bit) }

def letGo (line : SimulatedLine) : SimulatedLine :=
  match line.fellAt with
  | none => { line with powered := false }
  | some fell =>
      let low := line.now - fell
      if resetLow ≤ low then line.endReset else line.endSlot (low < zeroLow)

def drive (line : SimulatedLine) : SimulatedLine :=
  { line.letGo with powered := true }

def wait (line : SimulatedLine) (time : Nat) : SimulatedLine :=
  { line with now := line.now + time }

def inPresence (line : SimulatedLine) : Bool :=
  match line.presence with
  | some (start, finish) => decide (start ≤ line.now) && decide (line.now < finish)
  | none => false

def isLow (line : SimulatedLine) : Bool :=
  line.stuckLow || line.fellAt.isSome || line.inPresence || line.devices.any (·.pulls line.now)

/-- The line answers its driver and has no faults of its own. -/
def answer {ε : Type} : Handler (Line.interface ε) SimulatedLine
  | .driveLow, line => (.ok (), line.pull)
  | .release, line => (.ok (), line.letGo)
  | .driveHigh, line => (.ok (), line.drive)
  | .sample, line => (.ok (!line.isLow), line)
  | .delay time, line => ((), line.wait time)
  | .latency, line => (.ok line.latency, line)

end SimulatedLine

end SingleWire
