import SingleWire.Bus
import SingleWire.Line
import SingleWire.Timing

/-!
The master: it makes every slot of the bus by hand on a line. `build` refuses a timing that cannot
work before the line is touched, and `carry` gives each bus request its meaning on the line.
-/

namespace SingleWire

/-- A timing together with the wait from the release of a read slot to its sample. -/
structure Master where
  timing : Timing
  sampleDelay : Nat
  deriving DecidableEq, Repr

namespace Master

variable {ε : Type}

def shortestReset : Nat := 480

def build (timing : Timing) : Task (Line.interface ε) ε Master :=
  if timing.resetLow < shortestReset then do
    Task.emit (.resetTooShort timing.resetLow)
    throw .invalidTiming
  else do
    let latency ← Line.latency
    if timing.samplePoint ≤ latency then do
      Task.emit (.latencyTooLong latency timing.samplePoint)
      throw (.calibration latency timing.samplePoint)
    else do
      Line.release
      Task.emit (.masterReady latency timing.samplePoint)
      pure ⟨timing, timing.samplePoint - latency⟩

/-- Samples up to `polls` times, waiting after each low sample. True once the line is high. -/
def pollIdle (pause : Nat) : (polls : Nat) → Task (Line.interface ε) ε Bool
  | 0 => pure false
  | polls + 1 => do
      let high ← Line.sample
      if high then pure true
      else do
        Line.delay pause
        pollIdle pause polls

def awaitIdle (master : Master) : Task (Line.interface ε) ε Bool := do
  Line.release
  pollIdle master.timing.idlePoll (max master.timing.idlePolls 1)

/-- The reset slot on an idle line: true if a device pulls the line low after it. -/
def resetSlot (master : Master) : Task (Line.interface ε) ε Bool := do
  Line.driveLow
  Line.delay master.timing.resetLow
  Line.release
  Line.delay master.timing.presenceSample
  let high ← Line.sample
  Line.delay master.timing.resetSettle
  Task.emit (.resetDone !high)
  pure !high

def reset (master : Master) : Task (Line.interface ε) ε Bool := do
  let idle ← master.awaitIdle
  if idle then master.resetSlot
  else do
    Task.emit .lineStuckLow
    pure false

def writeSlot (low high : Nat) : Task (Line.interface ε) ε Unit := do
  Line.driveLow
  Line.delay low
  Line.release
  Line.delay high

def writeBit (master : Master) (bit : Bool) : Task (Line.interface ε) ε Unit :=
  if bit then writeSlot master.timing.writeOneLow master.timing.writeOneHigh
  else writeSlot master.timing.writeZeroLow master.timing.writeZeroHigh

def readBit (master : Master) : Task (Line.interface ε) ε Bool := do
  Line.driveLow
  Line.release
  Line.delay master.sampleDelay
  let bit ← Line.sample
  Line.delay master.timing.readRecovery
  pure bit

/-- What each bus request does on the line. -/
def carry (master : Master) :
    (request : Bus.Request) → Program (Line.interface ε) (Bus.Reply ε request)
  | .reset => master.reset.run
  | .writeBit bit => (master.writeBit bit).run
  | .readBit => master.readBit.run
  | .power => Line.driveHigh.run
  | .depower => Line.release.run
  | .triplet direction => (Bus.tripletBy master.readBit master.writeBit direction).run

def onLine {α : Type} (master : Master) (program : Program (Bus.interface ε) α) :
    Program (Line.interface ε) α :=
  program.through master.carry

end Master

end SingleWire
