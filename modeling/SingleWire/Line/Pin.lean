import SingleWire.Line

namespace SingleWire.Pin

inductive Request
  | setLow
  | setHigh
  | read
  | delay (time : Nat)
  /-- The time in microseconds, from any start. -/
  | clock
  deriving DecidableEq, Repr

def Reply (ε : Type) : Request → Type
  | .setLow | .setHigh => Except ε Unit
  | .read => Except ε Bool
  | .delay _ => Unit
  | .clock => Nat

abbrev interface (ε : Type) : Interface := ⟨Request, Reply ε⟩

def failure {ε : Type} : (request : Request) → Option (ε → Reply ε request)
  | .setLow | .setHigh => some Except.error
  | .read => some Except.error
  | .delay _ | .clock => none

variable {ε : Type}

/-- What each line request does on the pin. There is no driver for a high level, so the line is let
go instead, and the latency is the one that was set. -/
def carry (latency : Nat) :
    (request : Line.Request) → Program (interface ε) (Line.Reply ε request)
  | .driveLow => .ask .setLow .done
  | .release => .ask .setHigh .done
  | .driveHigh => .ask .setHigh .done
  | .sample => .ask .read .done
  | .delay time => .ask (.delay time) .done
  | .latency => .done (.ok latency)

def assumedLatency : Nat := 1

inductive MeasureError (ε : Type)
  | drive (fault : ε)
  | release (fault : ε)
  | read (fault : ε)
  deriving DecidableEq, Repr

def MeasureError.message [ToString ε] : MeasureError ε → String
  | .drive fault => s!"Failed to drive GPIO line: {fault}"
  | .release fault => s!"Failed to release GPIO line: {fault}"
  | .read fault => s!"Failed to read GPIO line: {fault}"

abbrev Measurement (ε α : Type) := ExceptT (MeasureError ε) (Program (interface ε)) α

def setLow : Measurement ε Unit :=
  ExceptT.mk <| .ask .setLow fun reply : Except ε Unit => .done (reply.mapError .drive)

def setHigh : Measurement ε Unit :=
  ExceptT.mk <| .ask .setHigh fun reply : Except ε Unit => .done (reply.mapError .release)

def read : Measurement ε Bool :=
  ExceptT.mk <| .ask .read fun reply : Except ε Bool => .done (reply.mapError .read)

def clock : Measurement ε Nat :=
  ExceptT.mk <| .ask .clock fun time : Nat => .done (.ok time)

def longestLatency : Nat := 0xffffffff

/-- The worst time over the given number of trials from letting the pin go until it has been read. -/
def worstOf : (trials worst : Nat) → Measurement ε Nat
  | 0, worst => pure worst
  | trials + 1, worst => do
      setLow
      let start ← clock
      setHigh
      let _ ← read
      let finish ← clock
      worstOf trials (max worst (finish - start))

/-- The release latency of a pin, rounded up to the next microsecond. -/
def measureLatency : Measurement ε Nat := do
  let worst ← worstOf 16 0
  pure (min (worst + 1) longestLatency)

end SingleWire.Pin
