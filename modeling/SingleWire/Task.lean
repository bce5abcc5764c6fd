import SingleWire.Program

namespace SingleWire

/-- Why a bus operation fails. `ε` is what the line below reports of its own faults. -/
inductive BusError (ε : Type) where
  | line (fault : ε)
  | noDevicePresent
  | busCollision
  | invalidCrc
  | invalidTiming
  | calibration (latency samplePoint : Nat)
  deriving DecidableEq, Repr

def BusError.message {ε : Type} [ToString ε] : BusError ε → String
  | .line fault => s!"line error: {fault}"
  | .noDevicePresent => "no presence pulse after reset"
  | .busCollision => "no device answered the search slot"
  | .invalidCrc => "CRC mismatch"
  | .invalidTiming => "slot timing outside the 1-Wire limits"
  | .calibration latency samplePoint =>
      s!"line transition latency of {latency} us does not fit before the {samplePoint} us sample point"

abbrev Task (interface : Interface) (ε α : Type) :=
  ExceptT (BusError ε) (Program interface) α

namespace Task

variable {I : Interface} {ε α β : Type}

def emit (event : Event) : Task I ε Unit :=
  ExceptT.lift (Program.emit event)

def forEach (elements : List α) (step : α → Task I ε Unit) : Task I ε Unit :=
  match elements with
  | [] => pure ()
  | element :: rest => do
      step element
      forEach rest step

end Task

end SingleWire
