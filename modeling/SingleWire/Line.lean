import SingleWire.Task

namespace SingleWire

namespace Line

inductive Request
  | driveLow
  | release
  | driveHigh
  | sample
  | delay (time : Nat)
  | latency
  deriving DecidableEq, Repr

def Reply (ε : Type) : Request → Type
  | .driveLow | .release | .driveHigh => Except ε Unit
  | .sample => Except ε Bool
  | .delay _ => Unit
  | .latency => Except ε Nat

abbrev interface (ε : Type) : Interface := ⟨Request, Reply ε⟩

/-- How a request replies that it failed, if it can. -/
def failure {ε : Type} : (request : Request) → Option (ε → Reply ε request)
  | .driveLow | .release | .driveHigh => some Except.error
  | .sample => some Except.error
  | .delay _ => none
  | .latency => some Except.error

variable {ε : Type}

def driveLow : Task (interface ε) ε Unit :=
  ExceptT.mk <| .ask .driveLow fun reply : Except ε Unit => .done (reply.mapError .line)

def release : Task (interface ε) ε Unit :=
  ExceptT.mk <| .ask .release fun reply : Except ε Unit => .done (reply.mapError .line)

def driveHigh : Task (interface ε) ε Unit :=
  ExceptT.mk <| .ask .driveHigh fun reply : Except ε Unit => .done (reply.mapError .line)

def sample : Task (interface ε) ε Bool :=
  ExceptT.mk <| .ask .sample fun reply : Except ε Bool => .done (reply.mapError .line)

def delay (time : Nat) : Task (interface ε) ε Unit :=
  ExceptT.mk <| .ask (.delay time) fun _ => .done (.ok ())

def latency : Task (interface ε) ε Nat :=
  ExceptT.mk <| .ask .latency fun reply : Except ε Nat => .done (reply.mapError .line)

end Line

end SingleWire
