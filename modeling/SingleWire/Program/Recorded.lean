import SingleWire.Program

namespace SingleWire

structure Call (interface : Interface) where
  request : interface.Request
  reply : interface.Reply request

structure Recorded (interface : Interface) (σ : Type) where
  layer : σ
  calls : List (Call interface) := []

def Handler.recorded {I : Interface} {σ : Type} (handle : Handler I σ) :
    Handler I (Recorded I σ) := fun request record =>
  match handle request record.layer with
  | (reply, after) => (reply, ⟨after, ⟨request, reply⟩ :: record.calls⟩)

end SingleWire
