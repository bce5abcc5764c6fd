import SingleWire.Program

namespace SingleWire

/-- A layer, the number of calls made that can fail, and the faults by that number. -/
structure Faulty (ε σ : Type) where
  layer : σ
  plan : List (Nat × ε) := []
  made : Nat := 0

def Handler.faulty {I : Interface} {ε σ : Type}
    (failure : (request : I.Request) → Option (ε → I.Reply request)) (handle : Handler I σ) :
    Handler I (Faulty ε σ) := fun request faulty =>
  match failure request with
  | none =>
      match handle request faulty.layer with
      | (reply, after) => (reply, { faulty with layer := after })
  | some fail =>
      match faulty.plan.lookup faulty.made with
      | some fault => (fail fault, { faulty with made := faulty.made + 1 })
      | none =>
          match handle request faulty.layer with
          | (reply, after) => (reply, { faulty with layer := after, made := faulty.made + 1 })

end SingleWire
