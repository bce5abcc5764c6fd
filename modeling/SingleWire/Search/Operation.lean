import SingleWire.Search.Pass

namespace SingleWire.Search

inductive Operation
  | next
  | verify (rom : Rom)
  | enumerate (capacity : Nat)
  | target (family : UInt8)
  | skipFamily
  | reset
  deriving DecidableEq, Repr

inductive Answer
  | done
  | found (rom : Option Rom)
  | present (answer : Bool)
  /-- Nothing if the search ran out of passes. -/
  | listed (roms : Option (List Rom))
  deriving DecidableEq, Repr

def Operation.task {ε : Type} : Operation → SearchTask ε Answer
  | .next => .found <$> Search.next
  | .verify rom => .present <$> Search.verify rom
  | .enumerate capacity => .listed <$> Search.enumerate capacity
  | .target family => (fun _ => .done) <$> (modify (·.target family) : SearchTask ε PUnit)
  | .skipFamily => (fun _ => .done) <$> (modify State.skipFamily : SearchTask ε PUnit)
  | .reset => (fun _ => .done) <$> (modify State.reset : SearchTask ε PUnit)

end SingleWire.Search
