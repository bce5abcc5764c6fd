import SingleWire.Task

namespace SingleWire

/-- What a search triplet read and wrote. Two ones mean that no device answered. -/
structure Triplet where
  bit : Bool
  complement : Bool
  taken : Bool
  deriving DecidableEq, Repr

def Triplet.isUnanswered (triplet : Triplet) : Bool :=
  triplet.bit && triplet.complement

def Triplet.leavesOne (triplet : Triplet) : Bool :=
  !triplet.bit && !triplet.complement && !triplet.taken

namespace Bus

inductive Request
  | reset
  | writeBit (bit : Bool)
  | readBit
  | power
  | depower
  | triplet (direction : Bool)
  deriving DecidableEq, Repr

def Reply (ε : Type) : Request → Type
  | .reset | .readBit => Except (BusError ε) Bool
  | .writeBit _ | .power | .depower => Except (BusError ε) Unit
  | .triplet _ => Except (BusError ε) Triplet

abbrev interface (ε : Type) : Interface := ⟨Request, Reply ε⟩

def failure {ε : Type} : (request : Request) → Option (ε → Reply ε request)
  | .reset | .readBit => some fun fault => .error (.line fault)
  | .writeBit _ | .power | .depower => some fun fault => .error (.line fault)
  | .triplet _ => some fun fault => .error (.line fault)

variable {ε : Type}

/-- True if a device answered with a presence pulse. -/
def reset : Task (interface ε) ε Bool := ExceptT.mk (.ask .reset .done)

def writeBit (bit : Bool) : Task (interface ε) ε Unit := ExceptT.mk (.ask (.writeBit bit) .done)

def readBit : Task (interface ε) ε Bool := ExceptT.mk (.ask .readBit .done)

def power : Task (interface ε) ε Unit := ExceptT.mk (.ask .power .done)

def depower : Task (interface ε) ε Unit := ExceptT.mk (.ask .depower .done)

def triplet (direction : Bool) : Task (interface ε) ε Triplet :=
  ExceptT.mk (.ask (.triplet direction) .done)

/-- Reads a bit and its complement, then writes the bit that was read, or the direction where both
were zero. After two ones nothing is written. -/
def tripletBy {m : Type → Type} [Monad m] (readBit : m Bool) (writeBit : Bool → m Unit)
    (direction : Bool) : m Triplet := do
  let bit ← readBit
  let complement ← readBit
  if bit && complement then
    pure ⟨true, true, true⟩
  else
    let taken := if bit != complement then bit else direction
    writeBit taken
    pure ⟨bit, complement, taken⟩

end Bus

end SingleWire
