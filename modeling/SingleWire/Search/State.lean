import SingleWire.Bus
import SingleWire.Rom.Text
import SingleWire.RomCommand

/-!
Where a search stands between two passes. It does not hold the bus, so it can be kept, copied and
resumed.
-/

namespace SingleWire.Search

inductive Kind
  | normal
  /-- Only devices that have an alarm take part. -/
  | alarmed
  deriving DecidableEq, Repr

def Kind.command : Kind → UInt8
  | .normal => RomCommand.search
  | .alarmed => RomCommand.alarmSearch

/-- Bits are numbered from one here; a discrepancy of zero means that there was none. -/
structure State where
  kind : Kind
  exhausted : Bool := false
  /-- The last bit at which the latest pass took the zero branch of two. -/
  discrepancy : Nat := 0
  /-- The same among the eight bits of the family. -/
  familyDiscrepancy : Nat := 0
  /-- The family searched for; zero, which is no family, searches all. -/
  family : UInt8 := 0
  rom : Rom := Rom.zero
  deriving DecidableEq, Repr

namespace State

def fresh (kind : Kind) : State := { kind }

def reset (state : State) : State := fresh state.kind

/-- Only devices of one family. The first pass is led to the lowest of them. -/
def target (state : State) (family : UInt8) : State :=
  { fresh state.kind with
    discrepancy := 64
    family
    rom := Rom.ofBytes [family, 0, 0, 0, 0, 0, 0, 0] }

def ofFamily (kind : Kind) (family : UInt8) : State :=
  (fresh kind).target family

def restart (state : State) : State :=
  if state.family = 0 then state.reset else state.target state.family

def toward (state : State) (rom : Rom) : State :=
  { fresh state.kind with discrepancy := 64, rom }

/-- Leaves out the rest of the family found last. -/
def skipFamily (state : State) : State :=
  { state with
    discrepancy := state.familyDiscrepancy
    familyDiscrepancy := 0
    family := 0
    exhausted := state.exhausted || state.familyDiscrepancy == 0 }

/-- The branch to take where devices differ at the bit after `index` others: before the last
discrepancy the one taken by the pass before, at it the one branch, behind it the zero branch. -/
def direction (state : State) (index : Nat) : Bool :=
  if index + 1 < state.discrepancy then state.rom.bit index
  else index + 1 == state.discrepancy

/-- The bit taken goes into the code at once, and so does a zero branch among the family bits. -/
def follow (state : State) (index : Nat) (triplet : Triplet) : State :=
  { state with
    rom := state.rom.setBit index triplet.taken
    familyDiscrepancy :=
      if triplet.leavesOne && decide (index < 8) then index + 1 else state.familyDiscrepancy }

def conclude (state : State) (lastZero : Nat) : State :=
  { state with discrepancy := lastZero, exhausted := lastZero == 0 }

def text (state : State) : String :=
  let rom := ", ".intercalate (state.rom.bytes.map toString)
  "OneWireSearch \x7b state: SearchState \x7b cmd: " ++ toString state.kind.command ++
    ", last_device: " ++ toString state.exhausted ++
    ", last_discrepancy: " ++ toString state.discrepancy ++
    ", last_family_discrepancy: " ++ toString state.familyDiscrepancy ++
    ", family: " ++ toString state.family ++
    ", rom: [" ++ rom ++ "] \x7d \x7d"

end State

end SingleWire.Search
