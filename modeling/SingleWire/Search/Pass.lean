import SingleWire.Bus.Transfer
import SingleWire.Search.State

/-!
The search itself: one pass over the 64 bits finds one device, and the state it leaves leads the
next pass to the next one.
-/

namespace SingleWire

/-- Tasks that move a search on. The state they leave stays when they fail. -/
abbrev SearchTask (ε α : Type) :=
  ExceptT (BusError ε) (StateT Search.State (Program (Bus.interface ε))) α

namespace Search

variable {ε α : Type}

def onBus (task : Task (Bus.interface ε) ε α) : SearchTask ε α :=
  ExceptT.mk (StateT.lift task.run)

def emit (event : Event) : SearchTask ε Unit :=
  onBus (Task.emit event)

def attempt (task : SearchTask ε α) : SearchTask ε (Except (BusError ε) α) :=
  ExceptT.lift task.run

/-- One bit of a pass; carries on the last bit at which the zero branch of two was taken. -/
def visit (lastZero index : Nat) : SearchTask ε Nat := do
  let state ← get
  let triplet ← onBus (Bus.triplet (state.direction index))
  if triplet.isUnanswered then throw .busCollision
  else do
    set (state.follow index triplet)
    pure (if triplet.leavesOne then index + 1 else lastZero)

def pass : SearchTask ε Rom := do
  onBus Bus.demandPresence
  let start ← get
  onBus (Bus.writeByte start.kind.command)
  let lastZero ← (List.range 64).foldlM visit 0
  modify (·.conclude lastZero)
  let state ← get
  emit (.passDone state.discrepancy state.familyDiscrepancy)
  pure state.rom

def judge (rom : Rom) : SearchTask ε (Option Rom) := do
  let state ← get
  if rom.family = 0 then do
    set state.restart
    pure none
  else if !rom.isValid then do
    emit (.searchFoundCorrupt rom)
    throw .invalidCrc
  else if state.family ≠ 0 ∧ rom.family ≠ state.family then do
    set { state with exhausted := true }
    pure none
  else do
    emit (.searchFound rom)
    pure (some rom)

/-- The next device. An exhausted search leaves the bus alone; a bus without an answer ends the
search and starts it over; after a corrupt code the search goes on behind it. -/
def next : SearchTask ε (Option Rom) := do
  let state ← get
  if state.exhausted then pure none
  else do
    let outcome ← attempt pass
    match outcome with
    | .ok rom => judge rom
    | .error .noDevicePresent => do
        emit .searchFoundNoPresence
        modify State.restart
        pure none
    | .error .busCollision => do
        emit .searchUnanswered
        modify State.restart
        pure none
    | .error error => throw error

def verify (rom : Rom) : SearchTask ε Bool := do
  modify (·.toward rom)
  let outcome ← attempt next
  modify State.reset
  match outcome with
  | .ok found => pure (found == some rom)
  | .error error => throw error

/-- Collects up to `room` codes behind those found, which stand in reverse, and passes over corrupt
ones. `none` if the search has not ended after the given number of passes. -/
def collect : (passes room : Nat) → (found : List Rom) → SearchTask ε (Option (List Rom))
  | _, 0, found => pure (some found.reverse)
  | 0, _ + 1, _ => pure none
  | passes + 1, room + 1, found => do
      let outcome ← attempt next
      match outcome with
      | .ok (some rom) => collect passes room (rom :: found)
      | .ok none => pure (some found.reverse)
      | .error .invalidCrc => collect passes (room + 1) found
      | .error error => throw error

/-- More passes than any run makes: one pass takes hundreds of slots. -/
def passLimit : Nat := 0x10000000000000000

def enumerate (capacity : Nat) : SearchTask ε (Option (List Rom)) := do
  modify State.restart
  collect passLimit capacity []

end Search

end SingleWire
