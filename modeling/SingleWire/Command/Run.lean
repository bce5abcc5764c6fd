import SingleWire.Command.Arguments
import SingleWire.Line.Pin
import SingleWire.Line.Simulated
import SingleWire.Master
import SingleWire.Search.Pass

namespace SingleWire.Command

inductive Failure (ε : Type)
  | bus (error : BusError ε)
  | absent (rom : Rom)
  | crowded (rom : Rom)
  | chipUnavailable (path : String)
  deriving DecidableEq, Repr

def Failure.message {ε : Type} [ToString ε] : Failure ε → String
  | .bus error => "1-Wire bus error: " ++ error.message
  | .absent rom => rom.text ++ " is not on the bus"
  | .crowded rom => "At most 16 simulated devices, " ++ rom.text ++ " not attached"
  | .chipUnavailable path => "Failed to open GPIO chip " ++ path

inductive Ending (ε : Type)
  | done
  | failed (failure : Failure ε)
  /-- The search ran out of passes. -/
  | unfinished
  deriving DecidableEq, Repr

structure Report (ε : Type) where
  output : String
  ending : Ending ε
  deriving DecidableEq, Repr

variable {ε : Type}

def Report.success (output : String) : Report ε := ⟨output, .done⟩

def Report.failure (failure : Failure ε) : Report ε := ⟨"", .failed failure⟩

/-- The codes behind those found, which stand in reverse, until the search ends or fails. -/
def listDevices : (passes : Nat) → (found : List Rom) →
    StateT Search.State (Program (Bus.interface ε)) (List Rom × Ending ε)
  | 0, found => pure (found.reverse, .unfinished)
  | passes + 1, found => do
      let outcome ← (Search.next : SearchTask ε (Option Rom)).run
      match outcome with
      | .ok (some rom) => listDevices passes (rom :: found)
      | .ok none => pure (found.reverse, .done)
      | .error error => pure (found.reverse, .failed (.bus error))

def codeLine (rom : Rom) : String := rom.text ++ "\n"

def scanStart (family : Option UInt8) (alarm : Bool) : Search.State :=
  let kind := if alarm then Search.Kind.alarmed else Search.Kind.normal
  match family with
  | some family => Search.State.ofFamily kind family
  | none => Search.State.fresh kind

def scanBus (family : Option UInt8) (alarm : Bool) : Program (Bus.interface ε) (Report ε) := do
  let ((found, ending), _) ← (listDevices Search.passLimit []).run (scanStart family alarm)
  match ending with
  | .done => Program.emit (.scanDone found.length)
  | _ => pure ()
  pure ⟨String.join (found.map codeLine), ending⟩

def verifyOnBus (rom : Rom) : Program (Bus.interface ε) (Report ε) := do
  let (outcome, _) ← (Search.verify rom : SearchTask ε Bool).run.run (Search.State.fresh .normal)
  match outcome with
  | .ok true => pure (Report.success (rom.text ++ " present\n"))
  | .ok false => pure (Report.failure (.absent rom))
  | .error error => pure (Report.failure (.bus error))

def readOnBus : Program (Bus.interface ε) (Report ε) := do
  let outcome ← (Bus.readRom : Task (Bus.interface ε) ε Rom).run
  match outcome with
  | .ok rom => pure (Report.success (codeLine rom))
  | .error error => pure (Report.failure (.bus error))

def onBus : Command → Program (Bus.interface ε) (Report ε)
  | .scan family alarm => scanBus family alarm
  | .verify rom => verifyOnBus rom
  | .readRom => readOnBus

/-- Carries a command out on a line, with a standard timing but for the sample point. -/
def onLine (samplePoint : Nat) (command : Command) : Program (Line.interface ε) (Report ε) := do
  let timing := Timing.standard.set (.samplePoint samplePoint)
  let outcome ← (Master.build timing : Task (Line.interface ε) ε Master).run
  match outcome with
  | .ok master => master.onLine command.onBus
  | .error error => pure (Report.failure (.bus error))

def simulatedCapacity : Nat := 16

/-- Attaches a device for each code behind those already on the line, or names the first code that
finds no room. -/
def attachAll (line : SimulatedLine) : List Rom → Except Rom SimulatedLine × List Event
  | [] => (.ok line, [])
  | rom :: rest =>
      let doubts := if rom.isValid then [] else [Event.simulatedCorrupt rom]
      match line.attach? { rom } with
      | none => (.error rom, doubts)
      | some grown =>
          let (outcome, events) := attachAll grown rest
          (outcome, doubts ++ events)

def simulatedBus (roms : List Rom) : Except Rom SimulatedLine × List Event :=
  attachAll { capacity := simulatedCapacity } roms

def onSimulated (roms : List Rom) (samplePoint : Nat) (command : Command) : Report ε × List Event :=
  match simulatedBus roms with
  | (.error rom, events) => (Report.failure (.crowded rom), events)
  | (.ok line, events) =>
      let outcome := (command.onLine samplePoint).run SimulatedLine.answer line
      (outcome.value, events ++ outcome.events)

end SingleWire.Command
