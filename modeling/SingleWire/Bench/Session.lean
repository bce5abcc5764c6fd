import SingleWire.Bench.World
import SingleWire.Bus.Operation
import SingleWire.Search.Operation

namespace SingleWire.Bench

structure Session where
  world : World
  master : Option Master := none
  search : Search.State := Search.State.fresh .normal
  saved : List (Nat × Search.State) := []
  /-- Events that wait to be reported with the next step. -/
  pending : List Event := []

inductive Step
  | build (timing : Timing)
  | hasMaster
  | bus (operation : Bus.Operation)
  | search (operation : Search.Operation)
  | startSearch (state : Search.State)
  | isExhausted
  | describeSearch
  | save (slot : Nat)
  | load (slot : Nat)
  | isSaved (slot : Nat)
  | line (request : Line.Request)
  | attach (device : Device)
  | stick (low : Bool)
  | setLatency (time : Nat)
  | lastCommands

inductive Answer
  | done
  | noMaster
  | failed (error : BusError LineFault)
  | truth (value : Bool)
  | number (value : Nat)
  | text (value : String)
  | master (timing : Timing)
  | bus (answer : Bus.Answer)
  | search (answer : Search.Answer)
  | rejected (rom : Rom)
  | lastCommands (commands : List (Rom × Option UInt8))

structure Report where
  answer : Answer
  session : Session
  events : List Event

namespace Session

def ofLine (line : SimulatedLine) (devices : List Device) (plan : FaultPlan) : Session :=
  match line.populate devices with
  | (line, events) => { world := World.ofLine line plan, pending := events }

def hasBus (session : Session) : Bool :=
  match session.world with
  | .scripted _ => true
  | _ => session.master.isSome

def report (session : Session) (answer : Answer) : Report := ⟨answer, session, []⟩

def build (session : Session) (timing : Timing) : Report :=
  let dropped := { session with master := none, world := session.world.renewLine }
  match dropped.world.onLine? (Master.build timing).run with
  | none => dropped.report .noMaster
  | some ⟨.ok master, world, events⟩ =>
      ⟨.master master.timing, { dropped with world, master := some master }, events⟩
  | some ⟨.error error, world, events⟩ => ⟨.failed error, { dropped with world }, events⟩

def onBus (session : Session) (operation : Bus.Operation) : Report :=
  match session.world.onBus? session.master operation.task.run with
  | none => session.report .noMaster
  | some ⟨.ok answer, world, events⟩ => ⟨.bus answer, { session with world }, events⟩
  | some ⟨.error error, world, events⟩ => ⟨.failed error, { session with world }, events⟩

def onSearch (session : Session) (operation : Search.Operation) : Report :=
  match session.world.onBus? session.master (operation.task.run.run session.search) with
  | none => session.report .noMaster
  | some ⟨(.ok answer, search), world, events⟩ =>
      ⟨.search answer, { session with world, search }, events⟩
  | some ⟨(.error error, search), world, events⟩ =>
      ⟨.failed error, { session with world, search }, events⟩

def lineAnswer : (request : Line.Request) → Line.Reply LineFault request → Answer
  | .driveLow, reply | .release, reply | .driveHigh, reply =>
      match (reply : Except LineFault Unit) with
      | .ok _ => .done
      | .error fault => .failed (.line fault)
  | .sample, reply =>
      match (reply : Except LineFault Bool) with
      | .ok level => .truth level
      | .error fault => .failed (.line fault)
  | .delay _, _ => .done
  | .latency, reply =>
      match (reply : Except LineFault Nat) with
      | .ok time => .number time
      | .error fault => .failed (.line fault)

def onLine (session : Session) (request : Line.Request) : Report :=
  let world := if session.master.isSome then session.world else session.world.renewLine
  match world.onLine? (.ask request .done) with
  | none => session.report .noMaster
  | some ⟨reply, world, events⟩ => ⟨lineAnswer request reply, { session with world }, events⟩

def aboutSearch (session : Session) (answer : Answer) (after : Session) : Report :=
  if session.hasBus then after.report answer else session.report .noMaster

def attach (session : Session) (device : Device) : Report :=
  match session.world.line? with
  | none => session.report .done
  | some line =>
      match line.attach? device with
      | some grown => { session with world := session.world.withLine grown }.report (.truth true)
      | none => session.report (.rejected device.rom)

def stick (session : Session) (low : Bool) : Report :=
  match session.world.line? with
  | none => session.report .done
  | some line =>
      { session with world := session.world.withLine { line with stuckLow := low } }.report .done

def lastCommands (session : Session) : List (Rom × Option UInt8) :=
  match session.world.line? with
  | none => []
  | some line => line.devices.map fun device => (device.rom, device.lastCommand)

def perform (session : Session) : Step → Report
  | .build timing => session.build timing
  | .hasMaster => session.report (if session.master.isSome then .truth true else .done)
  | .bus operation => session.onBus operation
  | .search operation => session.onSearch operation
  | .startSearch search => session.aboutSearch .done { session with search }
  | .isExhausted => session.aboutSearch (.truth session.search.exhausted) session
  | .describeSearch => session.aboutSearch (.text session.search.text) session
  | .save slot =>
      session.aboutSearch .done { session with saved := (slot, session.search) :: session.saved }
  | .load slot =>
      let search := (session.saved.lookup slot).getD session.search
      session.aboutSearch .done { session with search }
  | .isSaved slot =>
      session.aboutSearch (.truth (session.saved.lookup slot == some session.search)) session
  | .line request => session.onLine request
  | .attach device => session.attach device
  | .stick low => session.stick low
  | .setLatency time =>
      { session with world := session.world.setLatency time }.report .done
  | .lastCommands => session.report (.lastCommands session.lastCommands)

/-- One step with a fresh record; what was pending is reported first. -/
def step (session : Session) (step : Step) : Report :=
  let fresh := { session with world := session.world.clearRecord, pending := [] }
  let report := fresh.perform step
  { report with events := session.pending ++ report.events }

end Session

end SingleWire.Bench
