import SingleWire.Bench.Trace
import SingleWire.Line.Simulated
import SingleWire.Master
import SingleWire.Program.Faulty

namespace SingleWire.Bench

abbrev FaultPlan := List (Nat × LineFault)

abbrev Tested (interface : Interface) (σ : Type) := Recorded interface (Faulty LineFault σ)

structure PinLine where
  pin : Tested (Pin.interface LineFault) ScriptedPin
  /-- The latency that the present line was made with. -/
  latency : Nat
  /-- The latency of lines still to be made. -/
  nextLatency : Nat

inductive World
  | simulated (line : Tested (Line.interface LineFault) SimulatedLine)
  | pin (line : PinLine)
  | scripted (bus : Tested (Bus.interface LineFault) ScriptedBus)

def simulatedLine : Handler (Line.interface LineFault) (Tested (Line.interface LineFault) SimulatedLine) :=
  Handler.recorded (Handler.faulty Line.failure SimulatedLine.answer)

def scriptedPin : Handler (Pin.interface LineFault) (Tested (Pin.interface LineFault) ScriptedPin) :=
  Handler.recorded (Handler.faulty Pin.failure ScriptedPin.answer)

def scriptedBus (bus : ScriptedBus) :
    Handler (Bus.interface LineFault) (Tested (Bus.interface LineFault) ScriptedBus) :=
  let tested := Handler.recorded (Handler.faulty Bus.failure ScriptedBus.answer)
  if bus.triplets.isSome then tested else withTriplets tested

namespace World

variable {α : Type}

def ofLine (line : SimulatedLine) (plan : FaultPlan) : World :=
  .simulated { layer := { layer := line, plan } }

def ofPin (pin : ScriptedPin) (latency : Nat) (plan : FaultPlan) : World :=
  .pin { pin := { layer := { layer := pin, plan } }, latency, nextLatency := latency }

def ofBus (bus : ScriptedBus) (plan : FaultPlan) : World :=
  .scripted { layer := { layer := bus, plan } }

def onLine? (world : World) (program : Program (Line.interface LineFault) α) :
    Option (Outcome World α) :=
  match world with
  | .simulated line =>
      let outcome := program.run simulatedLine line
      some ⟨outcome.value, .simulated outcome.state, outcome.events⟩
  | .pin line =>
      let outcome := (program.through (Pin.carry line.latency)).run scriptedPin line.pin
      some ⟨outcome.value, .pin { line with pin := outcome.state }, outcome.events⟩
  | .scripted _ => none

def onBus? (world : World) (master : Option Master) (program : Program (Bus.interface LineFault) α) :
    Option (Outcome World α) :=
  match world, master with
  | .scripted bus, _ =>
      let outcome := program.run (scriptedBus bus.layer.layer) bus
      some ⟨outcome.value, .scripted outcome.state, outcome.events⟩
  | world, some master => world.onLine? (master.onLine program)
  | _, none => none

/-- A new line takes the latency set for it; a simulated line stays the same. -/
def renewLine : World → World
  | .pin line => .pin { line with latency := line.nextLatency }
  | world => world

def setLatency (time : Nat) : World → World
  | .simulated line =>
      .simulated { line with layer := { line.layer with layer := { line.layer.layer with latency := time } } }
  | .pin line => .pin { line with nextLatency := time }
  | world => world

def line? : World → Option SimulatedLine
  | .simulated line => some line.layer.layer
  | _ => none

def withLine (line : SimulatedLine) : World → World
  | .simulated old => .simulated { old with layer := { old.layer with layer := line } }
  | world => world

def words : World → List String
  | .simulated line => line.calls.reverse.map lineWord
  | .pin line => line.pin.calls.reverse.filterMap pinWord?
  | .scripted bus => bus.calls.reverse.map busWord

def clearRecord : World → World
  | .simulated line => .simulated { line with calls := [] }
  | .pin line => .pin { line with pin := { line.pin with calls := [] } }
  | .scripted bus => .scripted { bus with calls := [] }

end World

end SingleWire.Bench
