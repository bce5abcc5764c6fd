import SingleWire.Bus
import SingleWire.Line.Pin

namespace SingleWire.Bench

structure LineFault where
  code : Nat
  deriving DecidableEq, Repr

instance : ToString LineFault := ⟨fun fault => s!"LineFault({fault.code})"⟩

structure Script (α : Type) where
  entries : List α := []
  rest : α

def Script.next {α : Type} (script : Script α) : α × Script α :=
  match script.entries with
  | [] => (script.rest, script)
  | entry :: entries => (entry, { script with entries })

abbrev ScriptedPin := Script Bool

/-- Its clock stands still. -/
def ScriptedPin.answer {ε : Type} : Handler (Pin.interface ε) ScriptedPin
  | .setLow, pin => (.ok (), pin)
  | .setHigh, pin => (.ok (), pin)
  | .read, pin =>
      match pin.next with
      | (level, after) => (.ok level, after)
  | .delay _, pin => ((), pin)
  | .clock, pin => ((0 : Nat), pin)

structure ScriptedBus where
  resets : Script Bool
  bits : Script Bool
  /-- Triplets are made of single bits where there is no script for them. -/
  triplets : Option (Script Triplet) := none

def ScriptedBus.answer {ε : Type} : Handler (Bus.interface ε) ScriptedBus
  | .reset, bus =>
      match bus.resets.next with
      | (present, after) => (.ok present, { bus with resets := after })
  | .writeBit _, bus => (.ok (), bus)
  | .readBit, bus =>
      match bus.bits.next with
      | (bit, after) => (.ok bit, { bus with bits := after })
  | .power, bus => (.ok (), bus)
  | .depower, bus => (.ok (), bus)
  | .triplet _, bus =>
      match bus.triplets with
      | some script =>
          match script.next with
          | (triplet, after) => (.ok triplet, { bus with triplets := some after })
      | none => (.ok ⟨true, true, true⟩, bus)

def withTriplets {ε σ : Type} (handle : Handler (Bus.interface ε) σ) :
    Handler (Bus.interface ε) σ
  | .triplet direction, state =>
      let outcome := (Bus.tripletBy Bus.readBit Bus.writeBit direction).run.run handle state
      (outcome.value, outcome.state)
  | request, state => handle request state

end SingleWire.Bench
