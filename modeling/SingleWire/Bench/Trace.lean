import SingleWire.Bench.Script
import SingleWire.Program.Recorded

namespace SingleWire.Bench

def bitText (bit : Bool) : String :=
  if bit then "1" else "0"

def LineFault.mark (fault : LineFault) : String :=
  s!"!{fault.code}"

def shown {α : Type} (text : α → String) : Except LineFault α → String
  | .ok value => text value
  | .error fault => fault.mark

def busShown {α : Type} (text : α → String) : Except (BusError LineFault) α → String
  | .error (.line fault) => fault.mark
  | .error _ => "!"
  | .ok value => text value

def lineWord : Call (Line.interface LineFault) → String
  | ⟨.driveLow, reply⟩ => shown (fun _ : Unit => "L") reply
  | ⟨.release, reply⟩ => shown (fun _ : Unit => "H") reply
  | ⟨.driveHigh, reply⟩ => shown (fun _ : Unit => "P") reply
  | ⟨.sample, reply⟩ => shown (fun level : Bool => "?" ++ bitText level) reply
  | ⟨.delay time, _⟩ => s!"d{time}"
  | ⟨.latency, reply⟩ => shown (fun time : Nat => s!"lat{time}") reply

def pinWord? : Call (Pin.interface LineFault) → Option String
  | ⟨.setLow, reply⟩ => some (shown (fun _ : Unit => "L") reply)
  | ⟨.setHigh, reply⟩ => some (shown (fun _ : Unit => "H") reply)
  | ⟨.read, reply⟩ => some (shown (fun level : Bool => "?" ++ bitText level) reply)
  | ⟨.delay time, _⟩ => some s!"d{time}"
  | ⟨.clock, _⟩ => none

def busWord : Call (Bus.interface LineFault) → String
  | ⟨.reset, reply⟩ => busShown (fun present : Bool => "R" ++ bitText present) reply
  | ⟨.writeBit bit, reply⟩ => busShown (fun _ : Unit => "w" ++ bitText bit) reply
  | ⟨.readBit, reply⟩ => busShown (fun bit : Bool => "r" ++ bitText bit) reply
  | ⟨.power, reply⟩ => busShown (fun _ : Unit => "P") reply
  | ⟨.depower, reply⟩ => busShown (fun _ : Unit => "Z") reply
  | ⟨.triplet direction, reply⟩ => busShown (fun _ : Triplet => "t" ++ bitText direction) reply

end SingleWire.Bench
