import SingleWire.Rom.Text

namespace SingleWire

inductive Level
  | error
  | warn
  | info
  | debug
  | trace
  deriving DecidableEq, Repr

def Level.text : Level → String
  | .error => "ERROR"
  | .warn => "WARN"
  | .info => "INFO"
  | .debug => "DEBUG"
  | .trace => "TRACE"

inductive Event
  | resetTooShort (low : Nat)
  | latencyTooLong (latency samplePoint : Nat)
  | masterReady (latency samplePoint : Nat)
  | lineStuckLow
  | resetDone (present : Bool)
  | passDone (discrepancy familyDiscrepancy : Nat)
  | searchFoundNoPresence
  | searchUnanswered
  | searchFoundCorrupt (rom : Rom)
  | searchFound (rom : Rom)
  | attachmentRefused (rom : Rom)
  | simulatedCorrupt (rom : Rom)
  | scanDone (found : Nat)
  deriving DecidableEq, Repr

namespace Event

def level : Event → Level
  | .resetTooShort _ | .latencyTooLong _ _ => .error
  | .lineStuckLow | .searchUnanswered | .searchFoundCorrupt _ => .warn
  | .attachmentRefused _ | .simulatedCorrupt _ => .warn
  | .scanDone _ => .info
  | .masterReady _ _ | .searchFoundNoPresence | .searchFound _ => .debug
  | .resetDone _ | .passDone _ _ => .trace

def message : Event → String
  | .resetTooShort low => s!"1-Wire reset pulse of {low} us is shorter than 480 us"
  | .latencyTooLong latency samplePoint =>
      s!"1-Wire line release latency {latency} us reaches the {samplePoint} us sample point"
  | .masterReady latency samplePoint =>
      s!"1-Wire master ready, release latency {latency} us, sample point {samplePoint} us"
  | .lineStuckLow => "1-Wire line stuck low, no reset pulse sent"
  | .resetDone present => s!"1-Wire reset, presence: {present}"
  | .passDone discrepancy familyDiscrepancy =>
      s!"1-Wire search pass done, last discrepancy {discrepancy}, last family discrepancy {familyDiscrepancy}"
  | .searchFoundNoPresence => "1-Wire search: no presence pulse"
  | .searchUnanswered => "1-Wire search aborted: no device answered the search slot"
  | .searchFoundCorrupt rom => s!"1-Wire search: CRC mismatch on {rom.text}"
  | .searchFound rom => s!"1-Wire search found {rom.text}"
  | .attachmentRefused rom => s!"simulated bus full, device {rom.text} not attached"
  | .simulatedCorrupt rom => s!"Simulated device {rom.text} has an invalid CRC"
  | .scanDone found => s!"Found {found} devices"

def text (event : Event) : String :=
  event.level.text ++ " " ++ event.message

end Event

end SingleWire
