import SingleWire.Hex
import SingleWire.Rom

namespace SingleWire.Rom

def text (rom : Rom) : String :=
  Hex.ofBytes rom.bytes

inductive TextError
  | length
  | digit
  deriving DecidableEq, Repr

def TextError.message : TextError → String
  | .length => "a ROM code has exactly 16 hex digits"
  | .digit => "invalid hex digit in ROM code"

def isSeparator (char : Char) : Bool :=
  char == ':' || char == '-'

/-- The values of exactly `room` digits. The first offence from the left decides the error. -/
def readDigits : List Char → (room : Nat) → Except TextError (List Nat)
  | [], 0 => .ok []
  | [], _ + 1 => .error .length
  | char :: rest, room =>
      if isSeparator char then readDigits rest room
      else match Hex.value? char, room with
        | none, _ => .error .digit
        | some _, 0 => .error .length
        | some value, room + 1 => (readDigits rest room).map (value :: ·)

def joinHalves : List Nat → List UInt8
  | high :: low :: rest => UInt8.ofNat (16 * high + low) :: joinHalves rest
  | _ => []

def parse (text : String) : Except TextError Rom :=
  (readDigits text.toList 16).map fun digits => ofBytes (joinHalves digits)

end SingleWire.Rom
