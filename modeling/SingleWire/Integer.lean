import SingleWire.Hex

namespace SingleWire

inductive IntegerError
  | empty
  | invalidDigit
  | tooLarge
  | tooSmall
  deriving DecidableEq, Repr

def IntegerError.message : IntegerError → String
  | .empty => "cannot parse integer from empty string"
  | .invalidDigit => "invalid digit found in string"
  | .tooLarge => "number too large to fit in target type"
  | .tooSmall => "number too small to fit in target type"

namespace Integer

def decimalValue? (char : Char) : Option Nat :=
  if '0' ≤ char ∧ char ≤ '9' then some (char.toNat - 48) else none

/-- The number that digits of a base lead to from the value so far, up to a limit. -/
def magnitude (digit? : Char → Option Nat) (base limit : Nat) (beyond : IntegerError) :
    (value : Nat) → List Char → Except IntegerError Nat
  | value, [] => .ok value
  | value, char :: rest =>
      match digit? char with
      | none => .error .invalidDigit
      | some digit =>
          if limit < base * value + digit then .error beyond
          else magnitude digit? base limit beyond (base * value + digit) rest

/-- Digits behind an optional plus sign. A sign needs a digit after it. -/
def unsigned (digit? : Char → Option Nat) (base limit : Nat) : List Char → Except IntegerError Nat
  | [] => .error .empty
  | ['+'] => .error .invalidDigit
  | '+' :: rest => magnitude digit? base limit .tooLarge 0 rest
  | digits => magnitude digit? base limit .tooLarge 0 digits

def readDecimal (text : String) : Except IntegerError Int :=
  match text.toList with
  | ['-'] => .error .invalidDigit
  | '-' :: rest =>
      (magnitude decimalValue? 10 0x8000000000000000 .tooSmall 0 rest).map fun value => -(value : Int)
  | digits => (unsigned decimalValue? 10 0x7fffffffffffffff digits).map Int.ofNat

end Integer

end SingleWire
