import SingleWire.Integer
import SingleWire.Text.Quoted

namespace SingleWire.FamilyCode

/-- One prefix is taken off. -/
def afterPrefix : List Char → List Char
  | '0' :: 'x' :: rest => rest
  | '0' :: 'X' :: rest => rest
  | digits => digits

def read (text : String) : Except IntegerError UInt8 :=
  (Integer.unsigned Hex.value? 16 255 (afterPrefix text.toList)).map UInt8.ofNat

def message (text : String) (error : IntegerError) : String :=
  "invalid family code " ++ Text.quoted text ++ ": " ++ error.message

end SingleWire.FamilyCode
