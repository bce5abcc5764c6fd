import SingleWire.Bus.Transfer

namespace SingleWire.Bus

inductive Operation
  | reset
  | writeBit (bit : Bool)
  | readBit
  | power
  | depower
  | writeByte (byte : UInt8)
  | writeBytePowered (byte : UInt8)
  | readByte
  | writeBytes (bytes : List UInt8)
  | writeBytesPowered (bytes : List UInt8)
  | readBytes (count : Nat)
  | select (rom : Rom)
  | skip
  | readRom
  | address (target : Option Rom)
  | triplet (direction : Bool)
  deriving DecidableEq, Repr

inductive Answer
  | done
  | bit (value : Bool)
  | byte (value : UInt8)
  | bytes (values : List UInt8)
  | rom (value : Rom)
  | triplet (value : Triplet)
  deriving DecidableEq, Repr

def Operation.task {ε : Type} : Operation → Task (interface ε) ε Answer
  | .reset => .bit <$> Bus.reset
  | .writeBit bit => (fun _ => .done) <$> Bus.writeBit bit
  | .readBit => .bit <$> Bus.readBit
  | .power => (fun _ => .done) <$> Bus.power
  | .depower => (fun _ => .done) <$> Bus.depower
  | .writeByte byte => (fun _ => .done) <$> Bus.writeByte byte
  | .writeBytePowered byte => (fun _ => .done) <$> Bus.writeBytePowered byte
  | .readByte => .byte <$> Bus.readByte
  | .writeBytes bytes => (fun _ => .done) <$> Bus.writeBytes bytes
  | .writeBytesPowered bytes => (fun _ => .done) <$> Bus.writeBytesPowered bytes
  | .readBytes count => .bytes <$> Bus.readBytes count
  | .select rom => (fun _ => .done) <$> Bus.select rom
  | .skip => (fun _ => .done) <$> Bus.skip
  | .readRom => .rom <$> Bus.readRom
  | .address target => (fun _ => .done) <$> Bus.address target
  | .triplet direction => .triplet <$> Bus.triplet direction

end SingleWire.Bus
