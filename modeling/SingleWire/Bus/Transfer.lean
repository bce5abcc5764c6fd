import SingleWire.Bus
import SingleWire.Rom
import SingleWire.RomCommand

namespace SingleWire

def bitsOf (byte : UInt8) : List Bool :=
  (List.range 8).map byte.toBitVec.getLsbD

def byteOf (bits : List Bool) : UInt8 :=
  UInt8.ofBitVec ((BitVec.ofBoolListLE bits).setWidth 8)

theorem byteOf_bitsOf (byte : UInt8) : byteOf (bitsOf byte) = byte := by
  apply UInt8.toBitVec_inj.mp
  apply BitVec.eq_of_getLsbD_eq
  intro index inside
  simp only [byteOf, BitVec.getLsbD_setWidth, BitVec.getLsbD_ofBoolListLE]
  simp [bitsOf, inside]

namespace Bus

variable {ε : Type}

def writeBits (bits : List Bool) : Task (interface ε) ε Unit :=
  Task.forEach bits writeBit

def readBits : (count : Nat) → Task (interface ε) ε (List Bool)
  | 0 => pure []
  | count + 1 => do
      let bit ← readBit
      let rest ← readBits count
      pure (bit :: rest)

def writeByte (byte : UInt8) : Task (interface ε) ε Unit := do
  writeBits (bitsOf byte)
  depower

def writeBytePowered (byte : UInt8) : Task (interface ε) ε Unit := do
  writeBits (bitsOf byte)
  power

def readByte : Task (interface ε) ε UInt8 := do
  let bits ← readBits 8
  pure (byteOf bits)

def writeBytes (bytes : List UInt8) : Task (interface ε) ε Unit :=
  Task.forEach bytes writeByte

/-- Writes the bytes and leaves the bus driven high, also where there are none. -/
def writeBytesPowered (bytes : List UInt8) : Task (interface ε) ε Unit := do
  writeBytes bytes
  power

/-- Reads `count` bytes behind those already read, which stand in reverse. -/
def readBytesAfter : (count : Nat) → (read : List UInt8) → Task (interface ε) ε (List UInt8)
  | 0, read => pure read.reverse
  | count + 1, read => do
      let byte ← readByte
      readBytesAfter count (byte :: read)

def readBytes (count : Nat) : Task (interface ε) ε (List UInt8) :=
  readBytesAfter count []

def select (rom : Rom) : Task (interface ε) ε Unit := do
  writeByte RomCommand.matchRom
  writeBytes rom.bytes

def skip : Task (interface ε) ε Unit :=
  writeByte RomCommand.skipRom

def demandPresence : Task (interface ε) ε Unit := do
  let present ← reset
  if present then pure () else throw .noDevicePresent

/-- The code of the only device on the bus. -/
def readRom : Task (interface ε) ε Rom := do
  demandPresence
  writeByte RomCommand.readRom
  let bytes ← readBytes 8
  let rom := Rom.ofBytes bytes
  if rom.isValid then pure rom else throw .invalidCrc

/-- Resets the bus and addresses one device, or every device. -/
def address : Option Rom → Task (interface ε) ε Unit
  | some rom => do
      demandPresence
      select rom
  | none => do
      demandPresence
      skip

end Bus

end SingleWire
