import SingleWire.Bytes
import SingleWire.Checksum

namespace SingleWire

/-- A code as one word whose lowest bit is sent first. -/
structure Rom where
  code : BitVec 64
  deriving DecidableEq, Repr

namespace Rom

instance : Inhabited Rom := ⟨⟨0⟩⟩

def zero : Rom := ⟨0⟩

def ofBytes (bytes : List UInt8) : Rom :=
  ⟨BitVec.ofNat 64 (SingleWire.ofBytes bytes)⟩

def bytes (rom : Rom) : List UInt8 :=
  toBytes 8 rom.code.toNat

/-- The code of a family and the low 48 bits of a serial number, with its checksum. -/
def make (family : UInt8) (serial : Nat) : Rom :=
  let body := family :: toBytes 6 serial
  ofBytes (body ++ [crc8 body])

def family (rom : Rom) : UInt8 :=
  UInt8.ofNat (rom.code.toNat % 256)

def serial (rom : Rom) : Nat :=
  rom.code.toNat / 256 % 0x1000000000000

def checksum (rom : Rom) : UInt8 :=
  UInt8.ofNat (rom.code.toNat / 0x100000000000000)

def isValid (rom : Rom) : Bool :=
  Crc8.isValid rom.bytes

def bit (rom : Rom) (index : Nat) : Bool :=
  rom.code.getLsbD index

def setBit (rom : Rom) (index : Nat) (value : Bool) : Rom :=
  if value then ⟨rom.code ||| BitVec.twoPow 64 index⟩
  else ⟨rom.code &&& ~~~(BitVec.twoPow 64 index)⟩

/-- Codes are ordered by their bytes, the first one sent deciding first. -/
instance : LT Rom := ⟨fun left right => left.bytes < right.bytes⟩

instance (left right : Rom) : Decidable (left < right) :=
  inferInstanceAs (Decidable (left.bytes < right.bytes))

instance : Ord Rom := ⟨fun left right => compareOfLessAndEq left right⟩

def sort (roms : List Rom) : List Rom :=
  roms.mergeSort fun left right => !decide (right < left)

@[simp] theorem length_bytes (rom : Rom) : rom.bytes.length = 8 := length_toBytes 8 _

theorem bit_setBit (rom : Rom) (index other : Nat) (value : Bool) (inside : other < 64) :
    (rom.setBit index value).bit other = if other = index then value else rom.bit other := by
  by_cases same : other = index
  · subst same
    cases value <;> simp [setBit, bit, inside]
  · cases value <;> simp [setBit, bit, inside, same]

end Rom

end SingleWire
