
namespace SingleWire

/-- One bit through the register of `x^8 + x^5 + x^4 + 1`, its low bit first. -/
def Crc8.shift (register : UInt8) : UInt8 :=
  if register &&& 1 = 1 then (register >>> 1) ^^^ 0x8c else register >>> 1

def Crc8.table : Vector UInt8 256 :=
  Vector.ofFn fun start => Nat.repeat Crc8.shift 8 (UInt8.ofNat start)

def Crc8.update (register byte : UInt8) : UInt8 :=
  Crc8.table.get ⟨(register ^^^ byte).toNat, (register ^^^ byte).toNat_lt⟩

def crc8 (bytes : List UInt8) : UInt8 :=
  bytes.foldl Crc8.update 0

/-- A sequence is valid when it ends in the checksum of what stands before; running the register
over the whole of it then ends in zero. -/
def Crc8.isValid (bytes : List UInt8) : Bool :=
  !bytes.isEmpty && crc8 bytes == 0

/-- One bit through the register of `x^16 + x^15 + x^2 + 1`, its low bit first. -/
def Crc16.shift (register : UInt16) : UInt16 :=
  if register &&& 1 = 1 then (register >>> 1) ^^^ 0xa001 else register >>> 1

def Crc16.update (register : UInt16) (byte : UInt8) : UInt16 :=
  Nat.repeat Crc16.shift 8 (register ^^^ byte.toUInt16)

/-- The checksum before inversion; a chained page starts from the one before it. -/
def crc16 (bytes : List UInt8) (seed : UInt16) : UInt16 :=
  bytes.foldl Crc16.update seed

def Crc16.accepts (bytes : List UInt8) (low high : UInt8) (seed : UInt16) : Bool :=
  ~~~(crc16 bytes seed) == (low.toUInt16 ||| high.toUInt16 <<< 8)

def registers {ρ : Type} (update : ρ → UInt8 → ρ) (start : ρ) : List UInt8 → List ρ
  | [] => []
  | byte :: rest => update start byte :: registers update (update start byte) rest

end SingleWire
