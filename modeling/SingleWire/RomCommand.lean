
namespace SingleWire.RomCommand

def matchRom : UInt8 := 0x55

def skipRom : UInt8 := 0xcc

/-- Has every device send its code at once. -/
def readRom : UInt8 := 0x33

def search : UInt8 := 0xf0

def alarmSearch : UInt8 := 0xec

end SingleWire.RomCommand
