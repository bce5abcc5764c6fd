import SingleWire.Command.FamilyCode
import SingleWire.Command.Reading
import SingleWire.Rom.Text

namespace SingleWire

inductive Command
  | scan (family : Option UInt8) (alarm : Bool)
  | verify (rom : Rom)
  | readRom
  deriving DecidableEq, Repr

namespace Command

/-- A line of a GPIO chip, or simulated devices where no line is given. -/
structure Arguments where
  chip : String
  line : Option Nat
  simulate : List Rom
  samplePoint : Nat
  command : Command
  deriving DecidableEq, Repr

structure BusOptions where
  chip : Option String := none
  line : Option Nat := none
  simulate : List Rom := []
  samplePoint : Option Nat := none
  deriving DecidableEq, Repr

structure ScanOptions where
  family : Option UInt8 := none
  alarm : Bool := false
  deriving DecidableEq, Repr

def defaultChip : String := "/dev/gpiochip0"

def readWord (text : String) : Except UsageError Nat :=
  match Integer.readDecimal text with
  | .error error => .error (.valueInvalid error.message)
  | .ok value =>
      if 0 ≤ value ∧ value < 0x100000000 then .ok value.toNat
      else .error (.valueInvalid (toString value ++ " is not in 0..=4294967295"))

def readCode (text : String) : Except UsageError Rom :=
  (Rom.parse text).mapError fun error => .valueInvalid error.message

def readFamily (text : String) : Except UsageError UInt8 :=
  (FamilyCode.read text).mapError fun error => .valueInvalid (FamilyCode.message text error)

def once {α β : Type} (given : α → Bool) (read : String → Except UsageError β)
    (store : α → β → α) : Accept α := fun text record =>
  if given record then .error .argumentConflict
  else do
    let value ← read text
    pure (store record value)

def help {α : Type} : Parameter α :=
  { long := "help", short := some 'h', takesValue := false
    accept := fun _ _ => .error .helpWanted }

def version {α : Type} : Parameter α :=
  { long := "version", short := some 'V', takesValue := false
    accept := fun _ _ => .error .versionWanted }

def busLevel : Level BusOptions where
  parameters :=
    [{ long := "chip", short := some 'c'
       accept := once (·.chip.isSome) .ok fun record chip => { record with chip := some chip } },
     { long := "line", short := some 'l'
       accept := once (·.line.isSome) readWord fun record line => { record with line := some line } },
     { long := "simulate"
       accept := fun text record => do
         let rom ← readCode text
         pure { record with simulate := record.simulate ++ [rom] } },
     { long := "sample-point-us"
       accept := once (·.samplePoint.isSome) readWord fun record time =>
         { record with samplePoint := some time } },
     help, version]
  subcommands := ["scan", "verify", "read-rom", "help"]

def scanLevel : Level ScanOptions where
  parameters :=
    [{ long := "family", short := some 'f'
       accept := once (·.family.isSome) readFamily fun record family =>
         { record with family := some family } },
     { long := "alarm", short := some 'a', takesValue := false
       accept := once (·.alarm) .ok fun record _ => { record with alarm := true } },
     help]

def verifyLevel : Level (Option Rom) where
  parameters := [help]
  positional := some (once (·.isSome) readCode fun _ rom => some rom)

def readRomLevel : Level Unit where
  parameters := [help]

def readLast {α : Type} (level : Level α) (start : α) (words : List String) :
    Except UsageError α := do
  let (reading, _) ← level.read words { record := start }
  let settled ← reading.settle
  pure settled.record

def readCommand (name : String) (words : List String) : Except UsageError Command :=
  match name with
  | "scan" => do
      let options ← readLast scanLevel {} words
      pure (.scan options.family options.alarm)
  | "verify" => do
      match ← readLast verifyLevel none words with
      | some rom => pure (.verify rom)
      | none => throw .argumentMissing
  | "read-rom" => do
      let _ ← readLast readRomLevel () words
      pure .readRom
  | _ =>
      match words with
      | [] => .error .helpWanted
      | [topic] =>
          .error (if busLevel.subcommands.contains topic then .helpWanted else .subcommandUnknown)
      | _ => .error .subcommandUnknown

def complete (options : BusOptions) (command : Command) : Except UsageError Arguments :=
  if options.line.isSome && !options.simulate.isEmpty then .error .argumentConflict
  else if options.line.isNone && options.simulate.isEmpty then .error .argumentMissing
  else .ok
    { chip := options.chip.getD defaultChip
      line := options.line
      simulate := options.simulate
      samplePoint := options.samplePoint.getD 13
      command }

/-- Reads the words after the program's name. The subcommand is read before the last option in
front of it is judged. -/
def readArguments (words : List String) : Except UsageError Arguments := do
  let (reading, stop) ← busLevel.read words { record := {} }
  match stop with
  | some (name, rest) =>
      let command ← readCommand name rest
      let settled ← reading.settle
      complete settled.record command
  | none =>
      let settled ← reading.settle
      if settled.record = {} then throw .nothingGiven else throw .subcommandMissing

end Command

end SingleWire
