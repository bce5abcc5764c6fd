import SingleWire.Command.Run

namespace SingleWire.Command

structure Invocation where
  status : Nat
  output : String := ""
  diagnostics : String := ""
  deriving DecidableEq, Repr

inductive NoFault

instance : ToString NoFault := ⟨nofun⟩

def versionText : String := "onewire-linux 0.1.0\n"

def helpText : String :=
  "Scan and address devices on a bit-banged 1-Wire bus\n\n" ++
  "Usage: onewire-linux [OPTIONS] <--line <LINE>|--simulate <ROM>> <COMMAND>\n\n" ++
  "Commands:\n" ++
  "  scan      List the ROM codes of the devices on the bus\n" ++
  "  verify    Check that a device is on the bus\n" ++
  "  read-rom  Read the ROM code of the only device on the bus\n" ++
  "  help      Print this message or the help of the given subcommand(s)\n"

def UsageError.text : UsageError → String
  | .helpWanted | .nothingGiven => helpText
  | .versionWanted => versionText
  | .subcommandMissing => "error: a subcommand is required\n"
  | .subcommandUnknown => "error: unrecognized subcommand\n"
  | .argumentUnknown => "error: unexpected argument\n"
  | .argumentMissing => "error: a required argument was not provided\n"
  | .argumentConflict => "error: an argument cannot be used with another one\n"
  | .valueMissing => "error: a value is required\n"
  | .valueSurplus => "error: an unexpected value was found\n"
  | .valueInvalid message => "error: invalid value: " ++ message ++ "\n"

def refuse (error : UsageError) : Invocation :=
  match error with
  | .helpWanted | .versionWanted => { status := 0, output := error.text }
  | _ => { status := 2, diagnostics := error.text }

def finish (report : Report NoFault) : Invocation :=
  match report.ending with
  | .done => { status := 0, output := report.output }
  | .failed failure =>
      { status := 1, output := report.output
        diagnostics := "Error: " ++ failure.message ++ "\n" }
  | .unfinished => { status := 1, output := report.output }

def execute (arguments : Arguments) : Invocation :=
  match arguments.line with
  | some _ => finish (Report.failure (.chipUnavailable arguments.chip))
  | none =>
      finish (onSimulated arguments.simulate arguments.samplePoint arguments.command).1

/-- The run that the words after the program's name ask for. -/
def invoke (words : List String) : Invocation :=
  match readArguments words with
  | .error error => refuse error
  | .ok arguments => execute arguments

end SingleWire.Command
