/-!
Reading words of a command line at one level: options by long or short name, flags, one positional
value, and the names of the levels below. An option's value is judged when the next option or value
begins, so that a word that is not understood is reported before a value that is refused.
-/

namespace SingleWire.Command

inductive UsageError
  | helpWanted
  | versionWanted
  /-- Nothing was given at all. -/
  | nothingGiven
  | subcommandMissing
  | subcommandUnknown
  | argumentUnknown
  | argumentMissing
  | argumentConflict
  | valueMissing
  | valueSurplus
  | valueInvalid (message : String)
  deriving DecidableEq, Repr

abbrev Accept (α : Type) := String → α → Except UsageError α

structure Parameter (α : Type) where
  long : String
  short : Option Char := none
  takesValue : Bool := true
  accept : Accept α

structure Level (α : Type) where
  parameters : List (Parameter α)
  /-- What the one positional value is for, if there is one. -/
  positional : Option (Accept α) := none
  subcommands : List String := []

/-- What has been read at a level. -/
structure Reading (α : Type) where
  record : α
  /-- An option or value that is not judged yet; without a text, its value is still to come. -/
  pending : Option (Accept α × Option String) := none
  placed : Bool := false
  /-- No options are recognised any more. -/
  valuesOnly : Bool := false

inductive Word
  | escape
  | long (name : String) (value : Option String)
  | shorts (names : List Char)
  | plain

def splitEquals : List Char → List Char × Option (List Char)
  | [] => ([], none)
  | char :: rest =>
      if char = '=' then ([], some rest)
      else ((char :: (splitEquals rest).1), (splitEquals rest).2)

def Word.of (text : String) : Word :=
  match text.toList with
  | ['-', '-'] => .escape
  | '-' :: '-' :: rest =>
      let (name, value) := splitEquals rest
      .long (String.ofList name) (value.map String.ofList)
  | '-' :: char :: rest => .shorts (char :: rest)
  | _ => .plain

namespace Reading

variable {α : Type}

def awaitsValue (reading : Reading α) : Bool :=
  match reading.pending with
  | some (_, none) => true
  | _ => false

/-- Judges what is pending. -/
def settle (reading : Reading α) : Except UsageError (Reading α) :=
  match reading.pending with
  | none => .ok reading
  | some (_, none) => .error .valueMissing
  | some (accept, some text) => do
      let record ← accept text reading.record
      pure { reading with record, pending := none }

def take (reading : Reading α) (accept : Accept α) (text : String) :
    Except UsageError (Reading α) := do
  let settled ← reading.settle
  let record ← accept text settled.record
  pure { settled with record }

def await (reading : Reading α) (accept : Accept α) : Except UsageError (Reading α) := do
  let settled ← reading.settle
  pure { settled with pending := some (accept, none) }

end Reading

namespace Level

variable {α : Type}

def takeLong (level : Level α) (reading : Reading α) (name : String) (value : Option String) :
    Except UsageError (Reading α) :=
  match level.parameters.find? (·.long == name) with
  | none => .error .argumentUnknown
  | some parameter =>
      match parameter.takesValue, value with
      | true, some text => reading.take parameter.accept text
      | true, none => reading.await parameter.accept
      | false, some _ => .error .valueSurplus
      | false, none => reading.take parameter.accept ""

/-- Flags may share a word; the first option in it takes the rest of the word, less an equals sign,
for its value. -/
def takeShorts (level : Level α) : List Char → Reading α → Except UsageError (Reading α)
  | [], reading => .ok reading
  | name :: rest, reading =>
      match level.parameters.find? (·.short == some name) with
      | none => .error .argumentUnknown
      | some parameter =>
          if parameter.takesValue then
            match rest with
            | [] => reading.await parameter.accept
            | '=' :: value => reading.take parameter.accept (String.ofList value)
            | value => reading.take parameter.accept (String.ofList value)
          else do
            let next ← reading.take parameter.accept ""
            takeShorts level rest next

def place (level : Level α) (reading : Reading α) (text : String) : Except UsageError (Reading α) :=
  match level.positional, reading.placed with
  | some accept, false => do
      let settled ← reading.settle
      pure { settled with pending := some (accept, some text), placed := true }
  | _, _ =>
      if level.subcommands.isEmpty then .error .argumentUnknown
      else if reading.valuesOnly && level.subcommands.contains text then .error .argumentUnknown
      else .error .subcommandUnknown

def takeWord (level : Level α) (reading : Reading α) (text : String) :
    Except UsageError (Reading α) :=
  if reading.valuesOnly then level.place reading text
  else match Word.of text with
    | .escape => .ok { reading with valuesOnly := true }
    | .long name value => level.takeLong reading name value
    | .shorts names => level.takeShorts names reading
    | .plain =>
        match reading.pending with
        | some (accept, none) => .ok { reading with pending := some (accept, some text) }
        | _ => level.place reading text

def namesSubcommand (level : Level α) (reading : Reading α) (text : String) : Bool :=
  !reading.valuesOnly && !reading.awaitsValue && level.subcommands.contains text

/-- Reads words up to the name of a subcommand, which is given back with the words after it. -/
def read (level : Level α) :
    List String → Reading α → Except UsageError (Reading α × Option (String × List String))
  | [], reading => .ok (reading, none)
  | text :: rest, reading =>
      if level.namesSubcommand reading text then .ok (reading, some (text, rest))
      else do
        let next ← level.takeWord reading text
        read level rest next

end Level

end SingleWire.Command
