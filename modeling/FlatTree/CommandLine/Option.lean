/-!
# Words of a command line

A word that starts with two hyphens is an option by its name, perhaps with a value after an equals
sign; a word that starts with one is a group of one-letter switches; two hyphens alone end the
options. Any other word is the value of the option before it, if that one still needs a value, else
an operand. Options are given at most once.

- `CommandSpec`: the options and operands that a command takes.
- `Scan.run`: the words of a command.
- `Scan.finish`: what they give, if nothing is missing or in conflict.
-/

namespace FlatTree.CommandLine

/-- Why there is nothing to run. -/
inductive Stop where
  /-- Help was asked for, perhaps on a command. -/
  | help (command : Option String)
  | version
  | misuse (reason : String)
  deriving DecidableEq, Repr

/-- What an option takes. -/
inductive OptionKind where
  | switch
  | text
  /-- A path, which is not empty. -/
  | path
  deriving DecidableEq, Repr

/-- An option. -/
structure OptionSpec where
  name : String
  letter : Option Char
  kind : OptionKind
  deriving DecidableEq, Repr

/-- What a command takes. -/
structure CommandSpec where
  /-- The name, unless it is the program as a whole. -/
  name : Option String
  options : List OptionSpec
  /-- What its one operand is, a path that must be there. -/
  operand : Option String
  /-- Options that exclude each other. -/
  conflicts : List (String × String)
  deriving Repr

/-- The forms of a word. -/
inductive Word where
  | separator
  | long (name : String) (value : Option String)
  | letters (cs : List Char)
  | plain (text : String)
  deriving DecidableEq, Repr

namespace Word

/-- The form of a word. -/
def ofString (text : String) : Word :=
  match text.toList with
  | ['-', '-'] => separator
  | '-' :: '-' :: rest =>
    let name := rest.takeWhile (· ≠ '=')
    match rest.drop name.length with
    | [] => long (String.ofList name) none
    | _ :: value => long (String.ofList name) (some (String.ofList value))
  | '-' :: c :: rest => letters (c :: rest)
  | _ => plain text

end Word

/-- What the words of a command gave so far. -/
structure Scan where
  switches : List String
  values : List (String × String)
  operands : List String
  /-- The option that needs the next word as its value. -/
  waiting : Option OptionSpec
  /-- The options have ended. -/
  operandsOnly : Bool
  deriving Repr

namespace Scan

/-- Before the first word. -/
def empty : Scan := ⟨[], [], [], none, false⟩

/-- A switch was given. -/
def has (s : Scan) (name : String) : Bool := s.switches.contains name

/-- The value of an option. -/
def value? (s : Scan) (name : String) : Option String := s.values.lookup name

/-- An option was given. -/
def uses (s : Scan) (name : String) : Bool := s.has name || (s.value? name).isSome

/-- Gives a switch. -/
def giveSwitch (spec : CommandSpec) (s : Scan) (name : String) : Except Stop Scan :=
  if name = "help" then .error (.help spec.name)
  else if name = "version" then .error .version
  else if s.uses name then .error (.misuse s!"the option --{name} is given twice")
  else .ok { s with switches := name :: s.switches }

/-- Gives an option that takes a value. -/
def giveValue (s : Scan) (option : OptionSpec) (value : String) : Except Stop Scan :=
  if s.uses option.name then .error (.misuse s!"the option --{option.name} is given twice")
  else if option.kind = .path ∧ value.isEmpty then
    .error (.misuse s!"the option --{option.name} needs a value")
  else .ok { s with values := (option.name, value) :: s.values, waiting := none }

/-- Gives an option by its name, with the value in the same word. -/
def giveLong (spec : CommandSpec) (s : Scan) (name : String) (value : Option String) :
    Except Stop Scan :=
  match spec.options.find? (·.name = name) with
  | none => .error (.misuse s!"there is no option --{name}")
  | some option =>
    match option.kind, value with
    | .switch, none => s.giveSwitch spec name
    | .switch, some _ => .error (.misuse s!"the option --{name} takes no value")
    | _, none => .ok { s with waiting := some option }
    | _, some value => s.giveValue option value

/-- Gives a switch by its letter. -/
def giveLetter (spec : CommandSpec) (s : Scan) (letter : Char) : Except Stop Scan :=
  match spec.options.find? (·.letter = some letter) with
  | none => .error (.misuse s!"there is no option -{letter}")
  | some option => s.giveSwitch spec option.name

/-- Gives an operand. -/
def giveOperand (spec : CommandSpec) (s : Scan) (text : String) : Except Stop Scan :=
  if spec.operand.isNone || !s.operands.isEmpty then
    .error (.misuse s!"the argument {text} is not expected")
  else if text.isEmpty then .error (.misuse "an argument is empty")
  else .ok { s with operands := [text] }

/-- Takes a word. -/
def step (spec : CommandSpec) (s : Scan) (word : String) : Except Stop Scan :=
  if s.operandsOnly then s.giveOperand spec word
  else
    match s.waiting, Word.ofString word with
    | some option, .plain text => s.giveValue option text
    | some option, _ => .error (.misuse s!"the option --{option.name} needs a value")
    | none, .separator => .ok { s with operandsOnly := true }
    | none, .long name value => s.giveLong spec name value
    | none, .letters cs => cs.foldlM (giveLetter spec) s
    | none, .plain text => s.giveOperand spec text

/-- Takes all words. -/
def run (spec : CommandSpec) (words : List String) : Except Stop Scan :=
  words.foldlM (step spec) empty

/-- Checks that nothing is missing and no two options exclude each other. -/
def finish (spec : CommandSpec) (s : Scan) : Except Stop Scan :=
  if let some option := s.waiting then
    .error (.misuse s!"the option --{option.name} needs a value")
  else if let some (a, b) := spec.conflicts.find? fun (a, b) => s.uses a && s.uses b then
    .error (.misuse s!"the option --{a} cannot be used with --{b}")
  else
    match spec.operand, s.operands with
    | some operand, [] => .error (.misuse s!"the argument <{operand}> is missing")
    | _, _ => .ok s

end Scan

end FlatTree.CommandLine
