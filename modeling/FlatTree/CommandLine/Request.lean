import FlatTree.CommandLine.Option
import FlatTree.Session.Config

/-!
# Requests

What a command line asks for. There are three commands: `eager` and `lazy` take a dataset from the
load service, and `inspect` takes a buffer from a file.

- `Request`: a command with how much it reports.
- `Request.ofWords`: the request of a command line.
-/

namespace FlatTree.CommandLine

/-- How much is reported besides results and errors. -/
inductive Verbosity where
  | quiet
  | normal
  | verbose
  deriving DecidableEq, Repr

/-- What is printed of an eagerly decoded dataset. -/
inductive EagerOutput where
  | tree (json : Bool)
  | sum (column : String)
  deriving DecidableEq, Repr

/-- A command with its options. -/
inductive Invocation where
  /-- Decodes a dataset as a whole. -/
  | eager (config : SessionConfig) (output : EagerOutput)
  /-- Sums a column of a dataset through views. -/
  | lazy (config : SessionConfig) (column : String)
  /-- Decodes a buffer in a file. -/
  | inspect (path : String) (views json : Bool)
  deriving DecidableEq, Repr

/-- What a command line asks for. -/
structure Request where
  verbosity : Verbosity
  invocation : Invocation
  deriving DecidableEq, Repr

/-! ## The options -/

/-- Options of the program and of every command. -/
def globalOptions : List OptionSpec := [
  ⟨"verbose", some 'v', .switch⟩,
  ⟨"quiet", some 'q', .switch⟩,
  ⟨"help", some 'h', .switch⟩]

/-- How much is reported is said once. -/
def globalConflicts : List (String × String) := [("verbose", "quiet")]

/-- Options that say where a dataset comes from. -/
def sessionOptions : List OptionSpec := [
  ⟨"server", none, .text⟩,
  ⟨"name", none, .text⟩,
  ⟨"data-dir", none, .path⟩,
  ⟨"suffix", none, .text⟩,
  ⟨"no-csv", none, .switch⟩]

/-- The program before the name of a command. -/
def programSpec : CommandSpec where
  name := none
  options := globalOptions ++ [⟨"version", some 'V', .switch⟩]
  operand := none
  conflicts := globalConflicts

/-- The command `eager`. -/
def eagerSpec : CommandSpec where
  name := some "eager"
  options := globalOptions ++ sessionOptions ++ [
    ⟨"column", none, .text⟩,
    ⟨"json", none, .switch⟩]
  operand := none
  conflicts := ("json", "column") :: globalConflicts

/-- The command `lazy`. -/
def lazySpec : CommandSpec where
  name := some "lazy"
  options := globalOptions ++ sessionOptions ++ [⟨"column", none, .text⟩]
  operand := none
  conflicts := globalConflicts

/-- The command `inspect`. -/
def inspectSpec : CommandSpec where
  name := some "inspect"
  options := globalOptions ++ [
    ⟨"lazy", none, .switch⟩,
    ⟨"json", none, .switch⟩]
  operand := some "FILE"
  conflicts := globalConflicts

/-- The column that `lazy` sums unless another one is named. -/
def defaultColumn : String := "Accidents (excl. road) - Death Rates"

/-! ## From words to requests -/

/-- The configuration that options give. -/
def sessionConfig (s : Scan) : SessionConfig :=
  let default : SessionConfig := {}
  { serverUrl := (s.value? "server").getD default.serverUrl
    datasetName := (s.value? "name").getD default.datasetName
    dataDir := (s.value? "data-dir").getD default.dataDir
    nameSuffix := (s.value? "suffix").getD default.nameSuffix
    loadCsv := !s.has "no-csv" }

/-- A command by its name: what it takes, and what its options ask for. -/
def command? (name : String) : Option (CommandSpec × (Scan → Invocation)) :=
  if name = "eager" then
    some (eagerSpec, fun s => .eager (sessionConfig s)
      (match s.value? "column" with
      | some column => .sum column
      | none => .tree (s.has "json")))
  else if name = "lazy" then
    some (lazySpec, fun s => .lazy (sessionConfig s) ((s.value? "column").getD defaultColumn))
  else if name = "inspect" then
    some (inspectSpec, fun s =>
      .inspect (s.operands.headD "") (s.has "lazy") (s.has "json"))
  else none

/-- How much is reported, by options before or after the name of the command. -/
def verbosityOf (program command : Scan) : Verbosity :=
  if program.has "quiet" || command.has "quiet" then .quiet
  else if program.has "verbose" || command.has "verbose" then .verbose
  else .normal

/-- A word that can name a command. -/
def isPlain (word : String) : Bool :=
  match Word.ofString word with
  | .plain _ => true
  | _ => false

/-- The help on commands that are named one after another. Only the program has commands. -/
def helpOn : List String → Stop
  | [] => .help none
  | [name] =>
    if name = "help" || (command? name).isSome then .help (some name)
    else .misuse s!"there is no command {name}"
  | _ => .misuse "there is no such command"

namespace Request

/-- The request of the words of a command line. -/
def ofWords (words : List String) : Except Stop Request := do
  let options := words.takeWhile fun word => !isPlain word
  let program ← Scan.run programSpec options
  match words.drop options.length with
  | [] => throw (.misuse "a command is missing")
  | name :: rest =>
    if program.operandsOnly then throw (.misuse s!"the argument {name} is not expected")
    if name = "help" then throw (helpOn rest)
    match command? name with
    | none => throw (.misuse s!"there is no command {name}")
    | some (spec, invocation) =>
      let command ← (← Scan.run spec rest).finish spec
      let program ← program.finish programSpec
      return ⟨verbosityOf program command, invocation command⟩

end Request

end FlatTree.CommandLine
