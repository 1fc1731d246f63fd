import BoxArrow.CommandLine.Scan

/-!
# What a command line asks for

There are three commands. Each has one word and options of its own; the path of the configuration
and the level of the log may be given to every command, before or after its name.

## Main definitions

* `BoxArrow.Task`, `BoxArrow.Invocation`.
* `BoxArrow.Invocation.ofArguments` — what arguments ask for.
-/

namespace BoxArrow

/-- What the program is asked to do. Engines are given by tag. -/
inductive Task where
  /-- Read a text and write it in another language. -/
  | convert (input : String) (source : Option String) (target : String)
  /-- Read a text and save it as a snapshot. -/
  | exportSnapshot (input : String) (source : Option String)
  /-- Load a snapshot and write its graph as a text. -/
  | importSnapshot (input : String) (target : Option String)
deriving DecidableEq, Repr

/-- What a command line asks for. -/
structure Invocation where
  task : Task
  /-- The path of the output, unless it is shown. -/
  output : Option String
  /-- The path of the configuration. -/
  config : Option String
deriving DecidableEq, Repr

/-- The options that may stand before and after the name of a command. -/
def sharedOptions : List OptionShape :=
  [⟨"config", some 'c'⟩, ⟨"log-level", none⟩]

/-- The commands by name. -/
inductive CommandName where
  | convert
  | exportSnapshot
  | importSnapshot
deriving DecidableEq, Repr

namespace CommandName

/-- All commands. -/
def all : List CommandName :=
  [convert, exportSnapshot, importSnapshot]

/-- A command as it is called. -/
def text : CommandName → String
  | convert => "convert"
  | exportSnapshot => "export"
  | importSnapshot => "import"

/-- The command that is called so. -/
def ofText? (s : String) : Option CommandName :=
  all.find? (·.text == s)

/-- The options that choose engines. -/
def engineOptions : CommandName → List String
  | convert => ["from", "to"]
  | exportSnapshot => ["engine"]
  | importSnapshot => ["engine"]

/-- The arguments of a command. -/
def grammar (c : CommandName) : Grammar where
  options := c.engineOptions.map (⟨·, none⟩) ++ [⟨"output", some 'o'⟩] ++ sharedOptions
  words := 1
  hasVersion := false

/-- The task that a command is given. -/
def task? (c : CommandName) (s : Scan) : Option Task := do
  let input ← s.words.head?
  match c with
  | convert => return .convert input (s.value? "from") (← s.value? "to")
  | exportSnapshot => return .exportSnapshot input (s.value? "engine")
  | importSnapshot => return .importSnapshot input (s.value? "engine")

/-- Reads the arguments of a command. -/
def invocation (c : CommandName) (arguments : List String) : Except UsageError Invocation := do
  let (s, surplus) ← c.grammar.scan .start arguments
  if surplus.isSome then throw .unknownArgument
  let s ← s.settle
  match c.task? s with
  | none => throw .missingArgument
  | some task => return { task := task, output := s.value? "output", config := s.value? "config" }

end CommandName

/-- The command that explains commands. -/
def helpCommand : String := "help"

/-- What asking for an explanation of commands leads to. No command has further commands below it,
so that one name at most makes sense. -/
def explain : List String → UsageError
  | [] => .helpRequested
  | [name] =>
    if name = helpCommand ∨ (CommandName.ofText? name).isSome then .helpRequested
    else .unknownCommand
  | _ => .unknownCommand

/-- The arguments before the name of a command. -/
def mainGrammar : Grammar where
  options := sharedOptions
  words := 0
  hasVersion := true

/-- What the word at which a command is expected leads to, with the arguments after it. -/
def atCommand (separated : Bool) (name : String) (rest : List String) :
    Except UsageError Invocation :=
  match CommandName.ofText? name with
  | some c => if separated then .error .unknownArgument else c.invocation rest
  | none =>
    if name = helpCommand then .error (if separated then .unknownArgument else explain rest)
    else .error .unknownCommand

/-- What a command line asks for. Of a shared option that is given on both sides of the command, the
one after it counts. -/
def Invocation.ofArguments (arguments : List String) : Except UsageError Invocation := do
  let (s, command) ← mainGrammar.scan .start arguments
  match command with
  | none => do
    let s ← s.settle
    throw (if s.options.isEmpty then .nothingGiven else .missingCommand)
  | some (name, rest) => do
    let i ← atCommand s.separated name rest
    let s ← s.settle
    return { i with config := i.config.or (s.value? "config") }

end BoxArrow
