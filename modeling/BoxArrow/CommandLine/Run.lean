import BoxArrow.CommandLine.Invocation
import BoxArrow.Config.Text
import BoxArrow.Files
import BoxArrow.Session

/-!
# What the program does

Every command takes a text or a snapshot into a session, does one thing to the session, and writes
one text. What is read does not depend on what is written, so that a command is described by the
text that it leads to. A run is a procedure on the files and on what is shown: it works out the text,
and then writes it to a file or shows it.

## Main definitions

* `BoxArrow.FileView` — the files as they can be read.
* `BoxArrow.loadConfig` — which configuration holds.
* `BoxArrow.Invocation.result` — the text that an invocation leads to.
* `BoxArrow.World`, `BoxArrow.Invocation.run` — an invocation carried out on a tree of files.
-/

namespace BoxArrow

/-- Files as they can be read. -/
structure FileView where
  /-- The text of a file. -/
  read : String → Except FileFault String
  /-- Whether a path names a file or a directory. -/
  isThere : String → Bool

/-- A tree of files as it can be read. -/
def FileTree.view (t : FileTree) : FileView := ⟨t.read, t.isThere⟩

namespace FileView

/-- The text of a file, as part of a run. -/
def text (v : FileView) (path : String) : Except Fault String :=
  match v.read path with
  | .ok s => .ok s
  | .error fault => .error (.file fault)

end FileView

/-! ### The configuration -/

/-- Where a configuration is looked for in the working directory. -/
def localConfigPath : String := "diptych/config.toml"

/-- Where a configuration is looked for in the directory of the user's configurations. -/
def userConfigPath (home : String) : String :=
  home ++ "/diptych/config.toml"

/-- The configuration in a file that has to be there. -/
def readConfig (v : FileView) (path : String) : Except Fault Config := do
  if !v.isThere path then throw (.config (.missingFile path))
  match Config.parse? (← v.text path) with
  | some config => return config
  | none => throw (.config .unreadable)

/-- The places at which a configuration is looked for when none is named. -/
def configPlaces (home : Option String) : List String :=
  localConfigPath :: (home.map userConfigPath).toList

/-- The configuration that holds: the one that is named, or else the first that is there, or else
the default. -/
def loadConfig (v : FileView) (home named : Option String) : Except Fault Config :=
  match named.or ((configPlaces home).find? v.isThere) with
  | some path => readConfig v path
  | none => .ok Config.default

/-! ### The commands -/

/-- What a new session takes from the clock and from chance. -/
structure Circumstances where
  id : String
  /-- When the session starts. -/
  started : Timestamp
  /-- When it is saved. -/
  saved : Timestamp
deriving DecidableEq, Repr

/-- The engine of an input: the one that is named, or else the one that the extension of the path
suggests. -/
def sourceEngine (path : String) (named : Option String) : Except Fault Engine :=
  match named with
  | some tag => Engine.ofTag tag
  | none =>
    match Engine.ofExtension? (extensionOf path) with
    | some engine => .ok engine
    | none => .error (.unsupportedEngine s!".{extensionOf path} (use --from or --engine)")

/-- A new session. -/
def Circumstances.session (c : Circumstances) (config : Config) : Session :=
  Session.start config c.id c.started

/-- The session that holds a text and the graph that it describes. -/
def Circumstances.sessionOf (c : Circumstances) (config : Config) (engine : Engine)
    (text : String) : Session :=
  ((c.session config).setEngine engine |>.setCode text).importText

/-- The text that a task leads to. -/
def Task.result (v : FileView) (c : Circumstances) (config : Config) :
    Task → Except Fault String
  | .convert input source target => do
    let sourceEngine ← sourceEngine input source
    let targetEngine ← Engine.ofTag target
    let s := c.sessionOf config sourceEngine (← v.text input)
    return (s.setEngine targetEngine).generate.code
  | .exportSnapshot input source => do
    let engine ← sourceEngine input source
    let s := c.sessionOf config engine (← v.text input)
    return (s.snapshot c.saved).text
  | .importSnapshot input target => do
    let engine ← target.mapM Engine.ofTag
    let s ← (c.session config).restore (← v.text input)
    return (engine.elim s s.setEngine).generate.code

/-- The text that an invocation leads to. `home` is the directory of the user's configurations. -/
def Invocation.result (v : FileView) (home : Option String) (c : Circumstances)
    (i : Invocation) : Except Fault String := do
  i.task.result v c (← loadConfig v home i.config)

/-- The path of the input of a task. -/
def Task.input : Task → String
  | .convert input _ _ => input
  | .exportSnapshot input _ => input
  | .importSnapshot input _ => input

/-- The paths that the result of an invocation may depend on. -/
def Invocation.paths (home : Option String) (i : Invocation) : List String :=
  (match i.config with
    | some path => [path]
    | none => configPlaces home) ++ [i.task.input]

/-! ### Runs -/

/-- A text as it is shown: a line feed ends it. -/
def shownText (text : String) : String :=
  if text.endsWith "\n" then text else text ++ "\n"

/-- What a run works on. -/
structure World where
  files : FileTree
  /-- What has been shown. -/
  shown : String

/-- Writes a text to a file, or shows it where no file is named. -/
def writeOutput (text : String) : Option String → Procedure Fault World Unit
  | some path =>
    (FileTree.write path text).onPart World.files (fun w files => { w with files := files }) .file
  | none => modify fun w => { w with shown := w.shown ++ shownText text }

/-- Carries an invocation out. -/
def Invocation.run (home : Option String) (c : Circumstances) (i : Invocation) :
    Procedure Fault World Unit := do
  let text ← liftExcept (i.result (← get).files.view home c)
  writeOutput text i.output

end BoxArrow
