import BoxArrow.CommandLine.Run
import BoxArrow.Uuid
import Std.Time.DateTime.Timestamp

/-!
# The command line program

The program reads the files that an invocation may depend on, works out the text that it leads to,
and writes or shows that text. A fault is reported with its code and its hint, and ends the program
with the status 1; arguments that are not accepted end it with the status 2.

## Main definitions

* `main`.
-/

namespace BoxArrow

/-- How the program is called. -/
def usageText : String :=
  "Usage: diptych [-c CONFIG] [--log-level LEVEL] COMMAND\n\n" ++
  "Commands:\n" ++
  "  convert INPUT --to ENGINE [--from ENGINE] [-o OUTPUT]\n" ++
  "  export INPUT [--engine ENGINE] [-o OUTPUT]\n" ++
  "  import SNAPSHOT [--engine ENGINE] [-o OUTPUT]\n\n" ++
  "Engines: " ++ ", ".intercalate (Engine.all.map (·.tag))

/-- What is said about arguments that are not accepted. -/
def UsageError.message : UsageError → String
  | helpRequested => usageText
  | versionRequested => "diptych 0.1.0"
  | nothingGiven => usageText
  | missingCommand => "error: a command is required"
  | unknownCommand => "error: unrecognized command"
  | missingArgument => "error: a required argument was not provided"
  | missingValue => "error: an option needs a value"
  | needlessValue => "error: an option takes no value"
  | unknownArgument => "error: unexpected argument"
  | repeatedOption => "error: an option cannot be used more than once"

/-- Whether what was asked for has been answered by the message. -/
def UsageError.isRequest : UsageError → Bool
  | helpRequested => true
  | versionRequested => true
  | _ => false

/-- The fault that an error of the system is. -/
def FileFault.ofError : IO.Error → FileFault
  | .noFileOrDirectory .. => .notFound
  | .inappropriateType _ 20 _ => .notDirectory
  | .inappropriateType _ 21 _ => .isDirectory
  | .invalidArgument _ 36 _ => .nameTooLong
  | e => .other (toString e)

/-- The text of a file. -/
def readText (path : String) : BaseIO (Except FileFault String) := do
  match ← (IO.FS.readBinFile path).toBaseIO with
  | .ok content => return textOfContent content
  | .error e => return .error (.ofError e)

/-- Files of which the given ones have been read. -/
def FileView.ofRead (found : List (String × Except FileFault String)) : FileView where
  read path := (found.lookup path).getD (.error .notFound)
  isThere path :=
    match found.lookup path with
    | none => false
    | some (.error .notFound) => false
    | some (.error .notDirectory) => false
    | some (.error .nameTooLong) => false
    | some (.error .nulInPath) => false
    | some _ => true

/-- The directory of the user's configurations. A relative one does not count. -/
def configHome : BaseIO (Option String) := do
  match ← IO.getEnv "XDG_CONFIG_HOME" with
  | some path => if path.startsWith "/" then return some path else fromHome
  | none => fromHome
where
  /-- The usual place in the home directory. -/
  fromHome : BaseIO (Option String) := do
    return (← IO.getEnv "HOME").map (· ++ "/.config")

/-- The time that the clock shows. -/
def clockTime : IO Timestamp := do
  let now ← Std.Time.Timestamp.now
  return .ofMillis now.toMillisecondsSinceUnixEpoch.val

/-- Reports a fault. -/
def reportFault (fault : Fault) : IO UInt32 := do
  IO.eprintln s!"{fault.code}: {fault.message}"
  if let some hint := fault.hint then IO.eprintln s!"help: {hint}"
  return 1

/-- Writes a text to a file, or shows it. -/
def deliver (text : String) : Option String → IO UInt32
  | none => do
    IO.print (shownText text)
    return 0
  | some path => do
    match ← (IO.FS.writeFile path text).toBaseIO with
    | .ok () => return 0
    | .error e => reportFault (.file (.ofError e))

/-- Carries out an invocation. -/
def perform (i : Invocation) : IO UInt32 := do
  let home ← configHome
  let found ← (i.paths home).mapM fun path => do return (path, ← readText path)
  let bytes ← IO.getRandomBytes 16
  let now ← clockTime
  let circumstances : Circumstances := ⟨uuidText (bytes.toList.map (·.toNat)), now, now⟩
  match i.result (.ofRead found) home circumstances with
  | .ok text => deliver text i.output
  | .error fault => reportFault fault

end BoxArrow

/-- The program. -/
def main (arguments : List String) : IO UInt32 := do
  match BoxArrow.Invocation.ofArguments arguments with
  | .ok i => BoxArrow.perform i
  | .error e =>
    if e.isRequest then IO.println e.message else IO.eprintln e.message
    return if e.isRequest then 0 else 2
