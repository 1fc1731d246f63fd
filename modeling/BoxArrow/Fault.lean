import BoxArrow.Engine
import BoxArrow.Graph.Basic
import BoxArrow.Json.Decode

/-!
# What can go wrong

Malformed diagram text is no error. What can go wrong is that a file cannot be read or written, a
language is not known, a snapshot or a configuration is not accepted, or an edit does not fit the
graph. Every fault has a message, a stable code, and a hint where the user can do something.

## Main definitions

* `BoxArrow.Fault` — faults, with `BoxArrow.Fault.message`, `code` and `hint`.
* `BoxArrow.FormatFault` — why a snapshot is not accepted.
* `BoxArrow.FileFault`, `BoxArrow.ConfigFault`.
-/

namespace BoxArrow

/-- Why a file could not be read or written. -/
inductive FileFault where
  | notFound
  | notDirectory
  | isDirectory
  | nameTooLong
  /-- The path has a null character in it, which ends texts for the system. -/
  | nulInPath
  | notUtf8
  /-- A fault that the system reports in words of its own. -/
  | other (message : String)
deriving DecidableEq, Repr

/-- The wording of a file fault. -/
def FileFault.message : FileFault → String
  | notFound => "No such file or directory (os error 2)"
  | notDirectory => "Not a directory (os error 20)"
  | isDirectory => "Is a directory (os error 21)"
  | nameTooLong => "File name too long (os error 36)"
  | nulInPath => "file name contained an unexpected NUL byte"
  | notUtf8 => "stream did not contain valid UTF-8"
  | other message => message

/-- Why a snapshot is not accepted. -/
inductive FormatFault where
  | notJson
  | noDiagram
  /-- A part of the snapshot does not have the form that it should have. -/
  | undecodable (error : DecodeError)
  | unsupportedVersion (version : String)
  /-- The nodes and edges are not those of a valid graph. -/
  | brokenGraph (error : GraphError)

/-- The wording of a format fault. -/
def FormatFault.message : FormatFault → String
  | notJson => "not valid JSON"
  | noDiagram => "missing `diagram` object"
  | undecodable error => error.message
  | unsupportedVersion version => s!"unsupported snapshot version `{version}`"
  | brokenGraph error => error.message

/-- Why a configuration is not accepted. -/
inductive ConfigFault where
  | missingFile (path : String)
  /-- The file is no TOML, or what it says does not fit a configuration. -/
  | unreadable
deriving DecidableEq, Repr

/-- The wording of a configuration fault. -/
def ConfigFault.message : ConfigFault → String
  | missingFile path => s!"Missing configuration file: {path}"
  | unreadable => "Failed to parse TOML configuration"

/-- Anything that can go wrong. -/
inductive Fault where
  | file (fault : FileFault)
  | unsupportedEngine (tag : String)
  | invalidFormat (fault : FormatFault)
  | config (fault : ConfigFault)
  | graph (error : GraphError)

namespace Fault

/-- The wording of an unknown engine tag. -/
def unsupportedEngineMessage (tag : String) : String :=
  s!"unsupported engine: {tag}"

/-- The wording of a fault. -/
def message : Fault → String
  | file fault => s!"I/O error: {fault.message}"
  | unsupportedEngine tag => unsupportedEngineMessage tag
  | invalidFormat fault => s!"Invalid snapshot format: {fault.message}"
  | config fault => s!"Configuration error: {fault.message}"
  | graph error => s!"Graph error: {error.message}"

/-- The stable code of a kind of fault. -/
def code : Fault → String
  | file _ => "diptych::io"
  | unsupportedEngine _ => "diptych::engine"
  | invalidFormat _ => "diptych::format"
  | config _ => "diptych::config"
  | graph _ => "diptych::graph"

/-- What the user could do about a fault. -/
def hint : Fault → Option String
  | unsupportedEngine _ => some ("supported engines: " ++ ", ".intercalate (Engine.all.map (·.tag)))
  | invalidFormat _ => some "expected a JSON object with `version` and `diagram` keys"
  | _ => none

end Fault

/-- The engine named by a tag, or the fault that there is none. -/
def Engine.ofTag (tag : String) : Except Fault Engine :=
  match ofTag? tag with
  | some engine => .ok engine
  | none => .error (.unsupportedEngine tag)

end BoxArrow
