import BoxArrow.Text.Blank

/-!
# Diagram languages

An engine names one of the four diagram languages that are read and written. Engines are known by
tag in files and on the command line, and guessed from the extension of a file name.

## Main definitions

* `BoxArrow.Engine` — the four languages, `BoxArrow.Engine.all` in the order shown to users.
* `BoxArrow.Engine.ofTag?` — the engine named by a tag, whatever its case and outer blanks.
* `BoxArrow.Engine.ofExtension?` — the engine guessed from a file extension.
-/

namespace BoxArrow

/-- A supported diagram description language. -/
inductive Engine where
  | mermaid
  | plantUml
  | graphviz
  | d2
deriving DecidableEq, Repr, Inhabited

namespace Engine

/-- All engines, in the order in which they are presented to users. -/
def all : List Engine :=
  [mermaid, plantUml, graphviz, d2]

/-- The tag of an engine in files and on the command line. -/
def tag : Engine → String
  | mermaid => "mermaid"
  | plantUml => "plantuml"
  | graphviz => "graphviz"
  | d2 => "d2"

/-- The engine whose tag is exactly the given text. -/
def ofExactTag? (s : String) : Option Engine :=
  all.find? (·.tag == s)

/-- The engine named by a tag. Blanks around the tag and the case of ASCII letters do not count. -/
def ofTag? (s : String) : Option Engine :=
  ofExactTag? (String.ofList ((trim s.toList).map Char.toLower))

/-- The file extensions of an engine, without the leading dot. -/
def extensions : Engine → List String
  | mermaid => ["mmd", "mermaid"]
  | plantUml => ["puml", "plantuml", "pu"]
  | graphviz => ["dot", "gv"]
  | d2 => ["d2"]

/-- The engine guessed from a file extension, given without the leading dot and in any case. -/
def ofExtension? (ext : String) : Option Engine :=
  let lower := String.ofList (ext.toList.map Char.toLower)
  all.find? (·.extensions.contains lower)

end Engine

end BoxArrow
