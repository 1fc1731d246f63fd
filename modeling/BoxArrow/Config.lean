import BoxArrow.Graph.ElementForm

/-!
# Configuration

A configuration says which engine a session starts on, which text each engine starts with, and how
long edits have to rest before they are rendered. Everything has a default.

## Main definitions

* `BoxArrow.Sources` — the text that each engine starts with.
* `BoxArrow.Config`, `BoxArrow.Config.ofJson`.
* `BoxArrow.Config.window` — the time of rest, within its bounds.
-/

namespace BoxArrow

/-- The text that is loaded when a session switches to an engine. -/
structure Sources where
  mermaid : String
  plantUml : String
  graphviz : String
  d2 : String
deriving DecidableEq, Repr

namespace Sources

/-- Small samples of a user, an application and a document that it makes. -/
def default : Sources where
  mermaid := "flowchart LR\n  U[User] --> A[App]\n  A --> P[(PDF)]"
  plantUml := "@startuml\nUser -> App: Request\nApp -> PDF: Generate\n" ++
    "PDF --> App: Document\nApp --> User: Response\n@enduml"
  graphviz := "digraph G \x7b\n  User -> App;\n  App -> PDF;\n\x7d"
  d2 := "User -> App: Request\nApp -> PDF: Generate"

/-- The text for an engine. -/
def get (s : Sources) : Engine → String
  | .mermaid => s.mermaid
  | .plantUml => s.plantUml
  | .graphviz => s.graphviz
  | .d2 => s.d2

/-- The table with another text for an engine. -/
def set (s : Sources) (text : String) : Engine → Sources
  | .mermaid => { s with mermaid := text }
  | .plantUml => { s with plantUml := text }
  | .graphviz => { s with graphviz := text }
  | .d2 => { s with d2 := text }

/-- A table of which some texts are known. -/
structure Draft where
  mermaid : Option String
  plantUml : Option String
  graphviz : Option String
  d2 : Option String

/-- Sets the text under a key. -/
def Draft.visit (d : Draft) (key : String) (j : Json) : Decoded Draft :=
  match key with
  | "mermaid" => do return { d with mermaid := ← fill "mermaid" d.mermaid j.asString }
  | "plantuml" => do return { d with plantUml := ← fill "plantuml" d.plantUml j.asString }
  | "graphviz" => do return { d with graphviz := ← fill "graphviz" d.graphviz j.asString }
  | "d2" => do return { d with d2 := ← fill "d2" d.d2 j.asString }
  | _ => .ok d

/-- The record of a table. -/
def shape : RecordShape where
  title := "struct SourcesConfig"
  fields := [⟨"mermaid", false⟩, ⟨"plantuml", false⟩, ⟨"graphviz", false⟩, ⟨"d2", false⟩]

/-- Decodes a table. Texts that are not given keep their default. -/
def ofJson (j : Json) : Decoded Sources := do
  let d ← shape.read .plain Draft.visit ⟨none, none, none, none⟩ j
  return {
    mermaid := d.mermaid.getD default.mermaid
    plantUml := d.plantUml.getD default.plantUml
    graphviz := d.graphviz.getD default.graphviz
    d2 := d.d2.getD default.d2 }

end Sources

/-- A configuration. -/
structure Config where
  /-- The engine that a session starts on. -/
  engine : Engine
  sources : Sources
  /-- How long edits should rest before they are rendered, in milliseconds. -/
  debounce : Nat
deriving DecidableEq, Repr

namespace Config

/-- The time of rest when none is configured, in milliseconds. -/
def defaultDebounce : Nat := 400

/-- The configuration in which everything has its default. -/
def default : Config := ⟨.mermaid, Sources.default, defaultDebounce⟩

/-- The shortest time of rest, in milliseconds. -/
def minWindow : Nat := 300

/-- The longest time of rest, in milliseconds. -/
def maxWindow : Nat := 500

/-- The time of rest that a configured one stands for, which is the nearest within the bounds. -/
def clampWindow (debounce : Nat) : Nat :=
  if debounce < minWindow then minWindow
  else if maxWindow < debounce then maxWindow
  else debounce

/-- The time of rest, in milliseconds. -/
def window (c : Config) : Nat :=
  clampWindow c.debounce

/-- The record of the section on rendering. -/
def renderShape : RecordShape := ⟨"struct RenderConfig", [⟨"debounce_ms", false⟩]⟩

/-- Decodes the section on rendering. -/
def debounceOfJson (j : Json) : Decoded Nat := do
  let visit (d : Option Nat) (key : String) (j : Json) : Decoded (Option Nat) :=
    if key = "debounce_ms" then fill "debounce_ms" d j.asNatural else .ok d
  let d ← renderShape.read .plain visit none j
  return d.getD defaultDebounce

/-- A configuration of which some sections are known. -/
structure Draft where
  engine : Option Engine
  sources : Option Sources
  debounce : Option Nat

/-- Sets the section under a key. -/
def Draft.visit (d : Draft) (key : String) (j : Json) : Decoded Draft :=
  match key with
  | "default_engine" => do
    return { d with engine := ← fill "default_engine" d.engine (Engine.ofJson j) }
  | "sources" => do return { d with sources := ← fill "sources" d.sources (Sources.ofJson j) }
  | "render" => do return { d with debounce := ← fill "render" d.debounce (debounceOfJson j) }
  | _ => .ok d

/-- The record of a configuration. -/
def shape : RecordShape where
  title := "struct AppConfig"
  fields := [⟨"default_engine", false⟩, ⟨"sources", false⟩, ⟨"render", false⟩]

/-- Decodes a configuration. Sections that are not given keep their default. -/
def ofJson (j : Json) : Decoded Config := do
  let d ← shape.read .plain Draft.visit ⟨none, none, none⟩ j
  return {
    engine := d.engine.getD default.engine
    sources := d.sources.getD Sources.default
    debounce := d.debounce.getD defaultDebounce }

end Config

end BoxArrow
