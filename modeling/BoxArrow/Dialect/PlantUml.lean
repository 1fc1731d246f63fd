import BoxArrow.Text.Blank
import BoxArrow.Dialect.Statement
import BoxArrow.Graph.Basic

/-!
# PlantUML sequence diagrams

A message is written `A -> B: label` or, dashed, `A --> B: label`; both arrows mean the same here.
Nodes are written by their label. A line whose labels are not identifiers is not read back.

## Main definitions

* `BoxArrow.PlantUml.isDirective`, `BoxArrow.PlantUml.statement` — reading a line.
* `BoxArrow.PlantUml.write` — a graph as a sequence diagram.
-/

namespace BoxArrow.PlantUml

/-- Lines that are no statements: the start and the end of a diagram. -/
def isDirective (line : List Char) : Bool :=
  "@start".toList.isPrefixOf line || "@end".toList.isPrefixOf line

/-- Reads an arrow between two nodes. -/
def statement : Reader Statement := do
  let source ← word
  spaces
  Reader.orElse (.literal "->") (.literal "-->")
  spaces
  let target ← word
  let label ← Reader.optional colonLabel
  endOfStatement
  return .connection (.bare source) (.bare target) label.join

/-- The label of the first node with the given id, or the id itself where there is no such node. -/
def displayName (g : Graph) (id : String) : String :=
  match g.node? id with
  | some n => n.label
  | none => id

/-- The line that draws an edge. -/
def edgeLine (g : Graph) (e : Edge) : String :=
  match e.label with
  | none => s!"{displayName g e.source} -> {displayName g e.target}"
  | some label => s!"{displayName g e.source} -> {displayName g e.target}: {label}"

/-- The graph as a sequence diagram: a message for every edge. Nodes without edges do not show. -/
def write (g : Graph) : String :=
  unlines ("@startuml" :: g.edges.map (edgeLine g)) ++ "@enduml"

end BoxArrow.PlantUml
