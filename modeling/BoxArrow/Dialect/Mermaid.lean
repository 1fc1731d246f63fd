import BoxArrow.Text.Blank
import BoxArrow.Dialect.Statement
import BoxArrow.Graph.Basic

/-!
# Mermaid flowcharts

A connection is written `A[label] -->|label| B[label]` and a node on its own `A[label]`; the
labels of a connection and of its ends may be left out. A semicolon and a `%%` comment may follow.
Labels are written without any escaping.

## Main definitions

* `BoxArrow.Mermaid.isDirective`, `BoxArrow.Mermaid.statement` — reading a line.
* `BoxArrow.Mermaid.write` — a graph as a flowchart.
-/

namespace BoxArrow.Mermaid

/-- Lines that are no statements: comments, and the header of a flowchart. -/
def isDirective (line : List Char) : Bool :=
  "%%".toList.isPrefixOf line ||
    firstWord line == "flowchart".toList || firstWord line == "graph".toList

/-- Reads the label of a node. -/
def bracketLabel : Reader String :=
  enclosed '[' ']'

/-- Reads the label of a connection. -/
def pipeLabel : Reader String :=
  enclosed '|' '|'

/-- Reads a node with or without a label. -/
def mention : Reader Mention := do
  let id ← word
  let label ← Reader.optional bracketLabel
  return ⟨id, label⟩

/-- Reads the end of a statement with an optional comment, which takes the rest of the line. -/
def ending : Reader Unit := do
  endOfStatement
  let _ ← Reader.optional (do
    Reader.literal "%%"
    let _ ← Reader.remainder)

/-- Reads an arrow between two nodes. -/
def connection : Reader Statement := do
  let source ← mention
  spaces
  Reader.literal "-->"
  spaces
  let label ← Reader.optional pipeLabel
  spaces
  let target ← mention
  ending
  return .connection source target label

/-- Reads a node on its own, which needs a label. -/
def declaration : Reader Statement := do
  let id ← word
  let label ← bracketLabel
  ending
  return .declaration ⟨id, some label⟩

/-- Reads a statement. -/
def statement : Reader Statement :=
  .orElse connection declaration

/-- The line that declares a node. -/
def nodeLine (n : Node) : String :=
  s!"  {n.id}[{n.label}]"

/-- The line that draws an edge. -/
def edgeLine (e : Edge) : String :=
  match e.label with
  | none => s!"  {e.source} --> {e.target}"
  | some label => s!"  {e.source} -->|{label}| {e.target}"

/-- The graph as a flowchart: a header, a line for every node, a line for every edge. -/
def write (g : Graph) : String :=
  unlines ("flowchart LR" :: g.nodes.map nodeLine ++ g.edges.map edgeLine)

end BoxArrow.Mermaid
