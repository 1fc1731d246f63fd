import BoxArrow.Text.Blank
import BoxArrow.Dialect.Statement
import BoxArrow.Graph.Basic

/-!
# D2 connections

A connection is written `A -> B: label`. The writer also gives every node a line `A: label`, which
is not read back.

## Main definitions

* `BoxArrow.D2.statement` — reading a line.
* `BoxArrow.D2.write` — a graph as a list of nodes and connections.
-/

namespace BoxArrow.D2

/-- Every line of this language is looked at as a statement. -/
def isDirective (_line : List Char) : Bool :=
  false

/-- Reads an arrow between two nodes. -/
def statement : Reader Statement := do
  let source ← word
  spaces
  Reader.literal "->"
  spaces
  let target ← word
  let label ← Reader.optional colonLabel
  endOfStatement
  return .connection (.bare source) (.bare target) label.join

/-- The line that names a node. -/
def nodeLine (n : Node) : String :=
  s!"{n.id}: {n.label}"

/-- The line that draws an edge. -/
def edgeLine (e : Edge) : String :=
  match e.label with
  | none => s!"{e.source} -> {e.target}"
  | some label => s!"{e.source} -> {e.target}: {label}"

/-- The graph as a line for every node and then a line for every edge. -/
def write (g : Graph) : String :=
  unlines (g.nodes.map nodeLine ++ g.edges.map edgeLine)

end BoxArrow.D2
