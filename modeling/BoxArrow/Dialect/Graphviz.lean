import BoxArrow.Text.Blank
import BoxArrow.Dialect.Statement
import BoxArrow.Graph.Basic

/-!
# Graphviz digraphs

A connection is written `A -> B [label="label"];`. A line `A [label="label"];` gives a label to a
node that connections introduce. Of several `label` attributes the last one that is not empty
counts, and other attributes are read and left aside.

## Main definitions

* `BoxArrow.Graphviz.isDirective`, `BoxArrow.Graphviz.statement` — reading a line.
* `BoxArrow.Graphviz.attributeList` — a bracketed list of attributes, as its label.
* `BoxArrow.Graphviz.write` — a graph as a digraph.
-/

namespace BoxArrow.Graphviz

/-- Lines that are no statements: lone braces, and the header of a digraph. -/
def isDirective (line : List Char) : Bool :=
  ['{'].isPrefixOf line || ['}'].isPrefixOf line ||
    "digraph".toList.isPrefixOf (firstWord line)

/-- Reads a text between quotes, which may be empty. -/
def quoted : Reader String := do
  Reader.literal "\""
  let text ← Reader.span (· != '"')
  Reader.literal "\""
  return text

/-- Reads a value that is not quoted: anything up to a blank, a comma, a semicolon or a closing
bracket. -/
def bareValue : Reader String :=
  .span1 fun c => !isBlank c && c != ',' && c != ';' && c != ']'

/-- Reads one attribute as its key and its value. -/
def assignment : Reader (String × String) := do
  let key ← word
  spaces
  Reader.literal "="
  spaces
  let value ← Reader.orElse quoted bareValue
  return (key, value)

/-- Reads one attribute and what may separate it from the next one. -/
def listItem : Reader (String × String) := do
  let item ← assignment
  spaces
  let _ ← Reader.optional (.one fun c => c == ',' || c == ';')
  spaces
  return item

/-- The label that a list of attributes gives: the last value under the key `label` that is not
empty. -/
def labelOf (attributes : List (String × String)) : Option String :=
  (attributes.filter fun a => a.1 == "label" && !a.2.isEmpty).getLast?.map (·.2)

/-- Reads a list of attributes between brackets and keeps the label that it gives. -/
def attributeList : Reader (Option String) := do
  Reader.literal "["
  spaces
  let attributes ← listItem.repeated
  Reader.literal "]"
  return labelOf attributes

/-- Reads an arrow between two nodes. -/
def connection : Reader Statement := do
  let source ← word
  spaces
  Reader.literal "->"
  spaces
  let target ← word
  let label ← Reader.optional (do
    spaces
    attributeList)
  endOfStatement
  return .connection (.bare source) (.bare target) label.join

/-- Reads a line that gives a label to a node. -/
def nodeLabel : Reader Statement :=
  Reader.filterMap id do
    let id ← word
    spaces
    let label ← attributeList
    endOfStatement
    return label.map (.nodeLabel id)

/-- Reads a statement. -/
def statement : Reader Statement :=
  .orElse connection nodeLabel

/-- The line that labels a node. -/
def nodeLine (n : Node) : String :=
  s!"  {n.id} [label=\"{n.label}\"];"

/-- The line that draws an edge. -/
def edgeLine (e : Edge) : String :=
  match e.label with
  | none => s!"  {e.source} -> {e.target};"
  | some label => s!"  {e.source} -> {e.target} [label=\"{label}\"];"

/-- The graph as a digraph: a label line for every node, then an arrow for every edge. -/
def write (g : Graph) : String :=
  unlines ("digraph G \x7b" :: g.nodes.map nodeLine ++ g.edges.map edgeLine) ++ "\x7d"

end BoxArrow.Graphviz
