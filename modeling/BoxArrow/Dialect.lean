import BoxArrow.Engine
import BoxArrow.Dialect.D2
import BoxArrow.Dialect.Graphviz
import BoxArrow.Dialect.Mermaid
import BoxArrow.Dialect.PlantUml
import BoxArrow.Graph.Described

/-!
# Diagram text and graphs

A dialect is all there is to know about one diagram language: which lines carry no statement, how
a statement is read, and how a graph is written. Reading never fails. A line counts only when a
statement accounts for all of it, and every other line is passed over.

## Main definitions

* `BoxArrow.Dialect`, `BoxArrow.Engine.dialect`.
* `BoxArrow.statements` — what the lines of a text say.
* `BoxArrow.parse`, `BoxArrow.generate` — from text to graph and back.
-/

namespace BoxArrow

/-- How one diagram language is read and written. -/
structure Dialect where
  /-- Whether a trimmed line is passed over without being read. -/
  isDirective : List Char → Bool
  /-- Reads the statement of a trimmed line. -/
  statement : Reader Statement
  /-- Writes a graph. -/
  write : Graph → String

/-- The dialect of an engine. -/
def Engine.dialect : Engine → Dialect
  | .mermaid => ⟨Mermaid.isDirective, Mermaid.statement, Mermaid.write⟩
  | .plantUml => ⟨PlantUml.isDirective, PlantUml.statement, PlantUml.write⟩
  | .graphviz => ⟨Graphviz.isDirective, Graphviz.statement, Graphviz.write⟩
  | .d2 => ⟨D2.isDirective, D2.statement, D2.write⟩

/-- The statement of a trimmed line, if the line is one. -/
def Dialect.readTrimmed (d : Dialect) (line : List Char) : Option Statement :=
  if line.isEmpty || d.isDirective line then none else d.statement.whole line

/-- The statement of a line, if the line is one once it is trimmed. -/
def Dialect.readLine (d : Dialect) (line : List Char) : Option Statement :=
  d.readTrimmed (trim line)

/-- The statements of a text in the order of its lines. -/
def statements (engine : Engine) (text : String) : List Statement :=
  (lines text.toList).filterMap engine.dialect.readLine

/-- The graph that a text describes. -/
def parse (engine : Engine) (text : String) : Graph :=
  .ofStatements (statements engine text)

/-- The text that describes a graph. -/
def generate (engine : Engine) (g : Graph) : String :=
  engine.dialect.write g

end BoxArrow
