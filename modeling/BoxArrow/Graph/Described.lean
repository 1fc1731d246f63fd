import BoxArrow.Dialect.Statement
import BoxArrow.Graph.Edit

/-!
# The graph that statements describe

Statements are taken in order. A node is there from its first mention on, with the label written
at that mention, and stands on the grid slot of its turn. A connection whose edge has the id of an
earlier one replaces that edge where it stands. Labels that stand in statements of their own count
last, so that they may come before the node they are about.

## Main definitions

* `BoxArrow.Graph.register`, `BoxArrow.Graph.link` — one mention, one connection.
* `BoxArrow.Graph.ofStatements` — the graph that a list of statements describes.
-/

namespace BoxArrow.Graph

/-- Makes sure that a mentioned node is there. A node that is there already is left as it is. -/
def register (g : Graph) (m : Mention) : Graph :=
  if g.hasNode m.id then g
  else
    let slot := Position.gridSlot g.nodes.length
    { g with nodes := g.nodes ++ [Node.fresh m.id (m.label.getD m.id) slot] }

/-- Puts an edge in the place of the one with the same id, or at the end. -/
def link (g : Graph) (e : Edge) : Graph :=
  if g.hasEdge e.id then { g with edges := modifyFirst (·.id == e.id) (fun _ => e) g.edges }
  else { g with edges := g.edges ++ [e] }

/-- What a statement adds to the graph when its turn comes. -/
def absorb (g : Graph) : Statement → Graph
  | .connection source target label =>
    ((g.register source).register target).link (Edge.between source.id target.id label)
  | .declaration node => g.register node
  | .nodeLabel _ _ => g

/-- What a statement changes after all statements have had their turn. -/
def absorbLabel (g : Graph) : Statement → Graph
  | .nodeLabel id label => g.relabel id label
  | .connection _ _ _ => g
  | .declaration _ => g

/-- The graph that a list of statements describes. -/
def ofStatements (statements : List Statement) : Graph :=
  statements.foldl absorbLabel (statements.foldl absorb empty)

end BoxArrow.Graph
