import BoxArrow.Graph.Edit

/-!
# Batches of changes from the editor

The editor never holds a graph. It reports what its user did as a batch of changes that name nodes
and edges by id, and the batch is folded into the graph: first the changes of nodes and then those
of edges, each in order. A change that names an id which is not there is skipped.

## Main definitions

* `BoxArrow.NodeChange`, `BoxArrow.EdgeChange`, `BoxArrow.ChangeSet`.
* `BoxArrow.Graph.applyChanges` — the batch folded into a graph.
* `BoxArrow.ChangeOutcome` — how many changes found their element, and what was taken out.
-/

namespace BoxArrow

/-- A change of one node. -/
inductive NodeChange where
  /-- The node was dragged; without a position it stays where it is. -/
  | position (id : String) (position : Option Position)
  /-- The node was resized; without dimensions it keeps its size. -/
  | dimensions (id : String) (dimensions : Option Size)
  | select (id : String) (selected : Bool)
  | remove (id : String)
deriving DecidableEq, Repr

/-- A change of one edge. -/
inductive EdgeChange where
  | select (id : String) (selected : Bool)
  | remove (id : String)
deriving DecidableEq, Repr

/-- The id of the node that a change is about. -/
def NodeChange.id : NodeChange → String
  | position id _ => id
  | dimensions id _ => id
  | select id _ => id
  | remove id => id

/-- The id of the edge that a change is about. -/
def EdgeChange.id : EdgeChange → String
  | select id _ => id
  | remove id => id

/-- Changes of nodes and of edges that are applied together. -/
structure ChangeSet where
  nodes : List NodeChange
  edges : List EdgeChange
deriving DecidableEq, Repr

/-- Whether a batch holds no changes. -/
def ChangeSet.isEmpty (c : ChangeSet) : Bool :=
  c.nodes.isEmpty && c.edges.isEmpty

/-- What a batch did. -/
structure ChangeOutcome where
  /-- How many changes found the element they name. -/
  applied : Nat
  /-- How many changes name an id that was not there. -/
  skipped : Nat
  /-- What was taken out, edges that lost an end included. -/
  removed : Removed
deriving DecidableEq, Repr

namespace ChangeOutcome

/-- The outcome before any change. -/
def start : ChangeOutcome := ⟨0, 0, Removed.nothing⟩

/-- Counts one change more that found its element. -/
def countApplied (o : ChangeOutcome) : ChangeOutcome :=
  { o with applied := o.applied + 1 }

/-- Counts one change more that did not find its element. -/
def countSkipped (o : ChangeOutcome) : ChangeOutcome :=
  { o with skipped := o.skipped + 1 }

/-- Records a node that was taken out. -/
def recordNode (o : ChangeOutcome) (n : Node) : ChangeOutcome :=
  { o with removed := { o.removed with nodes := o.removed.nodes ++ [n] } }

/-- Records edges that were taken out. -/
def recordEdges (o : ChangeOutcome) (es : List Edge) : ChangeOutcome :=
  { o with removed := { o.removed with edges := o.removed.edges ++ es } }

end ChangeOutcome

/-- What a change makes of the node it names, or nothing where it takes the node out. -/
def NodeChange.update (n : Node) : NodeChange → Option Node
  | position _ none => some n
  | position _ (some p) => some { n with position := p }
  | dimensions _ none => some n
  | dimensions _ (some s) => some { n with size := s.atLeastMin }
  | select _ selected => some { n with selected := selected }
  | remove _ => none

/-- What a change makes of the edge it names, or nothing where it takes the edge out. -/
def EdgeChange.update (e : Edge) : EdgeChange → Option Edge
  | select _ selected => some { e with selected := selected }
  | remove _ => none

namespace Graph

/-- Applies one change to the first node with its id. -/
def applyNodeChange (s : Graph × ChangeOutcome) (c : NodeChange) : Graph × ChangeOutcome :=
  let (g, o) := s
  match g.node? c.id with
  | none => (g, o.countSkipped)
  | some n =>
    match c.update n with
    | some n' => ({ g with nodes := modifyFirst (·.id == c.id) (fun _ => n') g.nodes },
        o.countApplied)
    | none => ({ g with nodes := g.nodes.eraseP (·.id == c.id) }, o.countApplied.recordNode n)

/-- Applies one change to the first edge with its id. -/
def applyEdgeChange (s : Graph × ChangeOutcome) (c : EdgeChange) : Graph × ChangeOutcome :=
  let (g, o) := s
  match g.edge? c.id with
  | none => (g, o.countSkipped)
  | some e =>
    match c.update e with
    | some e' => ({ g with edges := modifyFirst (·.id == c.id) (fun _ => e') g.edges },
        o.countApplied)
    | none => ({ g with edges := g.edges.eraseP (·.id == c.id) }, o.countApplied.recordEdges [e])

/-- Folds a batch into the graph. The edges that lost an end go last, after all changes. -/
def applyChanges (g : Graph) (c : ChangeSet) : Graph × ChangeOutcome :=
  let (changed, o) := c.edges.foldl applyEdgeChange (c.nodes.foldl applyNodeChange (g, .start))
  let (kept, dangling) := changed.dropDangling
  (kept, o.recordEdges dangling)

end Graph

end BoxArrow
