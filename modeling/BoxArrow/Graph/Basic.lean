import BoxArrow.Geometry

/-!
# Graphs of nodes and edges

A graph is an array of nodes and an array of edges; the order of both is part of it. A graph is
*valid* when no two nodes share an id and every edge joins nodes of the graph. Validity is a
predicate and no part of the type: arrays that come from elsewhere are checked with
`Graph.ofParts`, and the error names the first thing that is wrong.

## Main definitions

* `BoxArrow.Node`, `BoxArrow.Edge`, `BoxArrow.Graph`.
* `BoxArrow.Graph.Valid` — unique node ids and no dangling edge.
* `BoxArrow.Graph.firstFault`, `BoxArrow.Graph.ofParts` — the check of untrusted arrays.
-/

namespace BoxArrow

/-- A node of a diagram. -/
structure Node where
  /-- The identity of the node within its graph. -/
  id : String
  /-- The text shown in the node. -/
  label : String
  /-- Where the top left corner stands. -/
  position : Position
  /-- How large the node is drawn. -/
  size : Size
  /-- Whether the editor has the node selected. -/
  selected : Bool
deriving DecidableEq, Repr, Inhabited, BEq

/-- How an edge is routed. There is one style. -/
inductive EdgeKind where
  | smoothStep
deriving DecidableEq, Repr, Inhabited

/-- An arrow between two nodes of a diagram. -/
structure Edge where
  /-- The identity of the edge within its graph. -/
  id : String
  /-- The id of the node at the tail. -/
  source : String
  /-- The id of the node at the head. -/
  target : String
  /-- The text shown beside the arrow, if any. -/
  label : Option String
  /-- How the arrow is routed. -/
  kind : EdgeKind
  /-- Whether the editor has the edge selected. -/
  selected : Bool
deriving DecidableEq, Repr, Inhabited

/-- The nodes and the edges of one diagram, each in order. -/
structure Graph where
  nodes : List Node
  edges : List Edge
deriving DecidableEq, Repr, BEq

/-- What can be wrong with a graph or with an edit of it. -/
inductive GraphError where
  /-- An edit names a node that is not there. -/
  | unknownNode (id : String)
  /-- Two nodes have the same id. -/
  | duplicateNode (id : String)
  /-- An edge names a node that is not there. -/
  | danglingEdge (edge node : String)
deriving DecidableEq, Repr

/-- The wording of a graph error. -/
def GraphError.message : GraphError → String
  | unknownNode id => s!"node `{id}` does not exist"
  | duplicateNode id => s!"node id `{id}` is used more than once"
  | danglingEdge edge node => s!"edge `{edge}` references missing node `{node}`"

/-- An unselected node of the usual size. -/
def Node.fresh (id label : String) (position : Position) : Node where
  id := id
  label := label
  position := position
  size := Size.default
  selected := false

/-- An unlabelled, unselected edge with the given id. -/
def Edge.fresh (id source target : String) : Edge where
  id := id
  source := source
  target := target
  label := none
  kind := .smoothStep
  selected := false

/-- The edge that a text gives for a pair of nodes; its id is the two ids joined by a hyphen. -/
def Edge.between (source target : String) (label : Option String) : Edge :=
  { Edge.fresh s!"{source}-{target}" source target with label := label }

namespace Graph

instance : Inhabited Graph := ⟨⟨[], []⟩⟩

/-- The graph without nodes and edges. -/
def empty : Graph := ⟨[], []⟩

/-- Whether there are no nodes, and so no edges in a valid graph. -/
def isEmpty (g : Graph) : Bool :=
  g.nodes.isEmpty

/-- The ids of the nodes in order. -/
def nodeIds (g : Graph) : List String :=
  g.nodes.map (·.id)

/-- The ids of the edges in order. -/
def edgeIds (g : Graph) : List String :=
  g.edges.map (·.id)

/-- The first node with the given id. -/
def node? (g : Graph) (id : String) : Option Node :=
  g.nodes.find? (·.id == id)

/-- The first edge with the given id. -/
def edge? (g : Graph) (id : String) : Option Edge :=
  g.edges.find? (·.id == id)

/-- Whether some node has the given id. -/
def hasNode (g : Graph) (id : String) : Bool :=
  g.nodes.any (·.id == id)

/-- Whether some edge has the given id. -/
def hasEdge (g : Graph) (id : String) : Bool :=
  g.edges.any (·.id == id)

/-- A graph is valid when its node ids are distinct and every edge joins two of its nodes. -/
def Valid (g : Graph) : Prop :=
  g.nodeIds.Nodup ∧ ∀ e ∈ g.edges, e.source ∈ g.nodeIds ∧ e.target ∈ g.nodeIds

instance (g : Graph) : Decidable g.Valid :=
  inferInstanceAs (Decidable (_ ∧ _))

/-- The first entry that equals one before it, or one of those already seen. -/
def firstRepeat (seen : List String) : List String → Option String
  | [] => none
  | id :: rest => if seen.contains id then some id else firstRepeat (id :: seen) rest

/-- The endpoint of an edge that is missing among the given ids; the source is looked at first. -/
def missingEnd (ids : List String) (e : Edge) : Option String :=
  if !ids.contains e.source then some e.source
  else if !ids.contains e.target then some e.target
  else none

/-- The first thing that keeps a graph from being valid: a repeated node id before any dangling
edge. -/
def firstFault (g : Graph) : Option GraphError :=
  match firstRepeat [] g.nodeIds with
  | some id => some (.duplicateNode id)
  | none =>
    g.edges.findSome? fun e =>
      (missingEnd g.nodeIds e).map (.danglingEdge e.id)

/-- The graph with the given nodes and edges, provided that it is valid. -/
def ofParts (nodes : List Node) (edges : List Edge) : Except GraphError Graph :=
  match firstFault ⟨nodes, edges⟩ with
  | some fault => .error fault
  | none => .ok ⟨nodes, edges⟩

end Graph

end BoxArrow
