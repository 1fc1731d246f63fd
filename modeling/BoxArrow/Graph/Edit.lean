import BoxArrow.Graph.Basic
import BoxArrow.Procedure

/-!
# Edits of a graph made one at a time

Nodes and edges added by hand get an id from a time stamp. Only drawing an edge can fail, when an
end of it is no node of the graph. Taking nodes out always takes out the edges that end at them.

## Main definitions

* `BoxArrow.freshId` — the first free id for a stamp.
* `BoxArrow.Graph.addNode`, `BoxArrow.Graph.relabel`.
* `BoxArrow.Graph.drawEdge`, `BoxArrow.Graph.connect` — drawing an edge, step by step and at once.
* `BoxArrow.Graph.deleteSelected`, `BoxArrow.Removed` — what was taken out is handed back.
-/

namespace BoxArrow

/-- The list with `f` applied to the first entry that satisfies `p`. -/
def modifyFirst {α : Type} (p : α → Bool) (f : α → α) : List α → List α
  | [] => []
  | a :: rest => if p a then f a :: rest else a :: modifyFirst p f rest

/-- The candidate `base-n`. -/
def numbered (base : String) (n : Nat) : String :=
  s!"{base}-{n}"

/-- The first of `base-n`, `base-(n+1)`, … that is not taken, after at most `tries` refusals. -/
def firstFree (taken : List String) (base : String) (n : Nat) : Nat → String
  | 0 => numbered base n
  | tries + 1 =>
    if taken.contains (numbered base n) then firstFree taken base (n + 1) tries
    else numbered base n

/-- The id `kind-stamp`, or where that is taken the free `kind-stamp-n` with the smallest `n ≥ 1`.
As many refusals as there are taken ids are enough, because the candidates are all different. -/
def freshId (kind : String) (stamp : Nat) (taken : List String) : String :=
  let base := s!"{kind}-{stamp}"
  if taken.contains base then firstFree taken base 1 taken.length else base

/-- Nodes and edges taken out of a graph. -/
structure Removed where
  nodes : List Node
  edges : List Edge
deriving DecidableEq, Repr

namespace Removed

/-- Nothing taken out. -/
def nothing : Removed := ⟨[], []⟩

/-- Whether nothing was taken out. -/
def isEmpty (r : Removed) : Bool :=
  r.nodes.isEmpty && r.edges.isEmpty

end Removed

namespace Graph

/-- The node that `addNode` appends: a free id for the stamp, and a place drawn from two random
words. -/
def newNode (g : Graph) (label : String) (stamp : Nat) (across down : UInt64) : Node :=
  Node.fresh (freshId "node" stamp g.nodeIds) label (Position.dropped across down)

/-- Appends a node made by hand. -/
def addNode (g : Graph) (label : String) (stamp : Nat) (across down : UInt64) : Graph :=
  { g with nodes := g.nodes ++ [g.newNode label stamp across down] }

/-- The edge that `connect` appends, with a free id for the stamp. -/
def newEdge (g : Graph) (source target : String) (stamp : Nat) : Edge :=
  Edge.fresh (freshId "edge" stamp g.edgeIds) source target

/-- Goes on only if there is a node with the given id. -/
def needNode (id : String) : Procedure GraphError Graph Unit := do
  unless (← get).hasNode id do throw (.unknownNode id)

/-- Appends an edge made by hand. Both its ends have to be nodes of the graph; of two missing ends
the source is named. -/
def drawEdge (source target : String) (stamp : Nat) : Procedure GraphError Graph Unit := do
  needNode source
  needNode target
  modify fun g => { g with edges := g.edges ++ [g.newEdge source target stamp] }

/-- The graph with an edge made by hand. -/
def connect (g : Graph) (source target : String) (stamp : Nat) : Except GraphError Graph :=
  (drawEdge source target stamp).outcome g

/-- Gives the first node with the given id a new label. A graph without such a node stays as it
is. -/
def relabel (g : Graph) (id label : String) : Graph :=
  { g with nodes := modifyFirst (·.id == id) (fun n => { n with label := label }) g.nodes }

/-- Whether both ends of an edge are nodes of the graph. -/
def joins (g : Graph) (e : Edge) : Bool :=
  g.hasNode e.source && g.hasNode e.target

/-- Takes out the edges that have lost an end, and hands them back in order. -/
def dropDangling (g : Graph) : Graph × List Edge :=
  ({ g with edges := g.edges.filter g.joins }, g.edges.filter fun e => !g.joins e)

/-- Takes out the selected nodes and the selected edges, and then the edges that have lost an
end. -/
def deleteSelected (g : Graph) : Graph × Removed :=
  let (kept, dangling) := dropDangling
    { nodes := g.nodes.filter fun n => !n.selected
      edges := g.edges.filter fun e => !e.selected }
  (kept, { nodes := g.nodes.filter (·.selected)
           edges := g.edges.filter (·.selected) ++ dangling })

end Graph

end BoxArrow
