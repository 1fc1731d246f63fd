import BoxArrow.Proofs.Selection

/-!
# Taking back a node that was added

A node made by hand stands behind all other nodes, and edges drawn by hand stand behind all other
edges. Since the id of the node is new, no edge from before ends at it. Taking the node out leaves
the nodes from before, and of the edges it takes those that were drawn to the node and no others, so
that the graph from before is left. It makes no difference whether the editor reports the node as
removed, or the node is selected and the selection is deleted.

## Main definitions

* `BoxArrow.Stroke`, `BoxArrow.Graph.connectAll` — edges drawn one after the other.
* `BoxArrow.Graph.extended` — a graph with a node and edges behind its own.

## Main results

* `BoxArrow.Graph.connectAll_eq_ok` — what drawing edges adds to a graph.
* `BoxArrow.Graph.applyChanges_remove_extended`, `BoxArrow.Graph.deleteSelected_extended` — the two
  ways of taking out the last node.
* `BoxArrow.Graph.addNode_connectAll_undone` — a node and the edges drawn to it are taken back.
-/

namespace BoxArrow

/-- An edge to be drawn by hand. -/
structure Stroke where
  /-- The id of the node at the tail. -/
  source : String
  /-- The id of the node at the head. -/
  target : String
  /-- The time stamp for the id of the edge. -/
  stamp : Nat
deriving DecidableEq, Repr

namespace Graph

variable {g h : Graph} {strokes : List Stroke}

/-! ### Edges drawn in a row -/

/-- Draws edges one after the other, and stops at the first that cannot be drawn. -/
def connectAll (g : Graph) (strokes : List Stroke) : Except GraphError Graph :=
  strokes.foldlM (fun g s => g.connect s.source s.target s.stamp) g

theorem connectAll_cons_eq_ok {s : Stroke} :
    g.connectAll (s :: strokes) = .ok h ↔
      ∃ mid, g.connect s.source s.target s.stamp = .ok mid ∧ mid.connectAll strokes = .ok h := by
  rw [connectAll, List.foldlM_cons]
  cases g.connect s.source s.target s.stamp with
  | error fault => exact iff_of_false nofun nofun
  | ok mid =>
    constructor
    · exact fun hok => ⟨mid, rfl, hok⟩
    · rintro ⟨_, ⟨⟩, hok⟩
      exact hok

/-- Drawing edges keeps a graph valid. -/
theorem valid_connectAll (hg : g.Valid) (hok : g.connectAll strokes = .ok h) : h.Valid := by
  induction strokes generalizing g with
  | nil =>
    obtain rfl := Except.ok.inj hok
    exact hg
  | cons s strokes ih =>
    obtain ⟨mid, hfirst, hrest⟩ := connectAll_cons_eq_ok.mp hok
    exact ih (valid_connect hg hfirst) hrest

/-- The edges that are drawn go to the end in this order, and none of them is selected. -/
theorem connectAll_eq_ok (hok : g.connectAll strokes = .ok h) :
    ∃ made : List Edge, h = { g with edges := g.edges ++ made } ∧
      (made.map fun e => (e.source, e.target)) = (strokes.map fun s => (s.source, s.target)) ∧
      ∀ e ∈ made, e.selected = false := by
  induction strokes generalizing g with
  | nil =>
    obtain rfl := Except.ok.inj hok
    exact ⟨[], by rw [List.append_nil], rfl, nofun⟩
  | cons s strokes ih =>
    obtain ⟨mid, hfirst, hrest⟩ := connectAll_cons_eq_ok.mp hok
    obtain ⟨-, -, rfl⟩ := connect_eq_ok.mp hfirst
    obtain ⟨made, rfl, hends, hselected⟩ := ih hrest
    refine ⟨g.newEdge s.source s.target s.stamp :: made, by simp, ?_, ?_⟩
    · rw [List.map_cons, List.map_cons, hends]
      rfl
    · exact List.forall_mem_cons.mpr ⟨rfl, hselected⟩

/-! ### Edges that end at other nodes -/

/-- An edge that ends at a node which is not there has lost an end. -/
theorem joins_eq_false {e : Edge} {id : String} (hid : id ∉ g.nodeIds)
    (hends : e.source = id ∨ e.target = id) : g.joins e = false := by
  rw [← Bool.not_eq_true, joins_eq_true]
  rintro ⟨hsource, htarget⟩
  rcases hends with rfl | rfl
  · exact hid hsource
  · exact hid htarget

/-! ### The last node -/

/-- The graph with one node more, and further edges, behind those from before. -/
def extended (g : Graph) (n : Node) (made : List Edge) : Graph where
  nodes := g.nodes ++ [n]
  edges := g.edges ++ made

section Extended

variable {n : Node} {made : List Edge}

/-- A change of the last node, when it is the only one of its id. -/
theorem changed_extended (made : List Edge) (hid : n.id ∉ g.nodeIds) {c : NodeChange}
    (hc : c.id = n.id) :
    (g.extended n made).changed ⟨[c], []⟩ =
        ⟨g.nodes ++ (c.update n).toList, g.edges ++ made⟩ ∧
      NodeChange.kind.takenAll [c] (g.extended n made).nodes =
        if (c.update n).isSome then [] else [n] := by
  have hothers : ∀ m ∈ g.nodes, NodeChange.kind.name m ≠ NodeChange.kind.target c := by
    rintro m hm hname
    exact hid (List.mem_map.mpr ⟨m, hm, hname.trans hc⟩)
  constructor
  · have hafter : NodeChange.kind.after c (g.nodes ++ [n]) =
        g.nodes ++ ((c.update n).toList ++ []) := ChangeKind.after_append_cons hothers hc.symm
    rw [List.append_nil] at hafter
    exact congrArg₂ Graph.mk hafter rfl
  · rw [ChangeKind.takenAll, ChangeKind.takenAll, List.append_nil]
    exact ChangeKind.taken_append_cons hothers hc.symm

/-- Removing the last node takes out the edges that end at it. -/
theorem applyChanges_remove_extended (hg : g.Valid) (hid : n.id ∉ g.nodeIds)
    (hmade : ∀ e ∈ made, g.joins e = false) :
    ((g.extended n made).applyChanges ⟨[.remove n.id], []⟩).1 = g ∧
      ((g.extended n made).applyChanges ⟨[.remove n.id], []⟩).2.removed = ⟨[n], made⟩ := by
  obtain ⟨hchanged, htaken⟩ := changed_extended made hid (c := .remove n.id) rfl
  have hleft : (g.extended n made).changed ⟨[.remove n.id], []⟩ =
      { g with edges := g.edges ++ made } := by
    simpa [NodeChange.update] using hchanged
  rw [applyChanges_fst, removed_applyChanges, hleft, dropDangling_append hg hmade, htaken]
  exact ⟨rfl, rfl⟩

/-- Selecting the last node of a valid graph changes nothing else. -/
theorem applyChanges_select_extended (hvalid : (g.extended n made).Valid)
    (hid : n.id ∉ g.nodeIds) :
    ((g.extended n made).applyChanges ⟨[.select n.id true], []⟩).1 =
      g.extended { n with selected := true } made := by
  have hvalid' : (g.extended { n with selected := true } made).Valid := by
    simpa [Valid, nodeIds, extended] using hvalid
  rw [applyChanges_fst, (changed_extended made hid (c := .select n.id true) rfl).1]
  exact congrArg Prod.fst (dropDangling_of_valid hvalid')

/-- Deleting the selection takes out the last node and the edges that end at it, when nothing else
is selected. -/
theorem deleteSelected_extended (hg : g.Valid) (hmade : ∀ e ∈ made, g.joins e = false)
    (hn : n.selected = true) (hnodes : ∀ m ∈ g.nodes, m.selected = false)
    (hedges : ∀ e ∈ g.edges ++ made, e.selected = false) :
    (g.extended n made).deleteSelected = (g, ⟨[n], made⟩) := by
  have hunselected : (g.extended n made).unselected = { g with edges := g.edges ++ made } := by
    refine congrArg₂ Graph.mk ?_ (List.filter_eq_self.mpr (by simpa [extended] using hedges))
    rw [extended, List.filter_append, List.filter_eq_self.mpr (by simpa using hnodes)]
    simp [hn]
  have hselected : (g.extended n made).nodes.filter (·.selected = true) = [n] := by
    rw [extended, List.filter_append, List.filter_eq_nil_iff.mpr (by simpa using hnodes)]
    simp [hn]
  have hnone : (g.extended n made).edges.filter (·.selected = true) = [] := by
    rw [List.filter_eq_nil_iff]
    simpa [extended] using hedges
  rw [deleteSelected_eq, hunselected, dropDangling_append hg hmade, hselected, hnone,
    List.nil_append]

end Extended

/-- A node that was added to a valid graph and the edges drawn to it can be taken back. When the
editor reports the node as removed, the graph from before is left, and what is handed back are the
node and the edges in the order in which they were drawn. When nothing was selected before, the same
happens when the node is selected and the selection is deleted. -/
theorem addNode_connectAll_undone (hg : g.Valid) (label : String) (stamp : Nat)
    (across down : UInt64)
    (hends : ∀ s ∈ strokes, s.source = (g.newNode label stamp across down).id ∨
      s.target = (g.newNode label stamp across down).id)
    (hok : (g.addNode label stamp across down).connectAll strokes = .ok h) :
    let n := g.newNode label stamp across down
    let removal := h.applyChanges ⟨[.remove n.id], []⟩
    let selection := (h.applyChanges ⟨[.select n.id true], []⟩).1
    ∃ made : List Edge, h = g.extended n made ∧
      (made.map fun e => (e.source, e.target)) = (strokes.map fun s => (s.source, s.target)) ∧
      removal.1 = g ∧ removal.2.removed = ⟨[n], made⟩ ∧
      ((∀ m ∈ g.nodes, m.selected = false) → (∀ e ∈ g.edges, e.selected = false) →
        selection.deleteSelected = (g, ⟨[{ n with selected := true }], made⟩)) := by
  intro n removal selection
  have hvalid : h.Valid := valid_connectAll (valid_addNode hg label stamp across down) hok
  have hid : n.id ∉ g.nodeIds := freshId_notMem "node" stamp g.nodeIds
  obtain ⟨made, rfl, hmade, hselected⟩ := connectAll_eq_ok hok
  have hlost : ∀ e ∈ made, g.joins e = false := by
    intro e he
    have hpair : (e.source, e.target) ∈ strokes.map fun s => (s.source, s.target) :=
      hmade ▸ List.mem_map_of_mem he
    obtain ⟨s, hs, heq⟩ := List.mem_map.mp hpair
    obtain ⟨hsource, htarget⟩ := Prod.mk.inj heq
    exact joins_eq_false hid (hsource ▸ htarget ▸ hends s hs)
  obtain ⟨hgraph, hremoved⟩ := applyChanges_remove_extended hg hid hlost
  refine ⟨made, rfl, hmade, hgraph, hremoved, fun hnodes hedges => ?_⟩
  have hselection : selection = g.extended { n with selected := true } made :=
    applyChanges_select_extended hvalid hid
  rw [hselection]
  exact deleteSelected_extended hg hlost rfl hnodes
    (List.forall_mem_append.mpr ⟨hedges, hselected⟩)

/-- A node and edges whose stamps are taken already, among the edges one that leads back to the node
itself. -/
theorem addNode_connectAll_undone_ring :
    let g : Graph := { ring with nodes := ring.nodes ++ [Node.fresh "node-5" "N" ⟨0, 0⟩] }
    let strokes : List Stroke :=
      [⟨"node-5-1", "a", 1⟩, ⟨"b", "node-5-1", 1⟩, ⟨"node-5-1", "node-5-1", 1⟩]
    let n := g.newNode "New" 5 7 9
    let made : List Edge := [Edge.fresh "edge-1-1" "node-5-1" "a",
      Edge.fresh "edge-1-2" "b" "node-5-1", Edge.fresh "edge-1-3" "node-5-1" "node-5-1"]
    let h := g.extended n made
    g.Valid ∧ n.id = "node-5-1" ∧ (∀ s ∈ strokes, s.source = n.id ∨ s.target = n.id) ∧
      (g.addNode "New" 5 7 9).connectAll strokes = .ok h ∧
      (h.applyChanges ⟨[.remove n.id], []⟩).1 = g ∧
      (h.applyChanges ⟨[.remove n.id], []⟩).2.removed = ⟨[n], made⟩ ∧
      (∀ m ∈ g.nodes, m.selected = false) ∧ (∀ e ∈ g.edges, e.selected = false) ∧
      (h.applyChanges ⟨[.select n.id true], []⟩).1.deleteSelected =
        (g, ⟨[{ n with selected := true }], made⟩) := by
  intro g strokes n made h
  have hg : g.Valid := by decide
  have hends : ∀ s ∈ strokes, s.source = n.id ∨ s.target = n.id := by decide +kernel
  have hok : (g.addNode "New" 5 7 9).connectAll strokes = .ok h := by rfl
  have hnodes : ∀ m ∈ g.nodes, m.selected = false := by decide
  have hedges : ∀ e ∈ g.edges, e.selected = false := by decide
  obtain ⟨made', hh, -, hgraph, hremoved, hselection⟩ :=
    addNode_connectAll_undone hg "New" 5 7 9 hends hok
  obtain rfl : made = made' := List.append_cancel_left (congrArg edges hh)
  exact ⟨hg, by decide +kernel, hends, hok, hgraph, hremoved, hnodes, hedges,
    hselection hnodes hedges⟩

end Graph

end BoxArrow
