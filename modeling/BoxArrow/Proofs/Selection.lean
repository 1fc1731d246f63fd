import BoxArrow.Proofs.Batches

/-!
# Deleting the selection

Deleting parts the nodes of a graph in two, by whether they are selected, and the edges in three: the
selected ones, the others that end at a selected node, and those that stay. In a valid graph every
end of an edge is one node, which is either selected or not, so that no edge is counted twice and
none is forgotten, also where it is selected and loses its ends, or joins a node to itself.

## Main definitions

* `BoxArrow.Graph.unselected` — the graph without the selected elements.
* `BoxArrow.Graph.HasMarked` — nodes by their selection.

## Main results

* `BoxArrow.Graph.dropDangling_append` — the edges of a valid graph do not dangle, others do.
* `BoxArrow.Graph.deleteSelected_of_unselected` — where nothing is selected, nothing is deleted.
* `BoxArrow.Graph.deleteSelected_splits` — what stays and what is handed back.
-/

namespace BoxArrow.Graph

open scoped List

variable {g : Graph} {id : String} {e : Edge}

/-! ### Selected and other nodes -/

/-- The graph has a node with this id that is selected, or one that is not. -/
def HasMarked (g : Graph) (selected : Bool) (id : String) : Prop :=
  ∃ n ∈ g.nodes, n.id = id ∧ n.selected = selected

instance (g : Graph) (selected : Bool) (id : String) : Decidable (g.HasMarked selected id) :=
  inferInstanceAs (Decidable (∃ n ∈ g.nodes, _))

/-- In a valid graph, a node is selected or it is not. -/
theorem hasMarked_true_iff (hg : g.Valid) (hid : id ∈ g.nodeIds) :
    g.HasMarked true id ↔ ¬ g.HasMarked false id := by
  constructor
  · rintro ⟨n, hn, hname, hselected⟩ ⟨m, hm, hname', hselected'⟩
    obtain rfl : n = m := List.inj_on_of_nodup_map hg.1 hn hm (hname.trans hname'.symm)
    exact Bool.false_ne_true (hselected'.symm.trans hselected)
  · intro hnot
    obtain ⟨n, hn, hname⟩ := List.mem_map.mp hid
    refine ⟨n, hn, hname, ?_⟩
    by_contra hselected
    exact hnot ⟨n, hn, hname, Bool.not_eq_true _ ▸ hselected⟩

/-- The graph without the selected nodes and edges, in which edges may have lost an end. -/
def unselected (g : Graph) : Graph where
  nodes := g.nodes.filter (·.selected = false)
  edges := g.edges.filter (·.selected = false)

theorem deleteSelected_eq (g : Graph) :
    g.deleteSelected = (g.unselected.dropDangling.1,
      { nodes := g.nodes.filter (·.selected = true)
        edges := g.edges.filter (·.selected = true) ++ g.unselected.dropDangling.2 }) := by
  simp [deleteSelected, unselected]

theorem joins_unselected :
    g.unselected.joins e = true ↔ g.HasMarked false e.source ∧ g.HasMarked false e.target := by
  have hids (id : String) : id ∈ g.unselected.nodeIds ↔ g.HasMarked false id := by
    simp [unselected, nodeIds, HasMarked, and_assoc, and_comm (a := _ = false)]
  rw [joins_eq_true, hids, hids]

/-- The edges of a valid graph that lose an end are those that end at a selected node. -/
theorem joins_unselected_eq_false (hg : g.Valid) (he : e ∈ g.edges) :
    g.unselected.joins e = false ↔ g.HasMarked true e.source ∨ g.HasMarked true e.target := by
  obtain ⟨hsource, htarget⟩ := hg.2 e he
  rw [← Bool.not_eq_true, joins_unselected, hasMarked_true_iff hg hsource,
    hasMarked_true_iff hg htarget, not_and_or]

/-! ### Edges that have lost an end -/

/-- Edges that end at other nodes are dropped from a valid graph, and no edge of its own is. -/
theorem dropDangling_append (hg : g.Valid) {made : List Edge}
    (hmade : ∀ e ∈ made, g.joins e = false) :
    ({ g with edges := g.edges ++ made } : Graph).dropDangling = (g, made) := by
  have hown : ∀ e ∈ g.edges, g.joins e = true := fun e he => joins_eq_true.mpr (hg.2 e he)
  have hkept : (g.edges ++ made).filter g.joins = g.edges := by
    rw [List.filter_append, List.filter_eq_self.mpr hown,
      List.filter_eq_nil_iff.mpr (by simpa using hmade), List.append_nil]
  have hdropped : ((g.edges ++ made).filter fun e => !g.joins e) = made := by
    rw [List.filter_append, List.filter_eq_nil_iff.mpr (by simpa using hown), List.nil_append,
      List.filter_eq_self.mpr (by simpa using hmade)]
  have hjoins : ({ g with edges := g.edges ++ made } : Graph).joins = g.joins := joins_congr g rfl
  rw [dropDangling, hjoins, hkept, hdropped]

/-- A valid graph has no dangling edges. -/
theorem dropDangling_of_valid (hg : g.Valid) : g.dropDangling = (g, []) := by
  simpa using @dropDangling_append g hg [] nofun

/-! ### Graphs without a selection -/

/-- Where nothing is selected, nothing is deleted. -/
theorem deleteSelected_of_unselected (hg : g.Valid) (hnodes : ∀ n ∈ g.nodes, n.selected = false)
    (hedges : ∀ e ∈ g.edges, e.selected = false) : g.deleteSelected = (g, .nothing) := by
  have hself : g.unselected = g :=
    congrArg₂ Graph.mk (List.filter_eq_self.mpr (by simpa using hnodes))
      (List.filter_eq_self.mpr (by simpa using hedges))
  have hnone : g.nodes.filter (·.selected = true) = [] := by
    simpa [List.filter_eq_nil_iff] using hnodes
  have hnone' : g.edges.filter (·.selected = true) = [] := by
    simpa [List.filter_eq_nil_iff] using hedges
  rw [deleteSelected_eq, hself, dropDangling_of_valid hg, hnone, hnone']
  rfl

/-! ### The parts of a graph -/

theorem edges_deleteSelected (g : Graph) :
    g.deleteSelected.1.edges = g.edges.filter fun e =>
      e.selected = false ∧ g.HasMarked false e.source ∧ g.HasMarked false e.target := by
  rw [deleteSelected_eq]
  change (g.edges.filter _).filter _ = _
  rw [List.filter_filter]
  refine List.filter_congr fun e _ => ?_
  rw [Bool.eq_iff_iff]
  simp [joins_unselected, and_comm]

theorem removedEdges_deleteSelected (hg : g.Valid) :
    g.deleteSelected.2.edges = g.edges.filter (·.selected = true) ++ g.edges.filter fun e =>
      e.selected = false ∧ (g.HasMarked true e.source ∨ g.HasMarked true e.target) := by
  rw [deleteSelected_eq]
  change _ ++ (g.edges.filter _).filter _ = _
  rw [List.filter_filter]
  congr 1
  refine List.filter_congr fun e he => ?_
  rw [Bool.eq_iff_iff]
  simp [joins_unselected_eq_false hg he, and_comm]

/-- Every edge stays or is handed back, and it does so once. -/
theorem perm_edges_deleteSelected (g : Graph) :
    g.deleteSelected.1.edges ++ g.deleteSelected.2.edges ~ g.edges := by
  rw [deleteSelected_eq]
  have hunselected : (g.edges.filter fun e => !decide (e.selected = true)) = g.unselected.edges := by
    simp [unselected]
  calc g.unselected.edges.filter g.unselected.joins ++
        (g.edges.filter (·.selected = true) ++ g.unselected.edges.filter fun e =>
          !g.unselected.joins e)
      ~ g.edges.filter (·.selected = true) ++ (g.unselected.edges.filter g.unselected.joins ++
          g.unselected.edges.filter fun e => !g.unselected.joins e) := by
        rw [← List.append_assoc, ← List.append_assoc]
        exact List.perm_append_comm.append_right _
    _ ~ g.edges.filter (·.selected = true) ++ g.unselected.edges :=
        (List.filter_append_perm _ _).append_left _
    _ ~ g.edges := hunselected ▸ List.filter_append_perm _ _

/-- No edge both stays and is handed back. -/
theorem disjoint_edges_deleteSelected (hg : g.Valid) :
    g.deleteSelected.1.edges.Disjoint g.deleteSelected.2.edges := by
  intro e hstays hgoes
  rw [edges_deleteSelected, List.mem_filter, decide_eq_true_iff, ← joins_unselected] at hstays
  obtain ⟨hmem, hselected, hjoins⟩ := hstays
  simp only [removedEdges_deleteSelected hg, List.mem_append, List.mem_filter,
    decide_eq_true_iff, ← joins_unselected_eq_false hg hmem] at hgoes
  rcases hgoes with ⟨-, hgoes⟩ | ⟨-, -, hgoes⟩
  · exact Bool.false_ne_true (hselected.symm.trans hgoes)
  · exact Bool.false_ne_true (hgoes.symm.trans hjoins)

/-- Deleting the selection splits a valid graph. The nodes that stay are those which are not
selected, and the edges that stay are those which are not selected and whose ends stay, both in
their order and as they were. The selected nodes are handed back in their order, and then the
selected edges and the others that end at a selected node, each in their order, so that every edge
is in exactly one place. The graph that stays is valid and has no selected element, and deleting
again deletes nothing. -/
theorem deleteSelected_splits (hg : g.Valid) :
    let kept := g.deleteSelected.1
    let removed := g.deleteSelected.2
    kept.nodes = g.nodes.filter (·.selected = false) ∧
      (kept.edges = g.edges.filter fun e =>
        e.selected = false ∧ g.HasMarked false e.source ∧ g.HasMarked false e.target) ∧
      removed.nodes = g.nodes.filter (·.selected = true) ∧
      (removed.edges = g.edges.filter (·.selected = true) ++ g.edges.filter fun e =>
        e.selected = false ∧ (g.HasMarked true e.source ∨ g.HasMarked true e.target)) ∧
      (kept.edges ++ removed.edges ~ g.edges ∧ kept.edges.Disjoint removed.edges) ∧
      kept.Valid ∧ (∀ n ∈ kept.nodes, n.selected = false) ∧
      (∀ e ∈ kept.edges, e.selected = false) ∧ kept.deleteSelected = (kept, .nothing) := by
  intro kept removed
  have hnodes : kept.nodes = g.nodes.filter (·.selected = false) := by
    simp only [kept, deleteSelected_eq]
    rfl
  have hedges := edges_deleteSelected g
  have hvalid : kept.Valid := valid_deleteSelected hg
  have hcalm : ∀ n ∈ kept.nodes, n.selected = false := by simp [hnodes]
  have hcalm' : ∀ e ∈ kept.edges, e.selected = false := by
    intro e he
    rw [hedges, List.mem_filter, decide_eq_true_iff] at he
    exact he.2.1
  refine ⟨hnodes, hedges, ?_, removedEdges_deleteSelected hg,
    ⟨perm_edges_deleteSelected g, disjoint_edges_deleteSelected hg⟩, hvalid, hcalm, hcalm',
    deleteSelected_of_unselected hvalid hcalm hcalm'⟩
  simp only [removed, deleteSelected_eq]

/-- Loops at a selected node and at another one, parallel edges of which one is selected, and a
selected edge that loses an end as well. -/
theorem deleteSelected_splits_loops :
    let g : Graph :=
      { nodes := [{ Node.fresh "a" "A" ⟨0, 0⟩ with selected := true }, Node.fresh "b" "B" ⟨1, 0⟩,
          Node.fresh "c" "C" ⟨0, 1⟩]
        edges := [Edge.fresh "loop" "a" "a", { Edge.fresh "first" "b" "c" with selected := true },
          Edge.fresh "second" "b" "c", { Edge.fresh "both" "a" "b" with selected := true },
          Edge.fresh "back" "c" "a", Edge.fresh "stay" "b" "b"] }
    let kept := g.deleteSelected.1
    let removed := g.deleteSelected.2
    g.Valid ∧ kept.nodeIds = ["b", "c"] ∧ kept.edgeIds = ["second", "stay"] ∧
      removed.nodes.map (·.id) = ["a"] ∧
      removed.edges.map (·.id) = ["first", "both", "loop", "back"] ∧
      kept.edges ++ removed.edges ~ g.edges ∧ kept.Valid ∧
      kept.deleteSelected = (kept, .nothing) := by
  intro g kept removed
  have hvalid : g.Valid := by decide
  obtain ⟨-, -, -, -, ⟨hperm, -⟩, hvalid', -, -, hagain⟩ := deleteSelected_splits hvalid
  exact ⟨hvalid, by decide +kernel, by decide +kernel, by decide +kernel, by decide +kernel, hperm,
    hvalid', hagain⟩

end BoxArrow.Graph
