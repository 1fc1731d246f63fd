import BoxArrow.Proofs.FirstOccurrence

/-!
# The check of a graph

`Graph.firstFault` looks for the first thing that is wrong with the two arrays of a graph. It finds
nothing exactly when the graph is valid, so that `Graph.ofParts` accepts the arrays of valid graphs
and no others. The fault that it finds in all others is the first in a fixed order: repeated node
ids go before edges, each by their places in the arrays, and the source of an edge before its
target.

## Main definitions

* `BoxArrow.Graph.IsFirstRepeat` — the first node with the id of a node before it.
* `BoxArrow.Graph.IsFirstDangling` — the first edge that has no node at one of its ends.

## Main results

* `BoxArrow.Graph.hasNode_eq_true`, `BoxArrow.Graph.hasEdge_eq_true` — the searches by id.
* `BoxArrow.Graph.firstFault_eq_none` — nothing is wrong with a valid graph and with no other.
* `BoxArrow.Graph.firstFault_eq_some` — what is wrong with all others.
* `BoxArrow.Graph.ofParts_eq_ok` — arrays are accepted exactly when they make up a valid graph.
* `BoxArrow.Graph.ofParts_decides_validity` — which arrays are accepted, and why not the others.
-/

namespace BoxArrow.Graph

variable {g : Graph} {id : String}

/-! ### Searches by id -/

theorem hasNode_eq_true : g.hasNode id = true ↔ id ∈ g.nodeIds := by
  rw [hasNode, nodeIds, List.any_eq_true, List.mem_map]
  simp only [beq_iff_eq]

theorem hasEdge_eq_true : g.hasEdge id = true ↔ id ∈ g.edgeIds := by
  rw [hasEdge, edgeIds, List.any_eq_true, List.mem_map]
  simp only [beq_iff_eq]

/-! ### Repeated ids and missing ends -/

/-- There is no repetition exactly when the entries differ from each other and from those seen. -/
theorem firstRepeat_eq_none (seen ids : List String) :
    firstRepeat seen ids = none ↔ ids.Nodup ∧ ∀ id ∈ ids, id ∉ seen := by
  induction ids generalizing seen with
  | nil => exact iff_of_true rfl ⟨List.nodup_nil, nofun⟩
  | cons id ids ih =>
    rw [firstRepeat]
    split_ifs with h
    · refine iff_of_false nofun fun hall => ?_
      exact hall.2 id List.mem_cons_self (List.contains_iff_mem.mp h)
    · rw [ih, List.nodup_cons, List.forall_mem_cons]
      rw [List.contains_iff_mem] at h
      constructor
      · rintro ⟨hnodup, hseen⟩
        refine ⟨⟨fun hmem => hseen id hmem List.mem_cons_self, hnodup⟩, h, fun i hi his => ?_⟩
        exact hseen i hi (List.mem_cons_of_mem _ his)
      · rintro ⟨⟨hnot, hnodup⟩, -, hseen⟩
        refine ⟨hnodup, fun i hi his => ?_⟩
        rcases List.mem_cons.mp his with rfl | his
        · exact hnot hi
        · exact hseen i hi his

/-- What is found is the first entry that was seen or that equals one before it. -/
theorem firstRepeat_eq_some {seen ids : List String} :
    firstRepeat seen ids = some id ↔
      ∃ before after, ids = before ++ id :: after ∧ firstRepeat seen before = none ∧
        (id ∈ seen ∨ id ∈ before) := by
  induction ids generalizing seen with
  | nil => simp [firstRepeat]
  | cons first ids ih =>
    rw [firstRepeat]
    -- An entry that was seen is found at once; all others are among those seen by the next ones.
    split_ifs with h
    · constructor
      · intro hfound
        obtain rfl := Option.some.inj hfound
        exact ⟨[], ids, rfl, rfl, .inl (List.contains_iff_mem.mp h)⟩
      · rintro ⟨_ | ⟨_, before⟩, after, hids, hnone, -⟩
        · rw [(List.cons_eq_cons.mp hids).1]
        · obtain ⟨rfl, -⟩ := List.cons_eq_cons.mp hids
          rw [firstRepeat, if_pos h] at hnone
          exact absurd hnone nofun
    · rw [ih]
      constructor
      · rintro ⟨before, after, rfl, hnone, hrepeat⟩
        refine ⟨first :: before, after, rfl, ?_, ?_⟩
        · rwa [firstRepeat, if_neg h]
        · rw [List.mem_cons] at hrepeat ⊢
          tauto
      · rintro ⟨_ | ⟨_, before⟩, after, hids, hnone, hrepeat⟩
        · obtain ⟨rfl, -⟩ := List.cons_eq_cons.mp hids
          rw [List.contains_iff_mem] at h
          exact absurd hrepeat (by simpa using h)
        · obtain ⟨rfl, rfl⟩ := List.cons_eq_cons.mp hids
          rw [firstRepeat, if_neg h] at hnone
          refine ⟨before, after, rfl, hnone, ?_⟩
          rw [List.mem_cons] at hrepeat ⊢
          tauto

theorem missingEnd_eq_none (ids : List String) (e : Edge) :
    missingEnd ids e = none ↔ e.source ∈ ids ∧ e.target ∈ ids := by
  rw [missingEnd]
  split_ifs with hs ht <;> simp_all

theorem missingEnd_eq_some {ids : List String} {e : Edge} :
    missingEnd ids e = some id ↔
      ¬(e.source ∈ ids ∧ e.target ∈ ids) ∧ id = if e.source ∈ ids then e.target else e.source := by
  rw [missingEnd]
  by_cases hs : e.source ∈ ids
  · by_cases ht : e.target ∈ ids <;> simp [hs, ht, eq_comm (a := id)]
  · simp [hs, eq_comm (a := id)]

/-! ### The check as a whole -/

/-- The node is the first that has the id of a node before it. -/
def IsFirstRepeat (nodes : List Node) (n : Node) : Prop :=
  ∃ before after, nodes = before ++ n :: after ∧ (before.map (·.id)).Nodup ∧
    n.id ∈ before.map (·.id)

/-- The edge is the first that has an end outside of the given ids. -/
def IsFirstDangling (ids : List String) (edges : List Edge) (e : Edge) : Prop :=
  ∃ before after, edges = before ++ e :: after ∧
    (∀ d ∈ before, d.source ∈ ids ∧ d.target ∈ ids) ∧ ¬(e.source ∈ ids ∧ e.target ∈ ids)

theorem firstRepeat_nodeIds_eq_none : firstRepeat [] g.nodeIds = none ↔ g.nodeIds.Nodup :=
  (firstRepeat_eq_none [] g.nodeIds).trans (and_iff_left fun _ _ => List.not_mem_nil)

theorem firstRepeat_nodeIds_eq_some :
    firstRepeat [] g.nodeIds = some id ↔ ∃ n, IsFirstRepeat g.nodes n ∧ id = n.id := by
  simp only [firstRepeat_eq_some, firstRepeat_eq_none, List.not_mem_nil, not_false_eq_true,
    implies_true, and_true, false_or]
  constructor
  · rintro ⟨before, after, hids, hnodup, hrepeat⟩
    obtain ⟨ns, more, hnodes, rfl, hmore⟩ := List.map_eq_append_iff.mp hids
    obtain ⟨n, _, rfl, rfl, -⟩ := List.map_eq_cons_iff.mp hmore
    exact ⟨n, ⟨ns, _, hnodes, hnodup, hrepeat⟩, rfl⟩
  · rintro ⟨n, ⟨before, after, hnodes, hnodup, hrepeat⟩, rfl⟩
    refine ⟨before.map (·.id), after.map (·.id), ?_, hnodup, hrepeat⟩
    rw [nodeIds, hnodes, List.map_append, List.map_cons]

theorem findSome?_missingEnd_eq_some {ids : List String} {edges : List Edge} {fault : GraphError} :
    (edges.findSome? fun e => (missingEnd ids e).map (.danglingEdge e.id)) = some fault ↔
      ∃ e, IsFirstDangling ids edges e ∧
        fault = .danglingEdge e.id (if e.source ∈ ids then e.target else e.source) := by
  simp only [List.findSome?_eq_some_iff, Option.map_eq_some_iff, Option.map_eq_none_iff,
    missingEnd_eq_some, missingEnd_eq_none]
  constructor
  · rintro ⟨before, e, after, hedges, ⟨_, ⟨hmissing, rfl⟩, rfl⟩, hbefore⟩
    exact ⟨e, ⟨before, after, hedges, hbefore, hmissing⟩, rfl⟩
  · rintro ⟨e, ⟨before, after, hedges, hbefore, hmissing⟩, rfl⟩
    exact ⟨before, e, after, hedges, ⟨_, ⟨hmissing, rfl⟩, rfl⟩, hbefore⟩

/-- The check finds nothing wrong with valid graphs, and something with all others. -/
theorem firstFault_eq_none : g.firstFault = none ↔ g.Valid := by
  rw [firstFault, Valid]
  cases h : firstRepeat [] g.nodeIds with
  | some id =>
    refine iff_of_false nofun fun hvalid => ?_
    rw [firstRepeat_nodeIds_eq_none.mpr hvalid.1] at h
    exact absurd h nofun
  | none =>
    simp only [List.findSome?_eq_none_iff, Option.map_eq_none_iff, missingEnd_eq_none]
    exact (and_iff_right (firstRepeat_nodeIds_eq_none.mp h)).symm

/-- The check finds the first repeated node id, and where there is none the first dangling edge. -/
theorem firstFault_eq_some {fault : GraphError} :
    g.firstFault = some fault ↔
      (∃ n, IsFirstRepeat g.nodes n ∧ fault = .duplicateNode n.id) ∨
        g.nodeIds.Nodup ∧ ∃ e, IsFirstDangling g.nodeIds g.edges e ∧
          fault = .danglingEdge e.id (if e.source ∈ g.nodeIds then e.target else e.source) := by
  rw [firstFault]
  cases h : firstRepeat [] g.nodeIds with
  | some id =>
    have hnot : ¬g.nodeIds.Nodup := fun hnodup => by
      rw [firstRepeat_nodeIds_eq_none.mpr hnodup] at h
      exact absurd h nofun
    constructor
    · intro hfault
      obtain rfl := Option.some.inj hfault
      obtain ⟨n, hn, rfl⟩ := firstRepeat_nodeIds_eq_some.mp h
      exact .inl ⟨n, hn, rfl⟩
    · rintro (⟨n, hn, rfl⟩ | ⟨hnodup, -⟩)
      · rw [firstRepeat_nodeIds_eq_some.mpr ⟨n, hn, rfl⟩] at h
        rw [Option.some.inj h]
      · exact absurd hnodup hnot
  | none =>
    dsimp only
    rw [findSome?_missingEnd_eq_some]
    refine ⟨fun hdangling => .inr ⟨firstRepeat_nodeIds_eq_none.mp h, hdangling⟩, ?_⟩
    rintro (⟨n, hn, -⟩ | ⟨-, hdangling⟩)
    · rw [firstRepeat_nodeIds_eq_some.mpr ⟨n, hn, rfl⟩] at h
      exact absurd h nofun
    · exact hdangling

/-- Arrays are accepted as they are, exactly when they make up a valid graph. -/
theorem ofParts_eq_ok {nodes : List Node} {edges : List Edge} :
    ofParts nodes edges = .ok g ↔ (⟨nodes, edges⟩ : Graph).Valid ∧ g = ⟨nodes, edges⟩ := by
  rw [ofParts, ← firstFault_eq_none]
  cases firstFault ⟨nodes, edges⟩ with
  | none => simp [eq_comm]
  | some fault => simp

/-- Arrays are checked in full. They are accepted, as they are, exactly when the node ids differ
from each other and every edge joins two of the nodes. Otherwise they are refused for the first node
that has the id of a node before it, and only where node ids differ for the first edge with a
missing end: for its source when that is missing, and else for its target. -/
theorem ofParts_decides_validity (nodes : List Node) (edges : List Edge) :
    let ids := nodes.map (·.id)
    (∀ g, ofParts nodes edges = .ok g ↔
      (ids.Nodup ∧ ∀ e ∈ edges, e.source ∈ ids ∧ e.target ∈ ids) ∧ g = ⟨nodes, edges⟩) ∧
    ∀ fault, ofParts nodes edges = .error fault ↔
      (∃ n, IsFirstRepeat nodes n ∧ fault = .duplicateNode n.id) ∨
        ids.Nodup ∧ ∃ e, IsFirstDangling ids edges e ∧
          fault = .danglingEdge e.id (if e.source ∈ ids then e.target else e.source) := by
  refine ⟨fun g => ofParts_eq_ok, fun fault => ?_⟩
  have herror : ofParts nodes edges = .error fault ↔
      (⟨nodes, edges⟩ : Graph).firstFault = some fault := by
    rw [ofParts]
    cases firstFault ⟨nodes, edges⟩ with
    | none => simp
    | some found => simp
  exact herror.trans firstFault_eq_some

end BoxArrow.Graph
