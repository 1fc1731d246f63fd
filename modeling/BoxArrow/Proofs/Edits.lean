import BoxArrow.Graph.Change
import BoxArrow.Proofs.FreshIds
import BoxArrow.Proofs.Procedures
import BoxArrow.Proofs.Validity

/-!
# Edits keep a graph valid

Edits made by hand and batches from the editor turn valid graphs into valid graphs. A batch may take
out nodes before it comes to the edges that end at them, so that the graph is not valid in the
middle of it. What every single change keeps is that node ids are distinct, and the edges that have
lost an end are dropped after all changes.

## Main results

* `BoxArrow.Graph.connect_eq_ok` — which edges can be drawn.
* `BoxArrow.Graph.failsCleanly_drawEdge` — an edge that cannot be drawn leaves the graph as it is.
* `BoxArrow.Graph.valid_addNode`, `BoxArrow.Graph.valid_connect`, `BoxArrow.Graph.valid_relabel`.
* `BoxArrow.Graph.valid_dropDangling` — dropping the dangling edges repairs a graph.
* `BoxArrow.Graph.valid_deleteSelected`, `BoxArrow.Graph.valid_applyChanges`.
-/

namespace BoxArrow.Graph

open scoped List

variable {g : Graph}

theorem valid_empty : empty.Valid :=
  ⟨List.nodup_nil, nofun⟩

/-! ### Edits made by hand -/

/-- A graph with one node more is valid when the id of that node is new. -/
theorem valid_addNode (h : g.Valid) (label : String) (stamp : Nat) (across down : UInt64) :
    (g.addNode label stamp across down).Valid := by
  have hids : (g.addNode label stamp across down).nodeIds =
      g.nodeIds ++ [freshId "node" stamp g.nodeIds] := by
    rw [nodeIds, addNode, List.map_append, List.map_singleton]
    rfl
  rw [Valid, hids]
  refine ⟨?_, fun e he => ?_⟩
  · rw [← List.concat_eq_append, List.nodup_concat]
    exact ⟨freshId_notMem _ _ _, h.1⟩
  · exact ⟨List.mem_append_left _ (h.2 e he).1, List.mem_append_left _ (h.2 e he).2⟩

theorem run_needNode_eq_ok {id : String} {u : Unit} {g' : Graph} :
    (needNode id).run g = .ok u g' ↔ id ∈ g.nodeIds ∧ g' = g := by
  rw [needNode, EStateM.run_bind, EStateM.run_get, ← hasNode_eq_true]
  dsimp only
  split_ifs with hnode
  · simp [hnode, eq_comm]
  · exact iff_of_false nofun fun h => hnode h.1

theorem failsCleanly_needNode (id : String) : (needNode id).FailsCleanly (· = .unknownNode id) := by
  refine Procedure.failsCleanly_get_bind fun g => ?_
  split_ifs
  · exact (Procedure.neverFails_pure ()).failsCleanly _
  · rintro g e g' ⟨⟩
    exact ⟨rfl, rfl⟩

/-- An edge can be drawn between nodes of a graph. It goes to the end, and nothing else changes. -/
theorem run_drawEdge_eq_ok {source target : String} {stamp : Nat} {u : Unit} {g' : Graph} :
    (drawEdge source target stamp).run g = .ok u g' ↔ source ∈ g.nodeIds ∧ target ∈ g.nodeIds ∧
      g' = { g with edges := g.edges ++ [g.newEdge source target stamp] } := by
  simp only [drawEdge, Procedure.run_bind_eq_ok, run_needNode_eq_ok, EStateM.run_modify]
  constructor
  · rintro ⟨-, _, ⟨hsource, rfl⟩, -, _, ⟨htarget, rfl⟩, ⟨⟩⟩
    exact ⟨hsource, htarget, rfl⟩
  · rintro ⟨hsource, htarget, rfl⟩
    exact ⟨(), g, ⟨hsource, rfl⟩, (), g, ⟨htarget, rfl⟩, rfl⟩

theorem connect_eq_ok {source target : String} {stamp : Nat} {g' : Graph} :
    g.connect source target stamp = .ok g' ↔ source ∈ g.nodeIds ∧ target ∈ g.nodeIds ∧
      g' = { g with edges := g.edges ++ [g.newEdge source target stamp] } := by
  rw [connect, Procedure.outcome_eq_ok]
  simp only [run_drawEdge_eq_ok, exists_const]

/-- The ends are asked for before the edge is appended. -/
theorem failsCleanly_drawEdge (source target : String) (stamp : Nat) :
    (drawEdge source target stamp).FailsCleanly fun e => ∃ id, e = .unknownNode id := by
  have hneed (id : String) : (needNode id).FailsCleanly fun e => ∃ id, e = .unknownNode id :=
    (failsCleanly_needNode id).mono fun e he => ⟨id, he⟩
  have hkeeps (id : String) : (needNode id).Keeps :=
    fun _ _ _ hrun => (run_needNode_eq_ok.mp hrun).2
  exact (hneed source).bind_of_keeps (hkeeps source) fun _ =>
    (hneed target).bind_of_never fun _ => Procedure.neverFails_modify _

/-- Connecting asks for both ends, so that the new edge does not dangle. -/
theorem valid_connect (h : g.Valid) {source target : String} {stamp : Nat} {g' : Graph}
    (hok : g.connect source target stamp = .ok g') : g'.Valid := by
  obtain ⟨hsource, htarget, rfl⟩ := connect_eq_ok.mp hok
  refine ⟨h.1, fun e he => ?_⟩
  rcases List.mem_append.mp he with he | he
  · exact h.2 e he
  · obtain rfl := List.mem_singleton.mp he
    exact ⟨hsource, htarget⟩

theorem nodeIds_relabel (id label : String) : (g.relabel id label).nodeIds = g.nodeIds := by
  refine map_modifyFirst _ (fun n _ => ?_) _
  rfl

theorem valid_relabel (h : g.Valid) (id label : String) : (g.relabel id label).Valid := by
  rw [Valid, nodeIds_relabel]
  exact h

/-! ### Edges that have lost an end -/

theorem joins_eq_true {e : Edge} :
    g.joins e = true ↔ e.source ∈ g.nodeIds ∧ e.target ∈ g.nodeIds := by
  rw [joins, Bool.and_eq_true, hasNode_eq_true, hasNode_eq_true]

/-- Dropping the dangling edges makes a graph valid, provided that its node ids are distinct. -/
theorem valid_dropDangling (h : g.nodeIds.Nodup) : g.dropDangling.1.Valid :=
  ⟨h, fun _ he => joins_eq_true.mp (List.mem_filter.mp he).2⟩

theorem valid_deleteSelected (h : g.Valid) : g.deleteSelected.1.Valid :=
  valid_dropDangling (h.1.sublist (List.filter_sublist.map _))

/-! ### Batches from the editor -/

theorem NodeChange.id_update {c : NodeChange} {n n' : Node} (h : c.update n = some n') :
    n'.id = n.id := by
  cases c with
  | position id p =>
    cases p <;> obtain rfl := Option.some.inj h <;> rfl
  | dimensions id s =>
    cases s <;> obtain rfl := Option.some.inj h <;> rfl
  | select id selected =>
    obtain rfl := Option.some.inj h
    rfl
  | remove id => exact absurd h nofun

variable (s : Graph × ChangeOutcome)

/-- A change of a node keeps the ids of nodes or takes one out. -/
theorem nodeIds_applyNodeChange (c : NodeChange) :
    (applyNodeChange s c).1.nodeIds <+ s.1.nodeIds := by
  rw [applyNodeChange]
  cases hfound : s.1.node? c.id with
  | none => exact List.Sublist.refl _
  | some n =>
    dsimp only
    have hn : n.id = c.id := by simpa using List.find?_some hfound
    cases hupdate : c.update n with
    | none => exact (List.eraseP_sublist).map _
    | some n' =>
      rw [nodeIds, map_modifyFirst]
      · exact List.Sublist.refl _
      · intro a ha
        rw [NodeChange.id_update hupdate, hn]
        exact (beq_iff_eq.mp ha).symm

theorem nodeIds_foldl_applyNodeChange (cs : List NodeChange) :
    (cs.foldl applyNodeChange s).1.nodeIds <+ s.1.nodeIds := by
  induction cs generalizing s with
  | nil => exact List.Sublist.refl _
  | cons c cs ih => exact (ih _).trans (nodeIds_applyNodeChange s c)

/-- A change of an edge leaves the nodes alone. -/
theorem nodes_applyEdgeChange (c : EdgeChange) : (applyEdgeChange s c).1.nodes = s.1.nodes := by
  rw [applyEdgeChange]
  cases s.1.edge? c.id with
  | none => rfl
  | some e =>
    dsimp only
    cases c.update e <;> rfl

theorem nodes_foldl_applyEdgeChange (cs : List EdgeChange) :
    (cs.foldl applyEdgeChange s).1.nodes = s.1.nodes := by
  induction cs generalizing s with
  | nil => rfl
  | cons c cs ih => rw [List.foldl_cons, ih, nodes_applyEdgeChange]

theorem valid_applyChanges (h : g.Valid) (c : ChangeSet) : (g.applyChanges c).1.Valid := by
  refine valid_dropDangling (h.1.sublist ?_)
  rw [nodeIds, nodes_foldl_applyEdgeChange]
  exact nodeIds_foldl_applyNodeChange (g, .start) c.nodes

end BoxArrow.Graph
