import BoxArrow.Proofs.ChangesInTurn
import BoxArrow.Proofs.Edits

/-!
# Batches from the editor

The changes of nodes and those of edges are two kinds of changes of a list in turn. What a batch
makes of a graph is told by these two lists and by one look at the ends of edges after all turns. So
a batch loses no element and invents none: whatever was there stays or is handed back, with the
parts that no change is there to change.

Two batches can be made into one. The changes of nodes in the second batch then have their turns
before the changes of edges in the first, which makes no difference, as neither look at the other
list. But edges that have lost an end in the first batch are still there for the changes of the
second. This makes no difference either, provided that the ids of edges are different: every edge
goes its own way, and those that have lost an end go in any case.

## Main definitions

* `BoxArrow.NodeChange.kind`, `BoxArrow.EdgeChange.kind` — the two kinds of changes.
* `BoxArrow.Node.lasting`, `BoxArrow.Edge.lasting` — what no change touches.

## Main results

* `BoxArrow.Graph.nodes_applyChanges`, `BoxArrow.Graph.edges_applyChanges` — what stays.
* `BoxArrow.Graph.removedNodes_applyChanges`, `BoxArrow.Graph.removedEdges_applyChanges` — what is
  handed back.
* `BoxArrow.Graph.applyChanges_accounts` — a batch loses nothing and invents nothing.
* `BoxArrow.Graph.applyChanges_append` — two batches made into one.
-/

namespace BoxArrow

open scoped List

/-! ### The two kinds of changes -/

/-- What no change of a node touches. -/
def Node.lasting (n : Node) : String × String :=
  (n.id, n.label)

/-- What no change of an edge touches. -/
def Edge.lasting (e : Edge) : String × String × String × Option String × EdgeKind :=
  (e.id, e.source, e.target, e.label, e.kind)

theorem NodeChange.lasting_update {c : NodeChange} {n n' : Node} (h : c.update n = some n') :
    n'.lasting = n.lasting := by
  cases c with
  | position id p =>
    cases p <;> obtain rfl := Option.some.inj h <;> rfl
  | dimensions id s =>
    cases s <;> obtain rfl := Option.some.inj h <;> rfl
  | select id selected =>
    obtain rfl := Option.some.inj h
    rfl
  | remove id => exact absurd h nofun

theorem EdgeChange.lasting_update {c : EdgeChange} {e e' : Edge} (h : c.update e = some e') :
    e'.lasting = e.lasting := by
  cases c with
  | select id selected =>
    obtain rfl := Option.some.inj h
    rfl
  | remove id => exact absurd h nofun

/-- Changes of nodes. -/
def NodeChange.kind : ChangeKind Node NodeChange where
  name n := n.id
  target c := c.id
  update c n := c.update n
  name_update h := congrArg Prod.fst (NodeChange.lasting_update h)

/-- Changes of edges. -/
def EdgeChange.kind : ChangeKind Edge EdgeChange where
  name e := e.id
  target c := c.id
  update c e := c.update e
  name_update h := congrArg Prod.fst (EdgeChange.lasting_update h)

theorem NodeChange.keeps_lasting : NodeChange.kind.Keeps Node.lasting :=
  fun _ _ _ h => NodeChange.lasting_update h

theorem EdgeChange.keeps_lasting : EdgeChange.kind.Keeps Edge.lasting :=
  fun _ _ _ h => EdgeChange.lasting_update h

/-- The changes that take an edge out are those that say so. -/
theorem EdgeChange.update_eq_none (c : EdgeChange) (e : Edge) :
    EdgeChange.kind.update c e = none ↔ c = .remove c.id := by
  cases c with
  | select id selected => exact iff_of_false nofun nofun
  | remove id => exact iff_of_true rfl rfl

/-! ### Changes by search -/

theorem modifyFirst_append_cons {α : Type} {p : α → Bool} {f : α → α} {before rest : List α} {a : α}
    (hbefore : ∀ b ∈ before, p b = false) (ha : p a = true) :
    modifyFirst p f (before ++ a :: rest) = before ++ f a :: rest := by
  induction before with
  | nil => exact if_pos ha
  | cons b before ih =>
    rw [List.forall_mem_cons] at hbefore
    rw [List.cons_append, modifyFirst, if_neg (Bool.eq_false_iff.mp hbefore.1), ih hbefore.2,
      List.cons_append]

/-- The turn of a change is a search by name, and an edit of what is found. -/
theorem ChangeKind.after_cases {α γ : Type} (k : ChangeKind α γ) (c : γ) (l : List α) :
    (l.find? (k.name · == k.target c) = none ∧ k.target c ∉ l.map k.name ∧ k.after c l = l ∧
      k.taken c l = []) ∨
    ∃ a, l.find? (k.name · == k.target c) = some a ∧ k.target c ∈ l.map k.name ∧
      ((∃ b, k.update c a = some b ∧ k.taken c l = [] ∧
          k.after c l = modifyFirst (k.name · == k.target c) (fun _ => b) l) ∨
        (k.update c a = none ∧ k.taken c l = [a] ∧
          k.after c l = l.eraseP (k.name · == k.target c))) := by
  cases hfound : l.find? (k.name · == k.target c) with
  | none =>
    have habsent : k.target c ∉ l.map k.name := by
      rw [List.mem_map]
      rintro ⟨a, ha, hname⟩
      exact List.find?_eq_none.mp hfound a ha (beq_iff_eq.mpr hname)
    exact .inl ⟨rfl, habsent, after_of_notMem habsent, taken_of_notMem habsent⟩
  | some a =>
    obtain ⟨ha, before, rest, rfl, hbefore⟩ := List.find?_eq_some_iff_append.mp hfound
    simp only [Bool.not_eq_true'] at hbefore
    have hname : k.name a = k.target c := beq_iff_eq.mp ha
    have hnames : ∀ b ∈ before, k.name b ≠ k.target c := fun b hb =>
      beq_eq_false_iff_ne.mp (hbefore b hb)
    have hmem : k.target c ∈ (before ++ a :: rest).map k.name :=
      hname ▸ List.mem_map_of_mem (List.mem_append_right _ List.mem_cons_self)
    refine .inr ⟨a, rfl, hmem, ?_⟩
    rw [taken_append_cons hnames hname, after_append_cons hnames hname]
    cases hup : k.update c a with
    | some b =>
      refine .inl ⟨b, rfl, rfl, ?_⟩
      rw [modifyFirst_append_cons hbefore ha]
      rfl
    | none =>
      refine .inr ⟨rfl, rfl, ?_⟩
      rw [List.eraseP_append_right _ (fun b hb => by simp [hbefore b hb]), List.eraseP_cons_of_pos]
      · rfl
      · exact ha

namespace Graph

variable {g : Graph}

/-! ### One turn -/

/-- The turn of a change of a node. -/
theorem applyNodeChange_eq (s : Graph × ChangeOutcome) (c : NodeChange) :
    applyNodeChange s c =
      ({ s.1 with nodes := NodeChange.kind.after c s.1.nodes },
        { applied := s.2.applied + if c.id ∈ s.1.nodeIds then 1 else 0
          skipped := s.2.skipped + if c.id ∈ s.1.nodeIds then 0 else 1
          removed := { s.2.removed with
            nodes := s.2.removed.nodes ++ NodeChange.kind.taken c s.1.nodes } }) := by
  obtain ⟨hfound, hid, hafter, htaken⟩ | ⟨n, hfound, hid, ⟨n', hup, htaken, hafter⟩ |
    ⟨hup, htaken, hafter⟩⟩ := NodeChange.kind.after_cases c s.1.nodes
  · change s.1.node? c.id = none at hfound
    change c.id ∉ s.1.nodeIds at hid
    rw [hafter, htaken, applyNodeChange, hfound, if_neg hid, if_neg hid, List.append_nil]
    rfl
  · change s.1.node? c.id = some n at hfound
    change c.id ∈ s.1.nodeIds at hid
    change c.update n = some n' at hup
    rw [hafter, htaken, applyNodeChange, hfound, if_pos hid, if_pos hid, List.append_nil]
    simp only [hup]
    rfl
  · change s.1.node? c.id = some n at hfound
    change c.id ∈ s.1.nodeIds at hid
    change c.update n = none at hup
    rw [hafter, htaken, applyNodeChange, hfound, if_pos hid, if_pos hid]
    simp only [hup]
    rfl

/-- The turn of a change of an edge. -/
theorem applyEdgeChange_eq (s : Graph × ChangeOutcome) (c : EdgeChange) :
    applyEdgeChange s c =
      ({ s.1 with edges := EdgeChange.kind.after c s.1.edges },
        { applied := s.2.applied + if c.id ∈ s.1.edgeIds then 1 else 0
          skipped := s.2.skipped + if c.id ∈ s.1.edgeIds then 0 else 1
          removed := { s.2.removed with
            edges := s.2.removed.edges ++ EdgeChange.kind.taken c s.1.edges } }) := by
  obtain ⟨hfound, hid, hafter, htaken⟩ | ⟨e, hfound, hid, ⟨e', hup, htaken, hafter⟩ |
    ⟨hup, htaken, hafter⟩⟩ := EdgeChange.kind.after_cases c s.1.edges
  · change s.1.edge? c.id = none at hfound
    change c.id ∉ s.1.edgeIds at hid
    rw [hafter, htaken, applyEdgeChange, hfound, if_neg hid, if_neg hid, List.append_nil]
    rfl
  · change s.1.edge? c.id = some e at hfound
    change c.id ∈ s.1.edgeIds at hid
    change c.update e = some e' at hup
    rw [hafter, htaken, applyEdgeChange, hfound, if_pos hid, if_pos hid, List.append_nil]
    simp only [hup]
    rfl
  · change s.1.edge? c.id = some e at hfound
    change c.id ∈ s.1.edgeIds at hid
    change c.update e = none at hup
    rw [hafter, htaken, applyEdgeChange, hfound, if_pos hid, if_pos hid]
    simp only [hup]
    rfl

/-! ### All turns -/

/-- The graph after the turns of changes of nodes, and what they took out. -/
theorem foldl_applyNodeChange (s : Graph × ChangeOutcome) (cs : List NodeChange) :
    (cs.foldl applyNodeChange s).1 =
        { s.1 with nodes := NodeChange.kind.afterAll cs s.1.nodes } ∧
      (cs.foldl applyNodeChange s).2.removed =
        { s.2.removed with
          nodes := s.2.removed.nodes ++ NodeChange.kind.takenAll cs s.1.nodes } := by
  induction cs generalizing s with
  | nil => exact ⟨rfl, by rw [ChangeKind.takenAll, List.append_nil]; rfl⟩
  | cons c cs ih =>
    obtain ⟨hgraph, hremoved⟩ := ih (applyNodeChange s c)
    rw [List.foldl_cons, hgraph, hremoved, applyNodeChange_eq, ChangeKind.afterAll_cons,
      ChangeKind.takenAll, List.append_assoc]
    exact ⟨rfl, rfl⟩

/-- The graph after the turns of changes of edges, and what they took out. -/
theorem foldl_applyEdgeChange (s : Graph × ChangeOutcome) (cs : List EdgeChange) :
    (cs.foldl applyEdgeChange s).1 =
        { s.1 with edges := EdgeChange.kind.afterAll cs s.1.edges } ∧
      (cs.foldl applyEdgeChange s).2.removed =
        { s.2.removed with
          edges := s.2.removed.edges ++ EdgeChange.kind.takenAll cs s.1.edges } := by
  induction cs generalizing s with
  | nil => exact ⟨rfl, by rw [ChangeKind.takenAll, List.append_nil]; rfl⟩
  | cons c cs ih =>
    obtain ⟨hgraph, hremoved⟩ := ih (applyEdgeChange s c)
    rw [List.foldl_cons, hgraph, hremoved, applyEdgeChange_eq, ChangeKind.afterAll_cons,
      ChangeKind.takenAll, List.append_assoc]
    exact ⟨rfl, rfl⟩

/-! ### What a batch makes of a graph -/

variable (g) (c : ChangeSet)

/-- The graph after all turns of a batch, in which edges may have lost an end. -/
def changed : Graph where
  nodes := NodeChange.kind.afterAll c.nodes g.nodes
  edges := EdgeChange.kind.afterAll c.edges g.edges

theorem foldl_eq_changed :
    (c.edges.foldl applyEdgeChange (c.nodes.foldl applyNodeChange (g, .start))).1 =
      g.changed c := by
  rw [(foldl_applyEdgeChange _ _).1, (foldl_applyNodeChange _ _).1]
  rfl

/-- A batch takes its turns, and then drops the edges that have lost an end. -/
theorem applyChanges_fst : (g.applyChanges c).1 = (g.changed c).dropDangling.1 := by
  rw [← foldl_eq_changed]
  rfl

theorem nodes_applyChanges :
    (g.applyChanges c).1.nodes = NodeChange.kind.afterAll c.nodes g.nodes := by
  rw [applyChanges_fst]
  rfl

theorem edges_applyChanges :
    (g.applyChanges c).1.edges =
      (EdgeChange.kind.afterAll c.edges g.edges).filter (g.applyChanges c).1.joins := by
  rw [applyChanges_fst]
  rfl

theorem removedNodes_applyChanges :
    (g.applyChanges c).2.removed.nodes = NodeChange.kind.takenAll c.nodes g.nodes := by
  change (c.edges.foldl applyEdgeChange (c.nodes.foldl applyNodeChange (g, .start))).2.removed.nodes
    = _
  rw [(foldl_applyEdgeChange _ _).2, (foldl_applyNodeChange _ _).2]
  rfl

theorem removedEdges_applyChanges :
    (g.applyChanges c).2.removed.edges =
      EdgeChange.kind.takenAll c.edges g.edges ++
        (EdgeChange.kind.afterAll c.edges g.edges).filter fun e =>
          !(g.applyChanges c).1.joins e := by
  have hturns : (c.edges.foldl applyEdgeChange
      (c.nodes.foldl applyNodeChange (g, .start))).2.removed.edges =
        EdgeChange.kind.takenAll c.edges g.edges := by
    rw [(foldl_applyEdgeChange _ _).2, (foldl_applyNodeChange _ _).2, (foldl_applyNodeChange _ _).1]
    rfl
  have hedges : EdgeChange.kind.afterAll c.edges g.edges = (g.changed c).edges := rfl
  rw [← hturns, hedges, applyChanges_fst, ← foldl_eq_changed]
  rfl

/-- What is handed back: what the changes take out in their turns, and the edges that have lost an
end after all of them. -/
theorem removed_applyChanges :
    (g.applyChanges c).2.removed =
      { nodes := NodeChange.kind.takenAll c.nodes g.nodes
        edges := EdgeChange.kind.takenAll c.edges g.edges ++ (g.changed c).dropDangling.2 } := by
  have hedges := removedEdges_applyChanges g c
  rw [applyChanges_fst] at hedges
  exact congrArg₂ Removed.mk (removedNodes_applyChanges g c) hedges

variable {g c}

/-- Every change counts once. -/
theorem applied_add_skipped (g : Graph) (c : ChangeSet) :
    (g.applyChanges c).2.applied + (g.applyChanges c).2.skipped =
      c.nodes.length + c.edges.length := by
  let m (s : Graph × ChangeOutcome) : Nat := s.2.applied + s.2.skipped
  have hnode (s : Graph × ChangeOutcome) (d : NodeChange) : m (applyNodeChange s d) = m s + 1 := by
    simp only [m, applyNodeChange_eq]
    split_ifs <;> omega
  have hedge (s : Graph × ChangeOutcome) (d : EdgeChange) : m (applyEdgeChange s d) = m s + 1 := by
    simp only [m, applyEdgeChange_eq]
    split_ifs <;> omega
  have hall := foldl_eq_add_length hedge (c.nodes.foldl applyNodeChange (g, .start)) c.edges
  rw [foldl_eq_add_length hnode] at hall
  exact hall.trans (congrArg (· + _) (Nat.zero_add _))

/-- A change is skipped when its element is not there in its turn. -/
theorem skipped_eq_countP (g : Graph) (c : ChangeSet) :
    (g.applyChanges c).2.skipped =
      (turns applyNodeChange (g, .start) c.nodes).countP (fun t => t.1.id ∉ t.2.1.nodeIds) +
        (turns applyEdgeChange (c.nodes.foldl applyNodeChange (g, .start)) c.edges).countP
          fun t => t.1.id ∉ t.2.1.edgeIds := by
  let m (s : Graph × ChangeOutcome) : Nat := s.2.skipped
  have hnode (s : Graph × ChangeOutcome) (d : NodeChange) :
      m (applyNodeChange s d) = m s + if decide (d.id ∉ s.1.nodeIds) then 1 else 0 := by
    simp only [m, applyNodeChange_eq, decide_not, Bool.not_eq_true', decide_eq_false_iff_not,
      ite_not]
  have hedge (s : Graph × ChangeOutcome) (d : EdgeChange) :
      m (applyEdgeChange s d) = m s + if decide (d.id ∉ s.1.edgeIds) then 1 else 0 := by
    simp only [m, applyEdgeChange_eq, decide_not, Bool.not_eq_true', decide_eq_false_iff_not,
      ite_not]
  have hnodes := foldl_eq_add_countP_turns (p := fun t => t.1.id ∉ t.2.1.nodeIds) hnode (g, .start)
    c.nodes
  have hall := foldl_eq_add_countP_turns (p := fun t => t.1.id ∉ t.2.1.edgeIds) hedge
    (c.nodes.foldl applyNodeChange (g, .start)) c.edges
  rw [hnodes] at hall
  exact hall.trans (congrArg (· + _) (Nat.zero_add _))

/-! ### Nothing is lost and nothing invented -/

theorem perm_nodes_applyChanges (g : Graph) (c : ChangeSet) :
    ((g.applyChanges c).1.nodes ++ (g.applyChanges c).2.removed.nodes).map Node.lasting ~
      g.nodes.map Node.lasting := by
  rw [nodes_applyChanges, removedNodes_applyChanges]
  exact ChangeKind.perm_afterAll NodeChange.keeps_lasting _ _

theorem perm_edges_applyChanges (g : Graph) (c : ChangeSet) :
    ((g.applyChanges c).1.edges ++ (g.applyChanges c).2.removed.edges).map Edge.lasting ~
      g.edges.map Edge.lasting := by
  refine List.Perm.trans ?_ (ChangeKind.perm_afterAll EdgeChange.keeps_lasting c.edges g.edges)
  rw [edges_applyChanges, removedEdges_applyChanges]
  refine List.Perm.map _ ?_
  calc _ ~ _ := List.perm_append_comm.append_left _
    _ = _ := (List.append_assoc _ _ _).symm
    _ ~ _ := (List.filter_append_perm _ _).append_right _

theorem nodes_applyChanges_sublist (g : Graph) (c : ChangeSet) {β : Type} {f : Node → β}
    (hf : NodeChange.kind.Keeps f) : (g.applyChanges c).1.nodes.map f <+ g.nodes.map f := by
  rw [nodes_applyChanges]
  exact ChangeKind.afterAll_sublist hf _ _

theorem edges_applyChanges_sublist (g : Graph) (c : ChangeSet) {β : Type} {f : Edge → β}
    (hf : EdgeChange.kind.Keeps f) : (g.applyChanges c).1.edges.map f <+ g.edges.map f := by
  rw [edges_applyChanges]
  exact (List.filter_sublist.map f).trans (ChangeKind.afterAll_sublist hf _ _)

/-- Nodes that no change names are as they were. -/
theorem unnamed_nodes_applyChanges (g : Graph) (c : ChangeSet) :
    ((g.applyChanges c).1.nodes.filter fun n => n.id ∉ c.nodes.map (·.id)) =
      g.nodes.filter fun n => n.id ∉ c.nodes.map (·.id) := by
  rw [nodes_applyChanges]
  exact ChangeKind.filter_afterAll (k := NodeChange.kind)
    (fun n hn => decide_eq_false (not_not_intro hn)) g.nodes

/-- Edges that no change names are as they were, whether they stay or have lost an end. -/
theorem unnamed_edges_applyChanges (g : Graph) (c : ChangeSet) :
    let unnamed := g.edges.filter fun e => e.id ∉ c.edges.map (·.id)
    ((g.applyChanges c).1.edges.filter fun e => e.id ∉ c.edges.map (·.id)) =
        unnamed.filter (g.applyChanges c).1.joins ∧
      ((g.applyChanges c).2.removed.edges.filter fun e => e.id ∉ c.edges.map (·.id)) =
        unnamed.filter fun e => !(g.applyChanges c).1.joins e := by
  have hnamed (e : Edge) (he : e.id ∈ c.edges.map (·.id)) :
      decide (e.id ∉ c.edges.map (·.id)) = false := decide_eq_false (not_not_intro he)
  have hafter := ChangeKind.filter_afterAll (k := EdgeChange.kind) hnamed g.edges
  have htaken := ChangeKind.filter_takenAll (k := EdgeChange.kind) hnamed g.edges
  constructor
  · rw [edges_applyChanges, List.filter_comm, hafter]
  · rw [removedEdges_applyChanges, List.filter_append, htaken, List.nil_append, List.filter_comm,
      hafter]

/-! ### Edges with ids of their own -/

theorem keeps_joins (g : Graph) : EdgeChange.kind.Keeps g.joins := by
  intro c e e' h
  have hlasting := EdgeChange.keeps_lasting h
  simp only [Edge.lasting, Prod.mk.injEq] at hlasting
  rw [joins, joins, hlasting.2.1, hlasting.2.2.1]

/-- Where edge ids are distinct, every edge goes its own way through a batch. -/
theorem edges_applyChanges_of_nodup (hids : g.edgeIds.Nodup) (c : ChangeSet) :
    (g.applyChanges c).1.edges =
      (g.edges.filterMap (EdgeChange.kind.fate c.edges)).filter (g.applyChanges c).1.joins := by
  rw [edges_applyChanges, ChangeKind.afterAll_eq_filterMap (k := EdgeChange.kind) hids]

/-- The changes of a batch that take an edge out. -/
theorem fate_edge_eq_none {cs : List EdgeChange} {e : Edge} :
    EdgeChange.kind.fate cs e = none ↔ .remove e.id ∈ cs := by
  rw [ChangeKind.fate_eq_none EdgeChange.update_eq_none]
  constructor
  · rintro ⟨c, hc, hid, hremove⟩
    change c.id = e.id at hid
    rwa [← hid, ← hremove]
  · exact fun h => ⟨_, h, rfl, rfl⟩

/-- Where edge ids are distinct, an edge stays exactly when no change removes it and both its ends
stay. -/
theorem stays_iff (hids : g.edgeIds.Nodup) (c : ChangeSet) {e : Edge} (he : e ∈ g.edges) :
    e.lasting ∈ (g.applyChanges c).1.edges.map Edge.lasting ↔
      .remove e.id ∉ c.edges ∧ e.source ∈ (g.applyChanges c).1.nodeIds ∧
        e.target ∈ (g.applyChanges c).1.nodeIds := by
  rw [edges_applyChanges_of_nodup hids, ← joins_eq_true, ← fate_edge_eq_none, List.mem_map]
  constructor
  · rintro ⟨f, hf, hlasting⟩
    obtain ⟨hmem, hjoins⟩ := List.mem_filter.mp hf
    obtain ⟨d, hd, hfate⟩ := List.mem_filterMap.mp hmem
    have hsame : d.lasting = e.lasting :=
      (EdgeChange.keeps_lasting.fate hfate).symm.trans hlasting
    obtain rfl : d = e := List.inj_on_of_nodup_map hids hd he (congrArg Prod.fst hsame)
    rw [(keeps_joins _).fate hfate] at hjoins
    exact ⟨Option.ne_none_iff_exists'.mpr ⟨f, hfate⟩, hjoins⟩
  · rintro ⟨hfate, hjoins⟩
    obtain ⟨f, hf⟩ := Option.ne_none_iff_exists'.mp hfate
    refine ⟨f, List.mem_filter.mpr ⟨List.mem_filterMap.mpr ⟨e, he, hf⟩, ?_⟩,
      EdgeChange.keeps_lasting.fate hf⟩
    rw [(keeps_joins _).fate hf, hjoins]

/-! ### The account of a batch -/

/-- A batch loses no element and invents none. Every change counts once, and it counts as skipped
when no element of its kind has its id in its turn. The nodes that stay and those handed back are
the nodes from before with their ids and labels, and in the same way the edges with their ids, ends,
labels and kinds. What stays is in its order, and elements that no change names are as they were, of
which the nodes stay and the edges stay unless they have lost an end. Where edge ids are distinct,
an edge stays exactly when no change removes it and both its ends stay. The graph is valid again. -/
theorem applyChanges_accounts (hg : g.Valid) (c : ChangeSet) :
    let g' := (g.applyChanges c).1
    let o := (g.applyChanges c).2
    (o.applied + o.skipped = c.nodes.length + c.edges.length ∧
      o.skipped =
        (turns applyNodeChange (g, .start) c.nodes).countP (fun t => t.1.id ∉ t.2.1.nodeIds) +
          (turns applyEdgeChange (c.nodes.foldl applyNodeChange (g, .start)) c.edges).countP
            fun t => t.1.id ∉ t.2.1.edgeIds) ∧
    ((g'.nodes ++ o.removed.nodes).map Node.lasting ~ g.nodes.map Node.lasting ∧
      (g'.edges ++ o.removed.edges).map Edge.lasting ~ g.edges.map Edge.lasting) ∧
    (g'.nodes.map Node.lasting <+ g.nodes.map Node.lasting ∧
      g'.edges.map Edge.lasting <+ g.edges.map Edge.lasting) ∧
    ((g'.nodes.filter fun n => n.id ∉ c.nodes.map (·.id)) =
        g.nodes.filter (fun n => n.id ∉ c.nodes.map (·.id)) ∧
      (g'.edges.filter fun e => e.id ∉ c.edges.map (·.id)) =
        (g.edges.filter fun e => e.id ∉ c.edges.map (·.id)).filter g'.joins ∧
      (o.removed.edges.filter fun e => e.id ∉ c.edges.map (·.id)) =
        (g.edges.filter fun e => e.id ∉ c.edges.map (·.id)).filter fun e => !g'.joins e) ∧
    (g.edgeIds.Nodup → ∀ e ∈ g.edges, e.lasting ∈ g'.edges.map Edge.lasting ↔
      .remove e.id ∉ c.edges ∧ e.source ∈ g'.nodeIds ∧ e.target ∈ g'.nodeIds) ∧
    g'.Valid := by
  intro g' o
  refine ⟨⟨applied_add_skipped g c, skipped_eq_countP g c⟩,
    ⟨perm_nodes_applyChanges g c, perm_edges_applyChanges g c⟩, ⟨?_, ?_⟩,
    ⟨unnamed_nodes_applyChanges g c, unnamed_edges_applyChanges g c⟩,
    fun hids e he => stays_iff hids c he, valid_applyChanges hg c⟩
  · exact nodes_applyChanges_sublist g c NodeChange.keeps_lasting
  · exact edges_applyChanges_sublist g c EdgeChange.keeps_lasting

/-- Three nodes in a ring, one of them with a loop that was drawn by hand. -/
def ring : Graph where
  nodes :=
    [Node.fresh "a" "A" ⟨0, 0⟩, Node.fresh "b" "B" ⟨-3.5, 1e21⟩, Node.fresh "c" "" ⟨100, 100⟩]
  edges :=
    [Edge.between "a" "b" none, Edge.between "b" "c" (some "x"), Edge.between "c" "a" none,
      Edge.fresh "edge-1" "c" "c"]

/-- Changes of one element several times, also after it is gone, and of edges that have lost an
end. -/
def muddle : ChangeSet where
  nodes :=
    [.position "a" (some ⟨1, 2⟩), .remove "b", .select "b" true, .dimensions "c" (some ⟨1, 1⟩),
      .position "a" none, .remove "b"]
  edges :=
    [.select "a-b" true, .remove "b-c", .select "b-c" true, .remove "c-a", .select "a-b" false]

theorem applyChanges_accounts_muddle :
    let g' := (ring.applyChanges muddle).1
    let o := (ring.applyChanges muddle).2
    ring.Valid ∧ ring.edgeIds.Nodup ∧ o.applied + o.skipped = 11 ∧ o.skipped = 3 ∧
      g'.nodeIds = ["a", "c"] ∧ g'.edgeIds = ["edge-1"] ∧
      o.removed.edges.map (·.id) = ["b-c", "c-a", "a-b"] ∧
      (g'.edges ++ o.removed.edges).map Edge.lasting ~ ring.edges.map Edge.lasting ∧
      (.remove "edge-1" ∉ muddle.edges ∧ "c" ∈ g'.nodeIds ∧ "c" ∈ g'.nodeIds) ∧ g'.Valid := by
  intro g' o
  have hvalid : ring.Valid := by decide
  have hids : ring.edgeIds.Nodup := by decide
  obtain ⟨⟨hcount, -⟩, ⟨-, hedges⟩, -, -, hstays, hvalid'⟩ := applyChanges_accounts hvalid muddle
  refine ⟨hvalid, hids, hcount, by decide +kernel, by decide +kernel, by decide +kernel,
    by decide +kernel, hedges, ?_, hvalid'⟩
  exact (hstays hids (Edge.fresh "edge-1" "c" "c") (by decide)).mp (by decide +kernel)

/-! ### Two batches made into one -/

section Append

variable (g) (c c' : ChangeSet)

/-- The nodes that stay are the same, as changes of edges do not look at them. -/
theorem nodes_applyChanges_append :
    ((g.applyChanges c).1.applyChanges c').1.nodes =
      (g.applyChanges ⟨c.nodes ++ c'.nodes, c.edges ++ c'.edges⟩).1.nodes := by
  rw [nodes_applyChanges, nodes_applyChanges, nodes_applyChanges, ChangeKind.afterAll_append]

theorem removedNodes_applyChanges_append :
    (g.applyChanges c).2.removed.nodes ++ ((g.applyChanges c).1.applyChanges c').2.removed.nodes =
      (g.applyChanges ⟨c.nodes ++ c'.nodes, c.edges ++ c'.edges⟩).2.removed.nodes := by
  rw [removedNodes_applyChanges, removedNodes_applyChanges, removedNodes_applyChanges,
    nodes_applyChanges, ChangeKind.takenAll_append]

theorem joins_congr {h : Graph} (hnodes : h.nodes = g.nodes) : h.joins = g.joins := by
  funext e
  rw [joins, joins, hasNode, hasNode, hasNode, hasNode, hnodes]

/-- An edge that has both ends after a second batch had them after the first. -/
theorem joins_of_joins_applyChanges {e : Edge} (he : (g.applyChanges c).1.joins e = true) :
    g.joins e = true := by
  rw [joins_eq_true] at he ⊢
  have hids : (g.applyChanges c).1.nodeIds ⊆ g.nodeIds :=
    (nodes_applyChanges_sublist g c NodeChange.kind.keeps_name).subset
  exact ⟨hids he.1, hids he.2⟩

theorem nodup_edgeIds_applyChanges (hids : g.edgeIds.Nodup) :
    (g.applyChanges c).1.edgeIds.Nodup :=
  hids.sublist (edges_applyChanges_sublist g c EdgeChange.kind.keeps_name)

variable {g}

/-- The edges that stay are the same. Those which lose an end in the first batch are still there for
the second when both are made into one, but they go at its end. -/
theorem edges_applyChanges_append (hids : g.edgeIds.Nodup) :
    ((g.applyChanges c).1.applyChanges c').1.edges =
      (g.applyChanges ⟨c.nodes ++ c'.nodes, c.edges ++ c'.edges⟩).1.edges := by
  have hjoins := joins_congr _ (nodes_applyChanges_append g c c')
  have hdrop (e : Edge) : (((g.applyChanges c).1.applyChanges c').1.joins e &&
      (g.applyChanges c).1.joins e) = ((g.applyChanges c).1.applyChanges c').1.joins e :=
    Bool.and_eq_left_iff_imp.mpr (joins_of_joins_applyChanges _ c')
  have hfate : EdgeChange.kind.fate (c.edges ++ c'.edges) =
      fun e => (EdgeChange.kind.fate c.edges e).bind (EdgeChange.kind.fate c'.edges) :=
    funext fun e => ChangeKind.fate_append
  calc ((g.applyChanges c).1.applyChanges c').1.edges
      = ((((g.edges.filterMap (EdgeChange.kind.fate c.edges)).filter
          (g.applyChanges c).1.joins).filterMap (EdgeChange.kind.fate c'.edges)).filter
          ((g.applyChanges c).1.applyChanges c').1.joins) := by
        rw [edges_applyChanges_of_nodup (nodup_edgeIds_applyChanges g c hids),
          ← edges_applyChanges_of_nodup hids]
    _ = (g.edges.filterMap (EdgeChange.kind.fate (c.edges ++ c'.edges))).filter
          ((g.applyChanges c).1.applyChanges c').1.joins := by
        rw [ChangeKind.filterMap_fate_filter (keeps_joins _), List.filter_filter,
          List.filterMap_filterMap, hfate]
        simp only [hdrop]
    _ = _ := by rw [hjoins, edges_applyChanges_of_nodup hids]

/-- The edges that are handed back in total are the same, as both ways account for all edges. -/
theorem perm_removedEdges_applyChanges_append (hids : g.edgeIds.Nodup) :
    ((g.applyChanges c).2.removed.edges ++
        ((g.applyChanges c).1.applyChanges c').2.removed.edges).map Edge.lasting ~
      (g.applyChanges ⟨c.nodes ++ c'.nodes, c.edges ++ c'.edges⟩).2.removed.edges.map
        Edge.lasting := by
  have hfirst := perm_edges_applyChanges g c
  have hsecond := perm_edges_applyChanges (g.applyChanges c).1 c'
  have hjoint := perm_edges_applyChanges g ⟨c.nodes ++ c'.nodes, c.edges ++ c'.edges⟩
  rw [← edges_applyChanges_append c c' hids, List.map_append] at hjoint
  rw [List.map_append] at hfirst hsecond ⊢
  rw [← List.perm_append_left_iff]
  refine List.Perm.trans ?_ hjoint.symm
  calc _ ~ _ := List.perm_append_comm.append_left _
    _ = _ := (List.append_assoc _ _ _).symm
    _ ~ _ := hsecond.append_right _
    _ ~ _ := hfirst

end Append

/-- One batch does what two do one after the other, provided that edge ids are distinct: the graph
is the same, and the same nodes and edges are handed back in total. -/
theorem applyChanges_append (hids : g.edgeIds.Nodup) (c c' : ChangeSet) :
    let first := g.applyChanges c
    let second := first.1.applyChanges c'
    let joint := g.applyChanges ⟨c.nodes ++ c'.nodes, c.edges ++ c'.edges⟩
    second.1 = joint.1 ∧
      first.2.removed.nodes ++ second.2.removed.nodes = joint.2.removed.nodes ∧
      (first.2.removed.edges ++ second.2.removed.edges).map (·.id) ~
        joint.2.removed.edges.map (·.id) := by
  intro first second joint
  have hremoved := perm_removedEdges_applyChanges_append c c' hids
  refine ⟨?_, removedNodes_applyChanges_append g c c', ?_⟩
  · exact congrArg₂ Graph.mk (nodes_applyChanges_append g c c')
      (edges_applyChanges_append c c' hids)
  · have hmap := hremoved.map Prod.fst
    rwa [List.map_map, List.map_map] at hmap

/-- An edge that has lost an end in the first batch is selected in the second. -/
theorem applyChanges_append_ring :
    let first := ring.applyChanges ⟨[.remove "b"], [.select "c-a" true]⟩
    let second := first.1.applyChanges ⟨[.select "c" true], [.select "a-b" true, .remove "c-a"]⟩
    let joint := ring.applyChanges ⟨[.remove "b", .select "c" true],
      [.select "c-a" true, .select "a-b" true, .remove "c-a"]⟩
    ring.edgeIds.Nodup ∧ second.1 = joint.1 ∧
      first.2.removed.edges.map (·.id) = ["a-b", "b-c"] ∧
      second.2.removed.edges.map (·.id) = ["c-a"] ∧
      joint.2.removed.edges.map (·.id) = ["c-a", "a-b", "b-c"] ∧
      (first.2.removed.edges ++ second.2.removed.edges).map (·.id) ~
        joint.2.removed.edges.map (·.id) := by
  intro first second joint
  have hids : ring.edgeIds.Nodup := by decide
  obtain ⟨hgraph, -, hremoved⟩ := applyChanges_append hids ⟨[.remove "b"], [.select "c-a" true]⟩
    ⟨[.select "c" true], [.select "a-b" true, .remove "c-a"]⟩
  exact ⟨hids, hgraph, by decide +kernel, by decide +kernel, by decide +kernel, hremoved⟩

end Graph

end BoxArrow
