import BoxArrow.Proofs.ArrowsAlone
import BoxArrow.Proofs.Edits
import BoxArrow.Proofs.GraphvizRoundTrip

/-!
# Labels of a digraph that are any text

A digraph has every label between quotes as it is. A label with a quote of its own ends there for the
reader, and what stands behind the quote is read as further attributes, or keeps the line from being
read. Other lines are out of its reach, because a label has no line feed, and so is the part of its
own line before it: the ids that the line begins with, and the arrow between them.

So there is one description of what comes back of a digraph, whatever its labels are. Some of its
arrows come back, each between the ids that it was written for. The nodes are those that these arrows
join. The name of a node depends on its own line only, so that another label in the place of one can
change the name of this node and nothing else.

## Main definitions

* `BoxArrow.Graphviz.arrow?` — the arrow that is read of the line of an edge.
* `BoxArrow.Graphviz.ownReadBack`, `BoxArrow.Graphviz.nameOf` — the name under which a node comes
  back.

## Main results

* `BoxArrow.Graphviz.statements_write_eq` — the statements of a digraph with any labels.
* `BoxArrow.Graphviz.parse_write_eq` — what comes back of a digraph with any labels.
* `BoxArrow.Graphviz.parse_write_relabel` — what comes back with another label of one node.
* `BoxArrow.Graphviz.parse_generate_confines_labels` — labels bring in no nodes and no arrows, and do
  not touch each other.
-/

namespace BoxArrow

open scoped List

/-! ### Nodes that get a new label -/

/-- Where the entries that are edited are not looked for, editing does not change what is found. -/
theorem find?_modifyFirst {α : Type} {p q : α → Bool} {f : α → α}
    (h : ∀ a, p a = true → q a = false ∧ q (f a) = false) (l : List α) :
    (modifyFirst p f l).find? q = l.find? q := by
  induction l with
  | nil => rfl
  | cons a l ih =>
    rw [modifyFirst]
    split_ifs with ha
    · obtain ⟨hq, hqf⟩ := h a ha
      rw [List.find?_cons, List.find?_cons, hq, hqf]
    · rw [List.find?_cons, List.find?_cons, ih]

namespace Graph

variable {g : Graph} {id id' : String}

theorem node?_relabel_of_ne (h : id' ≠ id) (label : String) :
    (g.relabel id label).node? id' = g.node? id' := by
  refine find?_modifyFirst (fun n hn => ?_) g.nodes
  have hother : (n.id == id') = false := by
    rw [beq_iff_eq.mp hn, beq_eq_false_iff_ne]
    exact h.symm
  exact ⟨hother, hother⟩

/-- The nodes that are made for ids under names of their own have these ids. -/
theorem nodeIds_mapIdx_fresh (ids : List String) (name : String → String) (es : List Edge) :
    nodeIds ⟨ids.mapIdx fun i a => Node.fresh a (name a) (Position.gridSlot i), es⟩ = ids := by
  refine List.ext_getElem? fun i => ?_
  rw [nodeIds, List.getElem?_map, List.getElem?_mapIdx]
  cases ids[i]? <;> rfl

/-- A graph that gives names to ids gets a new label where the name of one id is another one. -/
theorem relabel_mapIdx_fresh {ids : List String} (hids : ids.Nodup) (name : String → String)
    (es : List Edge) (id y : String) :
    relabel ⟨ids.mapIdx fun i a => Node.fresh a (name a) (Position.gridSlot i), es⟩ id y =
      ⟨ids.mapIdx fun i a => Node.fresh a (if a = id then y else name a) (Position.gridSlot i),
        es⟩ := by
  have hnodup : (nodeIds ⟨ids.mapIdx fun i a => Node.fresh a (name a) (Position.gridSlot i),
      es⟩).Nodup := by
    rwa [nodeIds_mapIdx_fresh]
  rw [relabel, modifyFirst_eq_map Node.id id _ _ hnodup]
  congr 1
  refine List.ext_getElem? fun i => ?_
  rw [List.getElem?_map, List.getElem?_mapIdx, List.getElem?_mapIdx]
  cases ids[i]? with
  | none => rfl
  | some a =>
    rw [Option.map_some, Option.map_some, Option.map_some, Option.some.injEq]
    change (if a = id then _ else _) = _
    split_ifs <;> rfl

end Graph

namespace Graphviz

open Reader

variable {g : Graph} {n : Node} {e : Edge}

/-! ### What is read of a line -/

/-- The label that is read of the line of a node: none when the line looks like a header, when it is
not read, or when it gives no label. -/
def ownReadBack (n : Node) : Option String :=
  if IsHeader n.id then none else (readBack n.label).join

/-- The arrow that is read of the line of an edge: none when the line looks like a header or is not
read. -/
def arrow? (e : Edge) : Option Arrow :=
  if IsHeader e.source then none
  else (readBackEnding e.label).map fun label => ⟨e.source, e.target, label⟩

theorem arrow?_ends {a : Arrow} (h : arrow? e = some a) : a.ends = e.ends := by
  rw [arrow?] at h
  split_ifs at h
  obtain ⟨label, -, rfl⟩ := Option.map_eq_some_iff.mp h
  rfl

theorem readLine_nodeLine_eq (hid : IsWord n.id) :
    Engine.graphviz.dialect.readLine (nodeLine n).toList =
      (ownReadBack n).map (.nodeLabel n.id) := by
  ext s
  rw [readLine_nodeLine hid, ownReadBack]
  split_ifs with hheader
  · exact iff_of_false (fun h => h.1 hheader) nofun
  · rw [Option.map_eq_some_iff]
    constructor
    · rintro ⟨-, y, hy, rfl⟩
      exact ⟨y, Option.join_eq_some_iff.mpr hy, rfl⟩
    · rintro ⟨y, hy, rfl⟩
      exact ⟨hheader, y, Option.join_eq_some_iff.mp hy, rfl⟩

theorem readLine_edgeLine_eq (hsource : IsWord e.source) (htarget : IsWord e.target) :
    Engine.graphviz.dialect.readLine (edgeLine e).toList = (arrow? e).map (·.statement) := by
  ext s
  rw [readLine_edgeLine hsource htarget, arrow?]
  split_ifs with hheader
  · exact iff_of_false (fun h => h.1 hheader) nofun
  · rw [Option.map_map, Option.map_eq_some_iff]
    constructor
    · rintro ⟨-, o, ho, rfl⟩
      exact ⟨o, ho, rfl⟩
    · rintro ⟨o, ho, rfl⟩
      exact ⟨hheader, o, ho, rfl⟩

/-! ### What is read of a digraph -/

/-- A digraph says what its nodes are called and which arrows there are, as far as its lines are
read. -/
theorem statements_write_eq (h : g.IsWritable FitsLine FitsLine) :
    statements .graphviz (write g) =
      (g.nodes.filterMap fun n => (ownReadBack n).map (.nodeLabel n.id)) ++
        (g.edges.filterMap arrow?).map (·.statement) := by
  rw [statements_write h, List.map_filterMap]
  congr 1
  · exact List.filterMap_congr fun n hn => readLine_nodeLine_eq (h.isWord_id n hn)
  · exact List.filterMap_congr fun e he =>
      readLine_edgeLine_eq (h.isWord_ends e he).1 (h.isWord_ends e he).2

/-- The name under which a node comes back: what is read of its label, or its id where nothing is
read. -/
def nameOf (g : Graph) (id : String) : String :=
  ((g.node? id).bind ownReadBack).getD id

/-- Of the lines of nodes, only that of the node itself says what it is called. -/
theorem lastOwnLabel?_nodes (hg : g.Valid) (id : String) :
    lastOwnLabel? (g.nodes.filterMap fun n => (ownReadBack n).map (.nodeLabel n.id)) id =
      (g.node? id).bind ownReadBack := by
  have hlines : (g.nodes.filterMap fun n => (ownReadBack n).map (.nodeLabel n.id)).filterMap
      (Statement.ownLabel? id) = (g.nodes.filter (·.id == id)).filterMap ownReadBack := by
    rw [List.filterMap_filterMap, List.filterMap_filter]
    refine List.filterMap_congr fun n _ => ?_
    rw [Option.bind_map]
    cases ownReadBack n with
    | none => simp
    | some label => simp [Statement.ownLabel?]
  rw [lastOwnLabel?, hlines]
  cases hfound : g.node? id with
  | none =>
    have hnone : g.nodes.filter (·.id == id) = [] :=
      List.filter_eq_nil_iff.mpr (List.find?_eq_none.mp hfound)
    rw [hnone]
    rfl
  | some n =>
    obtain ⟨hn, rfl⟩ := Graph.mem_of_node? hfound
    rw [filter_key_eq hg.1 hn, Option.bind_some]
    cases hown : ownReadBack n <;> simp [hown]

/-- A digraph with any labels is read back as the arrows that are read of its edges, with the nodes
that these arrows join, each under its name. -/
theorem parse_write_eq (hg : g.Valid) (h : g.IsWritable FitsLine FitsLine) :
    parse .graphviz (write g) =
      ⟨(arrowIds (g.edges.filterMap arrow?)).mapIdx fun i id =>
          Node.fresh id (nameOf g id) (Position.gridSlot i),
        Graph.edgesOf (g.edges.filterMap arrow?)⟩ := by
  have hown : ∀ s ∈ g.nodes.filterMap fun n => (ownReadBack n).map (Statement.nodeLabel n.id),
      ∃ id x, s = Statement.nodeLabel id x := by
    intro s hs
    obtain ⟨n, -, hs⟩ := List.mem_filterMap.mp hs
    obtain ⟨x, -, rfl⟩ := Option.map_eq_some_iff.mp hs
    exact ⟨n.id, x, rfl⟩
  rw [parse_eq_described, statements_write_eq h, Graph.described_append_arrows hown]
  simp only [lastOwnLabel?_nodes hg, nameOf]

/-! ### What labels cannot do -/

/-- The ids that the arrows of a digraph join are ids of its graph. -/
theorem mem_nodeIds_of_mem_arrowIds (hg : g.Valid) {id : String}
    (h : id ∈ arrowIds (g.edges.filterMap arrow?)) : id ∈ g.nodeIds := by
  rw [arrowIds, List.mem_eraseDups] at h
  obtain ⟨a, ha, hend⟩ := List.mem_flatMap.mp h
  obtain ⟨e, he, hread⟩ := List.mem_filterMap.mp ha
  obtain ⟨hsource, htarget⟩ := Prod.mk.inj (arrow?_ends hread)
  rcases List.mem_pair.mp hend with rfl | rfl
  · exact hsource ▸ (hg.2 e he).1
  · exact htarget ▸ (hg.2 e he).2

/-- The pairs that the arrows of a digraph join are pairs that its graph joins. -/
theorem mem_ends_of_mem_joinedPairs {p : String × String}
    (h : p ∈ joinedPairs (g.edges.filterMap arrow?)) : p ∈ g.ends := by
  obtain ⟨a, ha, rfl⟩ := Graph.mem_joinedPairs.mp h
  obtain ⟨e, he, hread⟩ := List.mem_filterMap.mp ha
  exact List.mem_map.mpr ⟨e, he, (arrow?_ends hread).symm⟩

theorem nameOf_relabel_of_ne {id id' : String} (h : id' ≠ id) (label : String) :
    nameOf (g.relabel id label) id' = nameOf g id' := by
  rw [nameOf, nameOf, Graph.node?_relabel_of_ne h]

/-- With another label of one node, this node comes back under another name, and all else as
before. -/
theorem parse_write_relabel (hg : g.Valid) (h : g.IsWritable FitsLine FitsLine) {id label : String}
    (hrelabel : (g.relabel id label).IsWritable FitsLine FitsLine) :
    parse .graphviz (write (g.relabel id label)) =
      (parse .graphviz (write g)).relabel id (nameOf (g.relabel id label) id) := by
  have hids : (arrowIds (g.edges.filterMap arrow?)).Nodup := nodup_eraseDups _
  rw [parse_write_eq hg h, parse_write_eq (Graph.valid_relabel hg id label) hrelabel,
    Graph.relabel_mapIdx_fresh hids]
  congr 2
  funext i a
  split_ifs with ha
  · rw [ha]
  · rw [nameOf_relabel_of_ne ha]

/-- A graph that can be written can be written with a new label that stays on its line. -/
theorem isWritable_relabel (hg : g.Valid) (h : g.IsWritable FitsLine FitsLine) {label : String}
    (hlabel : '\n' ∉ label.toList) (id : String) :
    (g.relabel id label).IsWritable FitsLine FitsLine := by
  have hnodes : ∀ n ∈ (g.relabel id label).nodes, IsWord n.id ∧ FitsLine n.label := by
    rw [Graph.relabel, modifyFirst_eq_map Node.id id _ _ hg.1]
    refine List.forall_mem_map.mpr fun m hm => ?_
    split_ifs
    · exact ⟨h.isWord_id m hm, hlabel⟩
    · exact ⟨h.isWord_id m hm, h.label_node m hm⟩
  exact ⟨fun n hn => (hnodes n hn).1, fun n hn => (hnodes n hn).2, h.isWord_ends, h.label_edge⟩

/-- The labels of a digraph may be any text that stays on a line, with quotes, brackets, arrows and
semicolons. They bring in no nodes and no arrows: what is read back has no ids but those of the graph
and joins no pairs but those that the graph joins. And they do not touch each other: with another
label of one node, at most the name of this node is read differently. -/
theorem parse_generate_confines_labels (hg : g.Valid) (hid : ∀ n ∈ g.nodes, IsWord n.id)
    (hnode : ∀ n ∈ g.nodes, '\n' ∉ n.label.toList)
    (hedge : ∀ e ∈ g.edges, ∀ x ∈ e.label, '\n' ∉ x.toList) :
    (∀ id ∈ (parse .graphviz (generate .graphviz g)).nodeIds, id ∈ g.nodeIds) ∧
      (∀ p ∈ (parse .graphviz (generate .graphviz g)).ends, p ∈ g.ends) ∧
      ∀ id label, '\n' ∉ label.toList →
        ∃ name, parse .graphviz (generate .graphviz (g.relabel id label)) =
          (parse .graphviz (generate .graphviz g)).relabel id name := by
  have hwritable : g.IsWritable FitsLine FitsLine := hg.isWritable hid hnode hedge
  have hread := parse_write_eq hg hwritable
  refine ⟨fun id hmem => ?_, fun p hmem => ?_, fun id label hlabel => ?_⟩
  · rw [generate, Engine.dialect, hread, Graph.nodeIds_mapIdx_fresh] at hmem
    exact mem_nodeIds_of_mem_arrowIds hg hmem
  · rw [generate, Engine.dialect, hread, Graph.ends_edgesOf] at hmem
    exact mem_ends_of_mem_joinedPairs hmem
  · exact ⟨_, parse_write_relabel hg hwritable (isWritable_relabel hg hwritable hlabel id)⟩

/-- A graph whose labels end their quotes and go on as other parts of a digraph. -/
def injecting : Graph where
  nodes :=
    [Node.fresh "a" "x\"]; a -> c [label=\"y" (Position.gridSlot 0),
      Node.fresh "b" "z\", label=\"B" (Position.gridSlot 1)]
  edges :=
    [Edge.between "a" "b" (some "\", label=\"x"), Edge.between "b" "a" (some "\"]; c -> a; [")]

theorem parse_generate_injecting :
    injecting.Valid ∧ (∀ n ∈ injecting.nodes, IsWord n.id) ∧
      (∀ n ∈ injecting.nodes, '\n' ∉ n.label.toList) ∧
      (∀ e ∈ injecting.edges, ∀ x ∈ e.label, '\n' ∉ x.toList) ∧
      parse .graphviz (generate .graphviz injecting) =
        ⟨[Node.fresh "a" "a" (Position.gridSlot 0), Node.fresh "b" "B" (Position.gridSlot 1)],
          [Edge.between "a" "b" (some "x")]⟩ ∧
      (∀ p ∈ (parse .graphviz (generate .graphviz injecting)).ends, p ∈ injecting.ends) ∧
      ∃ name, parse .graphviz (generate .graphviz (injecting.relabel "a" "]; b -> c; [")) =
        (parse .graphviz (generate .graphviz injecting)).relabel "a" name := by
  have hvalid : injecting.Valid := by decide
  have hid : ∀ n ∈ injecting.nodes, IsWord n.id := by decide
  have hnode : ∀ n ∈ injecting.nodes, '\n' ∉ n.label.toList := by decide
  have hedge : ∀ e ∈ injecting.edges, ∀ x ∈ e.label, '\n' ∉ x.toList := by decide
  obtain ⟨-, hends, hrelabel⟩ := parse_generate_confines_labels hvalid hid hnode hedge
  exact ⟨hvalid, hid, hnode, hedge, by decide +kernel, hends, hrelabel _ _ (by decide)⟩

end Graphviz

end BoxArrow
