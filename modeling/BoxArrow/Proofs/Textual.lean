import BoxArrow.Proofs.Described

/-!
# Graphs of texts and the statements that write them down

The graph of a text is more special than a valid graph. Its nodes are as they were made, one on each
slot of the grid, no two of its edges join the same pair, and its labels come from the vocabulary of
the language. Such a graph is *textual*. It can be written down again: a statement for every node
and a statement for every edge describe it.

## Main definitions

* `BoxArrow.Graph.IsTextual` — what graphs of texts have in common.
* `BoxArrow.Graph.IsWritable` — what is needed of a graph in order to write it line by line.
* `BoxArrow.Node.declaration`, `BoxArrow.Node.ownLabel`, `BoxArrow.Edge.connection` — statements that
  write down a node or an edge.
* `BoxArrow.Graph.ends` — the pairs of ids that the edges of a graph join.
* `BoxArrow.Graph.alongEdges` — a graph with the nodes that its edges introduce.

## Main results

* `BoxArrow.isTextual_parse` — the graph of every text is textual.
* `BoxArrow.Graph.nodesOf_eq_nodes`, `BoxArrow.Graph.edgesOf_map_arrow` — nodes and edges that are
  written down are described.
* `BoxArrow.Graph.described_declarations_append`, `BoxArrow.Graph.described_ownLabels` — the two ways
  of writing down nodes.
* `BoxArrow.Graph.nodeIds_alongEdges` — which nodes come back where only edges introduce nodes.
* `BoxArrow.statements_document` — the statements of a text with a line for every node and edge.
-/

namespace BoxArrow

open scoped List

/-! ### Statements that write down nodes and edges -/

/-- The ids that an edge joins. -/
def Edge.ends (e : Edge) : String × String :=
  (e.source, e.target)

/-- The arrow that draws an edge. -/
def Edge.arrow (e : Edge) : Arrow :=
  ⟨e.source, e.target, e.label⟩

/-- The statement that draws an edge and names its ends without labels. -/
def Edge.connection (e : Edge) : Statement :=
  .connection (.bare e.source) (.bare e.target) e.label

/-- The statement that declares a node with its label. -/
def Node.declaration (n : Node) : Statement :=
  .declaration ⟨n.id, some n.label⟩

/-- The statement about the label of a node alone. -/
def Node.ownLabel (n : Node) : Statement :=
  .nodeLabel n.id n.label

variable {es : List Edge} {ns : List Node}

theorem filterMap_arrow?_connections :
    (es.map Edge.connection).filterMap (·.arrow?) = es.map Edge.arrow := by
  rw [List.filterMap_map, ← List.filterMap_eq_map]
  rfl

theorem filterMap_arrow?_declarations :
    (ns.map Node.declaration).filterMap (·.arrow?) = [] := by
  rw [List.filterMap_map]
  exact List.filterMap_eq_nil_iff.mpr fun _ _ => rfl

theorem flatMap_mentions_connections :
    (es.map Edge.connection).flatMap (·.mentions) =
      es.flatMap fun e => [.bare e.source, .bare e.target] := by
  rw [List.flatMap_map]
  rfl

theorem flatMap_mentions_declarations :
    (ns.map Node.declaration).flatMap (·.mentions) = ns.map fun n => ⟨n.id, some n.label⟩ := by
  rw [List.flatMap_map, List.map_eq_flatMap]
  rfl

theorem filterMap_arrow?_ownLabels : (ns.map Node.ownLabel).filterMap (·.arrow?) = [] := by
  rw [List.filterMap_map]
  exact List.filterMap_eq_nil_iff.mpr fun _ _ => rfl

theorem flatMap_mentions_ownLabels : (ns.map Node.ownLabel).flatMap (·.mentions) = [] := by
  rw [List.flatMap_map]
  exact List.flatMap_eq_nil_iff.mpr fun _ _ => rfl

theorem ownLabel?_connections (id : String) :
    (es.map Edge.connection).filterMap (Statement.ownLabel? id) = [] := by
  rw [List.filterMap_map]
  exact List.filterMap_eq_nil_iff.mpr fun _ _ => rfl

theorem ownLabel?_declarations (id : String) :
    (ns.map Node.declaration).filterMap (Statement.ownLabel? id) = [] := by
  rw [List.filterMap_map]
  exact List.filterMap_eq_nil_iff.mpr fun _ _ => rfl

theorem ownLabel?_ownLabels (id : String) :
    (ns.map Node.ownLabel).filterMap (Statement.ownLabel? id) =
      (ns.filter (·.id == id)).map (·.label) := by
  rw [List.filterMap_map, ← List.filterMap_eq_map, List.filterMap_filter]
  refine List.filterMap_congr fun n _ => ?_
  simp only [Function.comp_apply, Node.ownLabel, Statement.ownLabel?, beq_iff_eq]

namespace Graph

/-- What graphs of texts have in common. -/
structure IsTextual (v : Vocabulary) (g : Graph) : Prop where
  valid : g.Valid
  /-- Nodes stand on the grid in their order, and nothing else was done to them. -/
  nodes_eq : (g.nodes.mapIdx fun i n => Node.fresh n.id n.label (Position.gridSlot i)) = g.nodes
  isWord_id : ∀ n ∈ g.nodes, IsWord n.id
  label_node : ∀ n ∈ g.nodes, v.own n.label ∨ v.inline n.label ∨ n.label = n.id
  /-- Nothing was done to the edges. -/
  between_eq : ∀ e ∈ g.edges, Edge.between e.source e.target e.label = e
  nodup_ends : (g.edges.map (·.ends)).Nodup
  label_edge : ∀ e ∈ g.edges, ∀ x ∈ e.label, v.arrow x

variable {g : Graph} {v : Vocabulary} {S : List Statement} {ms : List Mention}
  {label : String → String}

namespace IsTextual

theorem isWord_nodeIds (h : g.IsTextual v) {id : String} (hid : id ∈ g.nodeIds) : IsWord id := by
  obtain ⟨n, hn, rfl⟩ := List.mem_map.mp hid
  exact h.isWord_id n hn

theorem isWord_source (h : g.IsTextual v) {e : Edge} (he : e ∈ g.edges) : IsWord e.source :=
  h.isWord_nodeIds (h.valid.2 e he).1

theorem isWord_target (h : g.IsTextual v) {e : Edge} (he : e ∈ g.edges) : IsWord e.target :=
  h.isWord_nodeIds (h.valid.2 e he).2

end IsTextual

/-- The graphs whose nodes and edges can be written line by line: ids are words, and labels are texts
that can be written in their places. -/
structure IsWritable (node edge : String → Prop) (g : Graph) : Prop where
  isWord_id : ∀ n ∈ g.nodes, IsWord n.id
  label_node : ∀ n ∈ g.nodes, node n.label
  isWord_ends : ∀ e ∈ g.edges, IsWord e.source ∧ IsWord e.target
  label_edge : ∀ e ∈ g.edges, ∀ x ∈ e.label, edge x

theorem IsWritable.mono {node edge node' edge' : String → Prop} (h : g.IsWritable node edge)
    (hnode : ∀ x, node x → node' x) (hedge : ∀ x, edge x → edge' x) : g.IsWritable node' edge' where
  isWord_id := h.isWord_id
  label_node n hn := hnode _ (h.label_node n hn)
  isWord_ends := h.isWord_ends
  label_edge e he x hx := hedge x (h.label_edge e he x hx)

/-- The ends of the edges of a valid graph are words when the ids of its nodes are. -/
theorem Valid.isWritable {node edge : String → Prop} (hg : g.Valid)
    (hid : ∀ n ∈ g.nodes, IsWord n.id)
    (hnode : ∀ n ∈ g.nodes, node n.label) (hedge : ∀ e ∈ g.edges, ∀ x ∈ e.label, edge x) :
    g.IsWritable node edge where
  isWord_id := hid
  label_node := hnode
  isWord_ends e he := by
    have hword (id : String) (hmem : id ∈ g.nodeIds) : IsWord id := by
      obtain ⟨n, hn, rfl⟩ := List.mem_map.mp hmem
      exact hid n hn
    exact ⟨hword e.source (hg.2 e he).1, hword e.target (hg.2 e he).2⟩
  label_edge := hedge

theorem IsTextual.isWritable {node edge : String → Prop} (h : g.IsTextual v)
    (hnode : ∀ n ∈ g.nodes, node n.label) (hedge : ∀ x, v.arrow x → edge x) :
    g.IsWritable node edge :=
  h.valid.isWritable h.isWord_id hnode fun e he x hx => hedge x (h.label_edge e he x hx)

/-! ### The graph of a text is textual -/

theorem mem_nodesOf {n : Node} (h : n ∈ nodesOf ms label) :
    n.id ∈ mentionedIds ms ∧ n.label = label n.id := by
  obtain ⟨i, hi, rfl⟩ := List.mem_mapIdx.mp h
  exact ⟨List.getElem_mem hi, rfl⟩

/-- A label in its place beside a mention comes from such a mention, or there is none. -/
theorem inlineLabel_of_uses (h : ∀ m ∈ ms, m.Uses v) (id : String) :
    v.inline (inlineLabel ms id) ∨ inlineLabel ms id = id := by
  rw [inlineLabel]
  cases hfound : ms.find? (·.id == id) with
  | none => exact .inr rfl
  | some m =>
    rw [Option.bind_some]
    cases hlabel : m.label with
    | none => exact .inr rfl
    | some x => exact .inl ((h m (List.mem_of_find?_eq_some hfound)).2 x hlabel)

theorem inlineLabel_of_bare (h : ∀ m ∈ ms, m.label = none) (id : String) :
    inlineLabel ms id = id := by
  rw [inlineLabel]
  cases hfound : ms.find? (·.id == id) with
  | none => rfl
  | some m => rw [Option.bind_some, h m (List.mem_of_find?_eq_some hfound), Option.getD_none]

theorem uses_of_mem_mentions (h : ∀ s ∈ S, s.Uses v) :
    ∀ m ∈ S.flatMap (·.mentions), m.Uses v := by
  intro m hm
  obtain ⟨s, hs, hms⟩ := List.mem_flatMap.mp hm
  have huses := h s hs
  cases s with
  | connection source target label =>
    rcases List.mem_pair.mp hms with rfl | rfl
    · exact huses.1
    · exact huses.2.1
  | declaration node =>
    obtain rfl := List.mem_singleton.mp hms
    exact huses.1
  | nodeLabel id label => exact absurd hms List.not_mem_nil

/-- The pairs of ids that the edges of a graph join, in order. -/
def ends (g : Graph) : List (String × String) :=
  g.edges.map (·.ends)

theorem ends_edgesOf (ns : List Node) (arrows : List Arrow) :
    ends ⟨ns, edgesOf arrows⟩ = joinedPairs arrows := by
  rw [ends, edgesOf, List.map_map]
  exact List.map_id _

theorem ends_described (S : List Statement) :
    (described S).ends = joinedPairs (S.filterMap (·.arrow?)) :=
  ends_edgesOf _ _

theorem isTextual_described (h : ∀ s ∈ S, s.Uses v) : (described S).IsTextual v where
  valid := valid_described S
  nodes_eq := by
    rw [described, nodesOf, List.mapIdx_mapIdx]
    rfl
  isWord_id n hn := by
    obtain ⟨m, hm, hid⟩ := mem_mentionedIds.mp (mem_nodesOf hn).1
    exact hid ▸ (uses_of_mem_mentions h m hm).1
  label_node n hn := by
    rw [(mem_nodesOf hn).2]
    cases hown : lastOwnLabel? S n.id with
    | none => exact .inr (inlineLabel_of_uses (uses_of_mem_mentions h) n.id)
    | some x => exact .inl (h _ (mem_of_lastOwnLabel? hown)).2
  between_eq e he := by
    obtain ⟨p, hp, rfl⟩ := List.mem_map.mp he
    rfl
  nodup_ends := by
    have hends : (described S).edges.map (·.ends) = joinedPairs (S.filterMap (·.arrow?)) :=
      ends_described S
    rw [hends]
    exact nodup_eraseDups _
  label_edge e he := by
    obtain ⟨source, target, hs, -⟩ := exists_connection_of_mem_edges he
    exact (h _ hs).2.2

/-! ### What was written down is described -/

/-- Mentions of exactly the nodes, with their labels, describe fresh copies of them. -/
theorem nodesOf_eq_nodes (hids : mentionedIds ms = g.nodeIds)
    (hlabel : ∀ n ∈ g.nodes, label n.id = n.label) :
    nodesOf ms label =
      g.nodes.mapIdx fun i n => Node.fresh n.id n.label (Position.gridSlot i) := by
  refine List.ext_getElem? fun i => ?_
  rw [nodesOf, hids, nodeIds, List.getElem?_mapIdx, List.getElem?_mapIdx, List.getElem?_map]
  cases hn : g.nodes[i]? with
  | none => rfl
  | some n =>
    rw [Option.map_some, Option.map_some, Option.map_some,
      hlabel n (List.mem_of_getElem? hn)]

/-- Arrows that join distinct pairs describe one edge each. -/
theorem edgesOf_of_nodup {arrows : List Arrow} (h : (arrows.map (·.ends)).Nodup) :
    edgesOf arrows = arrows.map fun a => Edge.between a.source a.target a.label := by
  rw [edgesOf, joinedPairs, eraseDups_of_nodup h, List.map_map]
  refine List.map_congr_left fun a ha => ?_
  have honly : arrows.filter (·.ends == a.ends) = [a] := filter_key_eq h ha
  rw [Function.comp_apply, lastLabel, honly]
  rfl

/-- Edges that join distinct pairs are described by their arrows. -/
theorem edgesOf_map_arrow (hends : (es.map (·.ends)).Nodup)
    (hbetween : ∀ e ∈ es, Edge.between e.source e.target e.label = e) :
    edgesOf (es.map (·.arrow)) = es := by
  have harrows : ((es.map (·.arrow)).map (·.ends)).Nodup := by
    rw [List.map_map]
    exact hends
  rw [edgesOf_of_nodup harrows, List.map_map]
  exact (List.map_congr_left hbetween).trans (List.map_id es)

/-- Declarations of all nodes of a valid graph, with connections for some of its edges, describe
fresh copies of the nodes in their order and the edges. -/
theorem described_declarations_append (hg : g.Valid) (hes : es ⊆ g.edges) :
    described (g.nodes.map (·.declaration) ++ es.map (·.connection)) =
      ⟨g.nodes.mapIdx fun i n => Node.fresh n.id n.label (Position.gridSlot i),
        edgesOf (es.map (·.arrow))⟩ := by
  have hown (id : String) :
      lastOwnLabel? (g.nodes.map (·.declaration) ++ es.map (·.connection)) id = none := by
    rw [lastOwnLabel?, List.filterMap_append, ownLabel?_declarations, ownLabel?_connections]
    rfl
  rw [described, List.flatMap_append, List.filterMap_append, flatMap_mentions_declarations,
    flatMap_mentions_connections, filterMap_arrow?_declarations, filterMap_arrow?_connections,
    List.nil_append]
  congr 1
  refine nodesOf_eq_nodes ?_ fun n hn => ?_
  · -- the ends of the edges are declared already
    rw [mentionedIds, List.map_append, List.map_map, eraseDups_append_of_subset]
    · exact eraseDups_of_nodup hg.1
    · intro id hid
      obtain ⟨m, hm, rfl⟩ := List.mem_map.mp hid
      obtain ⟨e, he, hme⟩ := List.mem_flatMap.mp hm
      rcases List.mem_pair.mp hme with rfl | rfl
      · exact (hg.2 e (hes he)).1
      · exact (hg.2 e (hes he)).2
  · have hfound := find?_key_eq hg.1 hn
    rw [hown, Option.getD_none, inlineLabel, List.find?_append, List.find?_map]
    change (((g.nodes.find? (·.id == n.id)).map _).or _ |>.bind _).getD _ = _
    rw [hfound]
    rfl

theorem Valid.mem_nodeIds_of_mem_flatMap (hg : g.Valid) {id : String}
    (h : id ∈ g.edges.flatMap fun e => [e.source, e.target]) : id ∈ g.nodeIds := by
  obtain ⟨e, he, hend⟩ := List.mem_flatMap.mp h
  rcases List.mem_pair.mp hend with rfl | rfl
  · exact (hg.2 e he).1
  · exact (hg.2 e he).2

/-- The ids that edges join, each once, in the order of the edges. -/
def endIds (es : List Edge) : List String :=
  (es.flatMap fun e => [e.source, e.target]).eraseDups

theorem mentionedIds_bare_ends :
    mentionedIds (es.flatMap fun e => [.bare e.source, .bare e.target]) = endIds es := by
  rw [mentionedIds, List.map_flatMap]
  rfl

/-- Without declarations, the nodes that statements describe are those that the edges introduce. -/
theorem nodeIds_described_eq_endIds (h : ∀ s ∈ S, s.Uses v) (hinline : ∀ x, ¬ v.inline x) :
    (described S).nodeIds = endIds (described S).edges := by
  have hmentions : (S.flatMap (·.mentions)).map (·.id) =
      ((S.filterMap (·.arrow?)).map (·.ends)).flatMap fun p => [p.1, p.2] := by
    induction S with
    | nil => rfl
    | cons s S ih =>
      have hrest := ih fun t ht => h t (List.mem_cons_of_mem _ ht)
      cases s with
      | connection source target label =>
        rw [List.flatMap_cons, List.map_append, hrest]
        rfl
      | declaration node =>
        obtain ⟨huses, hsome⟩ := h _ List.mem_cons_self
        obtain ⟨x, hx⟩ := Option.isSome_iff_exists.mp hsome
        exact absurd (huses.2 x hx) (hinline x)
      | nodeLabel id label =>
        rw [List.flatMap_cons, List.map_append, hrest]
        rfl
  have hends : (described S).edges.flatMap (fun e => [e.source, e.target]) =
      (joinedPairs (S.filterMap (·.arrow?))).flatMap fun p => [p.1, p.2] := by
    rw [described, edgesOf, List.flatMap_map]
    rfl
  rw [nodeIds_described, mentionedIds, hmentions, endIds, hends, joinedPairs,
    eraseDups_flatMap_eraseDups]

/-- Connections describe the nodes that their edges introduce. Their labels have to be stated apart
where they are not the ids, and may be stated of other nodes too. -/
theorem described_ownLabels (hids : g.nodeIds = endIds es) (hns : (ns.map (·.id)).Nodup)
    (hlabel : ∀ n ∈ g.nodes, n ∈ ns ∨ n.id ∉ ns.map (·.id) ∧ n.label = n.id) :
    described (ns.map (·.ownLabel) ++ es.map (·.connection)) =
      ⟨g.nodes.mapIdx fun i n => Node.fresh n.id n.label (Position.gridSlot i),
        edgesOf (es.map (·.arrow))⟩ := by
  rw [described, List.flatMap_append, List.filterMap_append, flatMap_mentions_ownLabels,
    flatMap_mentions_connections, filterMap_arrow?_ownLabels, filterMap_arrow?_connections,
    List.nil_append, List.nil_append]
  congr 1
  refine nodesOf_eq_nodes (mentionedIds_bare_ends.trans hids.symm) fun n hn => ?_
  have hinline (es : List Edge) :
      inlineLabel (es.flatMap fun e => [.bare e.source, .bare e.target]) n.id = n.id := by
    refine inlineLabel_of_bare (fun m hm => ?_) n.id
    obtain ⟨e, -, hme⟩ := List.mem_flatMap.mp hm
    rcases List.mem_pair.mp hme with rfl | rfl <;> rfl
  rw [hinline, lastOwnLabel?, List.filterMap_append, ownLabel?_connections, ownLabel?_ownLabels,
    List.append_nil]
  rcases hlabel n hn with hmem | ⟨hnot, hid⟩
  · rw [filter_key_eq hns hmem]
    rfl
  · have hnone : ns.filter (·.id == n.id) = [] := by
      rw [List.filter_eq_nil_iff]
      intro m hm hmid
      exact hnot (List.mem_map.mpr ⟨m, hm, beq_iff_eq.mp hmid⟩)
    rw [hnone, hid]
    rfl

/-- The case in which labels are stated of nodes that the edges introduce. -/
theorem described_ownLabels_append (hg : g.Valid) (hids : g.nodeIds = endIds g.edges)
    (hns : ns <+ g.nodes) (hothers : ∀ n ∈ g.nodes, n ∉ ns → n.label = n.id) :
    described (ns.map (·.ownLabel) ++ g.edges.map (·.connection)) =
      ⟨g.nodes.mapIdx fun i n => Node.fresh n.id n.label (Position.gridSlot i),
        edgesOf (g.edges.map (·.arrow))⟩ := by
  refine described_ownLabels hids (hg.1.sublist (hns.map _)) fun n hn => ?_
  by_cases hmem : n ∈ ns
  · exact .inl hmem
  · refine .inr ⟨fun hid => ?_, hothers n hn hmem⟩
    obtain ⟨m, hm, hmid⟩ := List.mem_map.mp hid
    exact hmem (List.inj_on_of_nodup_map hg.1 (hns.subset hm) hn hmid ▸ hm)

/-! ### The nodes along the edges -/

/-- The graph without the nodes that no edge joins, and with the others in the order in which the
edges mention them, a source before its target. -/
def alongEdges (g : Graph) : Graph where
  nodes := (endIds g.edges).filterMap g.node?
  edges := g.edges

theorem mem_of_node? {id : String} {n : Node} (h : g.node? id = some n) :
    n ∈ g.nodes ∧ n.id = id := by
  rw [node?] at h
  have hid := List.find?_some h
  exact ⟨List.mem_of_find?_eq_some h, beq_iff_eq.mp hid⟩

theorem node?_isSome {id : String} : (g.node? id).isSome ↔ id ∈ g.nodeIds := by
  rw [node?, List.find?_isSome, nodeIds, List.mem_map]
  simp only [beq_iff_eq]

theorem mem_nodes_of_mem_alongEdges {n : Node} (h : n ∈ g.alongEdges.nodes) : n ∈ g.nodes := by
  obtain ⟨id, -, hfound⟩ := List.mem_filterMap.mp h
  exact (mem_of_node? hfound).1

/-- Ids that are there are found, each by a node with this id. -/
theorem map_id_filterMap_node? {ids : List String} (h : ∀ id ∈ ids, id ∈ g.nodeIds) :
    (ids.filterMap g.node?).map (·.id) = ids := by
  induction ids with
  | nil => rfl
  | cons id ids ih =>
    obtain ⟨n, hn⟩ := Option.isSome_iff_exists.mp (node?_isSome.mpr (h id List.mem_cons_self))
    rw [List.filterMap_cons_some hn, List.map_cons, (mem_of_node? hn).2,
      ih fun i hi => h i (List.mem_cons_of_mem _ hi)]

/-- In a valid graph no end of an edge gets lost. -/
theorem nodeIds_alongEdges (hg : g.Valid) : g.alongEdges.nodeIds = endIds g.edges := by
  refine map_id_filterMap_node? fun id hid => ?_
  rw [endIds, List.mem_eraseDups] at hid
  exact hg.mem_nodeIds_of_mem_flatMap hid

end Graph

/-! ### The statements of a text that was written line by line -/

/-- A list that is read entry by entry, where some entries count for nothing. -/
theorem filterMap_eq_map_filter {α β : Type} {f : α → Option β} {p : α → Prop} [DecidablePred p]
    {c : α → β} {l : List α} (h : ∀ a ∈ l, f a = if p a then some (c a) else none) :
    l.filterMap f = (l.filter p).map c := by
  rw [← List.filterMap_eq_map, List.filterMap_filter]
  refine List.filterMap_congr fun a ha => ?_
  rw [h a ha]
  simp only [decide_eq_true_eq, Function.comp_apply]

/-- The statements of a text that was written line by line are those of its lines, whatever
follows. -/
theorem statements_unlines_append (engine : Engine) {ls : List String}
    (h : ∀ l ∈ ls, '\n' ∉ l.toList) (tail : String) :
    statements engine (unlines ls ++ tail) =
      ls.filterMap (fun l => engine.dialect.readLine l.toList) ++ statements engine tail := by
  rw [statements, String.toList_append, lines_unlines ls _ h, List.filterMap_append,
    List.filterMap_map]
  rfl

/-- The statements of a text with a line for every node and a line for every edge, behind a heading
that says nothing, are those of the lines of nodes and edges, whatever follows. -/
theorem statements_document (engine : Engine) {head : List String} (g : Graph)
    {nodeLine : Node → String} {edgeLine : Edge → String} (tail : String)
    (hhead : ∀ l ∈ head, '\n' ∉ l.toList ∧ engine.dialect.readLine l.toList = none)
    (hnodes : ∀ n ∈ g.nodes, '\n' ∉ (nodeLine n).toList)
    (hedges : ∀ e ∈ g.edges, '\n' ∉ (edgeLine e).toList) :
    statements engine (unlines (head ++ g.nodes.map nodeLine ++ g.edges.map edgeLine) ++ tail) =
      (g.nodes.filterMap fun n => engine.dialect.readLine (nodeLine n).toList) ++
        (g.edges.filterMap fun e => engine.dialect.readLine (edgeLine e).toList) ++
        statements engine tail := by
  have hlines : ∀ l ∈ head ++ g.nodes.map nodeLine ++ g.edges.map edgeLine, '\n' ∉ l.toList := by
    intro l hl
    rw [List.append_assoc] at hl
    rcases List.mem_append.mp hl with hl | hl
    · exact (hhead l hl).1
    rcases List.mem_append.mp hl with hl | hl
    · obtain ⟨n, hn, rfl⟩ := List.mem_map.mp hl
      exact hnodes n hn
    · obtain ⟨e, he, rfl⟩ := List.mem_map.mp hl
      exact hedges e he
  have hsilent : head.filterMap (fun l => engine.dialect.readLine l.toList) = [] :=
    List.filterMap_eq_nil_iff.mpr fun l hl => (hhead l hl).2
  rw [statements_unlines_append engine hlines, List.filterMap_append, List.filterMap_append,
    hsilent, List.nil_append, List.filterMap_map, List.filterMap_map]
  rfl

theorem statements_empty (engine : Engine) : statements engine "" = [] := by
  cases engine <;> decide

/-- A text that was written text by text has the statements of each. -/
theorem statements_unlines (engine : Engine) (ls : List String) :
    statements engine (unlines ls) = ls.flatMap (statements engine) := by
  have hlines := lines_unlines_append ls []
  have hempty : (lines []).filterMap engine.dialect.readLine = [] := statements_empty engine
  rw [List.append_nil] at hlines
  rw [statements, hlines, List.filterMap_append, hempty, List.append_nil, List.filterMap_flatMap]
  rfl

/-- A text of one line has the statement of this line, if it is one. -/
theorem statements_of_newline_notMem (engine : Engine) {l : String} (h : '\n' ∉ l.toList) :
    statements engine l = (engine.dialect.readLine l.toList).toList := by
  rw [statements, lines_of_newline_notMem h]
  cases hread : engine.dialect.readLine l.toList with
  | none => exact List.filterMap_cons_none hread
  | some s => exact List.filterMap_cons_some hread

/-! ### Texts -/

theorem isTextual_parse (engine : Engine) (text : String) :
    (parse engine text).IsTextual engine.vocabulary := by
  rw [parse_eq_described]
  exact Graph.isTextual_described (statements_uses engine text)

end BoxArrow
