import BoxArrow.Proofs.ColonRoundTrip

/-!
# Graphs that come back from their arrows alone

In the languages with colon labels only arrows introduce nodes, and they name them without labels.
Whatever graph is written, what is read again is described by its arrows: a node for every name that
an arrow mentions, called by that name, and an edge for every pair of names.

D2 names nodes by their ids. Its lines for nodes say nothing to the reader, whatever stands behind
the colon. PlantUML names nodes by their labels. Nodes with one label become one node, and so do the
edges between them, so that the graph which comes back is the quotient of the one that was written.
It has the same edges as before when the labels are all different and no pair is joined twice.

## Main definitions

* `BoxArrow.Arrow.statement` — the statement that draws an arrow.
* `BoxArrow.arrowIds` — the names that arrows mention.
* `BoxArrow.D2.arrowOf`, `BoxArrow.PlantUml.arrowOf` — the arrow that is read of an edge.

## Main results

* `BoxArrow.Graph.described_arrows` — what arrows alone describe.
* `BoxArrow.D2.parse_generate_eq_arrows` — what comes back of an edited graph from D2.
* `BoxArrow.PlantUml.parse_generate_eq_quotient` — what comes back from PlantUML.
-/

namespace BoxArrow

/-! ### Arrows as statements -/

/-- The statement that draws an arrow and names its ends without labels. -/
def Arrow.statement (a : Arrow) : Statement :=
  .connection (.bare a.source) (.bare a.target) a.label

/-- The ids that arrows mention, each once, in the order of the arrows and with a source before its
target. -/
def arrowIds (arrows : List Arrow) : List String :=
  (arrows.flatMap fun a => [a.source, a.target]).eraseDups

/-- Arrows describe a node for every id that they mention. Statements about labels alone, which come
before the arrows, label these nodes, and nodes without such a statement are labelled by their id. -/
theorem Graph.described_append_arrows {S : List Statement}
    (hS : ∀ s ∈ S, ∃ id x, s = .nodeLabel id x) (arrows : List Arrow) :
    described (S ++ arrows.map (·.statement)) =
      ⟨(arrowIds arrows).mapIdx fun i id =>
          Node.fresh id ((lastOwnLabel? S id).getD id) (Position.gridSlot i),
        edgesOf arrows⟩ := by
  have hmentions : (S ++ arrows.map (·.statement)).flatMap (·.mentions) =
      arrows.flatMap fun a => [.bare a.source, .bare a.target] := by
    have hnone : S.flatMap (·.mentions) = [] := List.flatMap_eq_nil_iff.mpr fun s hs => by
      obtain ⟨id, x, rfl⟩ := hS s hs
      rfl
    rw [List.flatMap_append, hnone, List.nil_append, List.flatMap_map]
    rfl
  have harrows : (S ++ arrows.map (·.statement)).filterMap (·.arrow?) = arrows := by
    have hnone : S.filterMap (·.arrow?) = [] := List.filterMap_eq_nil_iff.mpr fun s hs => by
      obtain ⟨id, x, rfl⟩ := hS s hs
      rfl
    rw [List.filterMap_append, hnone, List.nil_append, List.filterMap_map]
    exact List.filterMap_some
  have hown (id : String) : lastOwnLabel? (S ++ arrows.map (·.statement)) id =
      lastOwnLabel? S id := by
    have hnone : (arrows.map (·.statement)).filterMap (Statement.ownLabel? id) = [] := by
      rw [List.filterMap_map]
      exact List.filterMap_eq_nil_iff.mpr fun _ _ => rfl
    rw [lastOwnLabel?, List.filterMap_append, hnone, List.append_nil, lastOwnLabel?]
  have hinline (id : String) :
      inlineLabel (arrows.flatMap fun a => [.bare a.source, .bare a.target]) id = id := by
    refine inlineLabel_of_bare (fun m hm => ?_) id
    obtain ⟨a, -, hma⟩ := List.mem_flatMap.mp hm
    rcases List.mem_pair.mp hma with rfl | rfl <;> rfl
  have hids : mentionedIds (arrows.flatMap fun a => [.bare a.source, .bare a.target]) =
      arrowIds arrows := by
    rw [mentionedIds, List.map_flatMap]
    rfl
  rw [described, hmentions, harrows, nodesOf, hids]
  simp only [hown, hinline]

/-- Arrows alone describe a node for every id that they mention, labelled by the id. -/
theorem Graph.described_arrows (arrows : List Arrow) :
    described (arrows.map (·.statement)) =
      ⟨(arrowIds arrows).mapIdx fun i id => Node.fresh id id (Position.gridSlot i),
        edgesOf arrows⟩ :=
  described_append_arrows (S := []) nofun arrows

/-- What is read of a text whose statements are arrows. -/
theorem parse_of_statements_eq_arrows {engine : Engine} {text : String} {arrows : List Arrow}
    (h : statements engine text = arrows.map (·.statement)) :
    parse engine text =
      ⟨(arrowIds arrows).mapIdx fun i id => Node.fresh id id (Position.gridSlot i),
        Graph.edgesOf arrows⟩ := by
  rw [parse_eq_described, h, Graph.described_arrows]

variable {g : Graph}

/-! ### D2 -/

namespace D2

/-- The arrow that is read of an edge: between the ids of its ends, with what is read of its label.
-/
def arrowOf (e : Edge) : Arrow :=
  ⟨e.source, e.target, colonReadBack e.label⟩

theorem arrowIds_map_arrowOf (es : List Edge) : arrowIds (es.map arrowOf) = Graph.endIds es := by
  rw [arrowIds, List.flatMap_map]
  rfl

/-- A valid graph whose ids are words is read back from D2 with the nodes that its edges join, in
the order in which the edges mention them and each labelled by its id, and with one edge for every
pair of nodes: in the order of the first edge of the pair, and with what is read of the label of the
last one. No line of a node is read as a statement. -/
theorem parse_generate_eq_arrows (hg : g.Valid) (hid : ∀ n ∈ g.nodes, IsWord n.id)
    (hnode : ∀ n ∈ g.nodes, '\n' ∉ n.label.toList)
    (hedge : ∀ e ∈ g.edges, ∀ x ∈ e.label, '\n' ∉ x.toList) :
    parse .d2 (generate .d2 g) =
        ⟨(Graph.endIds g.edges).mapIdx fun i id => Node.fresh id id (Position.gridSlot i),
          Graph.edgesOf (g.edges.map arrowOf)⟩ ∧
      ∀ n ∈ g.nodes, Engine.d2.dialect.readLine (nodeLine n).toList = none := by
  refine ⟨?_, fun n hn => readLine_nodeLine (hid n hn)⟩
  have hstatements : statements .d2 (write g) = (g.edges.map arrowOf).map (·.statement) := by
    rw [statements_write (hg.isWritable hid hnode hedge), List.map_map]
    rfl
  rw [← arrowIds_map_arrowOf]
  exact parse_of_statements_eq_arrows hstatements

/-- A graph as an editor may leave it: a node is not joined, edges run side by side, labels of nodes
look like arrows, and labels of edges have spaces and blanks at their ends. -/
def tangled : Graph where
  nodes :=
    [⟨"b", "-> c: d", ⟨-3.5, 0⟩, ⟨200, 60⟩, true⟩,
      ⟨"alone", "", ⟨100, 100⟩, Size.default, false⟩,
      ⟨"_7", " é ; b -> alone", ⟨1e300, 2.25⟩, Size.default, false⟩]
  edges :=
    [⟨"edge-1", "_7", "b", some "first", .smoothStep, true⟩,
      ⟨"edge-2", "b", "b", some " \u00a0\t", .smoothStep, false⟩,
      ⟨"edge-1", "_7", "b", some "\t \u00a0a -> b; \u2003", .smoothStep, false⟩]

theorem parse_generate_tangled_arrows :
    tangled.Valid ∧ (∀ n ∈ tangled.nodes, IsWord n.id) ∧
      (∀ n ∈ tangled.nodes, '\n' ∉ n.label.toList) ∧
      (∀ e ∈ tangled.edges, ∀ x ∈ e.label, '\n' ∉ x.toList) ∧
      parse .d2 (generate .d2 tangled) =
        ⟨[Node.fresh "_7" "_7" (Position.gridSlot 0), Node.fresh "b" "b" (Position.gridSlot 1)],
          [Edge.between "_7" "b" (some "\u00a0a -> b;"), Edge.between "b" "b" none]⟩ :=
  ⟨by decide, by decide, by decide, by decide,
    (parse_generate_eq_arrows (by decide) (by decide) (by decide) (by decide)).1.trans
      (by decide +kernel)⟩

end D2

/-! ### PlantUML -/

namespace PlantUml

/-- The arrow that is read of an edge: between the labels of its ends, with what is read of its own
label. -/
def arrowOf (g : Graph) (e : Edge) : Arrow :=
  ⟨displayName g e.source, displayName g e.target, colonReadBack e.label⟩

/-- A node is named by its label where its id is its own. -/
theorem displayName_id (hg : g.Valid) {n : Node} (hn : n ∈ g.nodes) :
    displayName g n.id = n.label := by
  have hfound : g.node? n.id = some n := find?_key_eq hg.1 hn
  rw [displayName, hfound]

/-- Where labels are different, so are the names of nodes. -/
theorem displayName_inj (hg : g.Valid) (hlabels : (g.nodes.map (·.label)).Nodup) {id id' : String}
    (hid : id ∈ g.nodeIds) (hid' : id' ∈ g.nodeIds) (h : displayName g id = displayName g id') :
    id = id' := by
  obtain ⟨n, hn, rfl⟩ := List.mem_map.mp hid
  obtain ⟨n', hn', rfl⟩ := List.mem_map.mp hid'
  rw [displayName_id hg hn, displayName_id hg hn'] at h
  rw [List.inj_on_of_nodup_map hlabels hn hn' h]

/-- Where labels are different and no pair is joined twice, no pair of names is. -/
theorem nodup_ends_map_arrowOf (hg : g.Valid) (hlabels : (g.nodes.map (·.label)).Nodup)
    (hends : g.ends.Nodup) : ((g.edges.map (arrowOf g)).map (·.ends)).Nodup := by
  rw [List.map_map]
  refine (List.Nodup.of_map _ hends).map_on fun e he e' he' h => ?_
  obtain ⟨hsource, htarget⟩ := Prod.mk.inj h
  refine List.inj_on_of_nodup_map hends he he' (Prod.ext ?_ ?_)
  · exact displayName_inj hg hlabels (hg.2 e he).1 (hg.2 e' he').1 hsource
  · exact displayName_inj hg hlabels (hg.2 e he).2 (hg.2 e' he').2 htarget

/-- A valid graph whose labels are words is read back from PlantUML as its quotient by label: with
the labels of the nodes that its edges join as ids and labels, in the order in which the edges
mention them, and with one edge for every pair of labels: in the order of the first edge of the
pair, and with what is read of the label of the last one. Where labels are different and no pair is
joined twice, every edge comes back in its place. -/
theorem parse_generate_eq_quotient (hg : g.Valid) (hnode : ∀ n ∈ g.nodes, IsWord n.label)
    (hedge : ∀ e ∈ g.edges, ∀ x ∈ e.label, '\n' ∉ x.toList) :
    parse .plantUml (generate .plantUml g) =
        ⟨(arrowIds (g.edges.map (arrowOf g))).mapIdx fun i x =>
            Node.fresh x x (Position.gridSlot i),
          Graph.edgesOf (g.edges.map (arrowOf g))⟩ ∧
      (∀ n ∈ g.nodes, displayName g n.id = n.label) ∧
      ((g.nodes.map (·.label)).Nodup → g.ends.Nodup →
        (parse .plantUml (generate .plantUml g)).edges = g.edges.map fun e =>
          Edge.between (displayName g e.source) (displayName g e.target)
            (colonReadBack e.label)) := by
  have hword (id : String) (hmem : id ∈ g.nodeIds) : IsWord (displayName g id) := by
    obtain ⟨n, hn, rfl⟩ := List.mem_map.mp hmem
    exact displayName_id hg hn ▸ hnode n hn
  have hstatements : statements .plantUml (write g) =
      (g.edges.map (arrowOf g)).map (·.statement) := by
    rw [statements_write (fun e he => ⟨hword _ (hg.2 e he).1, hword _ (hg.2 e he).2⟩) hedge,
      List.map_map]
    rfl
  have hparse := parse_of_statements_eq_arrows hstatements
  refine ⟨hparse, fun n hn => displayName_id hg hn, fun hlabels hends => ?_⟩
  have hedges := Graph.edgesOf_of_nodup (nodup_ends_map_arrowOf hg hlabels hends)
  rw [generate, Engine.dialect, hparse, hedges, List.map_map]
  rfl

/-- A graph as an editor may leave it: ids are no words, two nodes share a label, edges run side by
side and in circles, and their labels have spaces and blanks at their ends. -/
def tangled : Graph where
  nodes :=
    [⟨"node-1", "Svc", ⟨-3.5, 0⟩, ⟨200, 60⟩, true⟩,
      ⟨"", "Svc", ⟨100, 100⟩, Size.default, false⟩,
      ⟨"é", "_7", ⟨1e300, 2.25⟩, Size.default, false⟩]
  edges :=
    [⟨"edge-1", "é", "node-1", some "first", .smoothStep, true⟩,
      ⟨"edge-2", "", "node-1", some " \u00a0\t", .smoothStep, false⟩,
      ⟨"edge-3", "é", "", some "\t \u00a0a -> b; \u2003", .smoothStep, false⟩]

/-- The same graph with a label of its own for every node. -/
def untangled : Graph where
  nodes := (tangled.relabel "" "Db").nodes
  edges := tangled.edges

theorem parse_generate_tangled_quotient :
    tangled.Valid ∧ (∀ n ∈ tangled.nodes, IsWord n.label) ∧
      (∀ e ∈ tangled.edges, ∀ x ∈ e.label, '\n' ∉ x.toList) ∧
      parse .plantUml (generate .plantUml tangled) =
        ⟨[Node.fresh "_7" "_7" (Position.gridSlot 0), Node.fresh "Svc" "Svc" (Position.gridSlot 1)],
          [Edge.between "_7" "Svc" (some "\u00a0a -> b;"), Edge.between "Svc" "Svc" none]⟩ ∧
      (untangled.nodes.map (·.label)).Nodup ∧ untangled.ends.Nodup ∧
      (parse .plantUml (generate .plantUml untangled)).edges =
        [Edge.between "_7" "Svc" (some "first"), Edge.between "Db" "Svc" none,
          Edge.between "_7" "Db" (some "\u00a0a -> b;")] :=
  ⟨by decide, by decide, by decide,
    (parse_generate_eq_quotient (by decide) (by decide) (by decide)).1.trans (by decide +kernel),
    by decide, by decide,
    ((parse_generate_eq_quotient (by decide) (by decide) (by decide)).2.2 (by decide)
      (by decide)).trans (by decide +kernel)⟩

end PlantUml

end BoxArrow
