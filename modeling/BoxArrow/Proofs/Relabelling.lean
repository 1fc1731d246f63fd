import BoxArrow.Proofs.Edits
import BoxArrow.Proofs.MermaidGrammar
import BoxArrow.Proofs.MermaidRoundTrip

/-!
# New labels in a flowchart

Any text can be given to a node as its label, and the flowchart has it between brackets as it is. The
line of the node, which is more than one line when the label has line feeds, may then be read as
anything: as nothing, as an arrow to another node, or as several statements. What is read of it comes
between the declarations of the nodes before and of those behind, and before all edges. Nodes and
edges that are declared again change nothing, so the structure of the graph may survive even so. This
file says exactly when it does.

A label that is not empty and has neither a closing bracket nor a line feed is always safe: the graph
comes back with it.

## Main definitions

* `BoxArrow.Graph.StandsFor` — when what is read in the place of a node leaves a graph as it is.
* `BoxArrow.Graph.replaced` — the statements of a graph with others in the place of one declaration.

## Main results

* `BoxArrow.Graph.IsTextual.relabel` — labels of the vocabulary keep a graph textual.
* `BoxArrow.Graph.described_replaced_iff` — statements in the place of the declaration of a node.
* `BoxArrow.Mermaid.mem_statements_nodeLine` — what is read of the line of a node.
* `BoxArrow.Mermaid.statements_write_replaced` — the statements of a flowchart in which one label is
  any text.
* `BoxArrow.Mermaid.structure_relabel_empty_iff` — what becomes of the empty label.
* `BoxArrow.Mermaid.parse_generate_relabel` — which labels keep the structure of a flowchart.
-/

namespace BoxArrow

open scoped List

namespace Graph

variable {g p : Graph} {before after : List Node} {n : Node} {id label : String}
  {v : Vocabulary} {S : List Statement}

/-! ### A graph with a new label -/

/-- A node is relabelled where it stands. -/
theorem exists_nodes_relabel (hid : id ∈ g.nodeIds) (label : String) :
    ∃ before n after, g.nodes = before ++ n :: after ∧ n.id = id ∧
      g.relabel id label = ⟨before ++ { n with label := label } :: after, g.edges⟩ := by
  obtain ⟨nodes, edges⟩ := g
  rw [nodeIds, List.mem_map] at hid
  induction nodes with
  | nil => simp at hid
  | cons m nodes ih =>
    by_cases hm : m.id = id
    · exact ⟨[], m, nodes, rfl, hm, by simp [relabel, modifyFirst, hm]⟩
    · obtain ⟨before, n, after, hnodes, hn, hrelabel⟩ := ih (by simpa [hm] using hid)
      refine ⟨m :: before, n, after, by simp [show nodes = _ from hnodes], hn, ?_⟩
      simpa [relabel, modifyFirst, hm] using hrelabel

/-- A label that can be written beside a mention keeps a graph textual. -/
theorem IsTextual.relabel (h : g.IsTextual v) (hlabel : v.inline label) (id : String) :
    (g.relabel id label).IsTextual v := by
  have hnodes : (g.relabel id label).nodes =
      g.nodes.map fun n => if n.id = id then { n with label := label } else n :=
    modifyFirst_eq_map _ _ _ _ h.valid.1
  refine ⟨valid_relabel h.valid id label, ?_, fun n hn => ?_, fun n hn => ?_, h.between_eq,
    h.nodup_ends, h.label_edge⟩
  · refine List.ext_getElem? fun i => ?_
    have hfresh : (g.nodes.mapIdx fun i n => Node.fresh n.id n.label (Position.gridSlot i))[i]? =
        g.nodes[i]? := by rw [h.nodes_eq]
    rw [List.getElem?_mapIdx] at hfresh
    rw [hnodes, List.getElem?_mapIdx, List.getElem?_map]
    cases hn : g.nodes[i]? with
    | none => rfl
    | some n =>
      rw [hn, Option.map_some, Option.some.injEq] at hfresh
      rw [Option.map_some, Option.map_some, Option.some.injEq]
      -- a new label does not touch the rest of the node
      split_ifs
      · exact congrArg (fun m : Node => { m with label := label }) hfresh
      · exact hfresh
  · rw [hnodes] at hn
    obtain ⟨m, hm, rfl⟩ := List.mem_map.mp hn
    split_ifs <;> exact h.isWord_id m hm
  · rw [hnodes] at hn
    obtain ⟨m, hm, rfl⟩ := List.mem_map.mp hn
    split_ifs
    · exact .inr (.inl hlabel)
    · exact h.label_node m hm

/-! ### Statements in the place of a declaration -/

/-- A graph `p` that is read in the place of the node `id` of a graph `g` stands for this node. -/
structure StandsFor (p g : Graph) (id : String) : Prop where
  /-- Behind the ids before the node, those of `p` that are new come in the order of `g`. -/
  prefix_nodeIds : (g.nodeIds.takeWhile (· != id) ++ p.nodeIds).eraseDups <+: g.nodeIds
  /-- A node that is not read has its place at the end, where an edge makes it known. -/
  missing : id ∉ p.nodeIds →
    g.nodeIds.getLast? = some id ∧ ∃ e ∈ g.edges, id = e.source ∨ id = e.target
  /-- The connections of `p` are the first ones of `g`. -/
  prefix_ends : p.ends <+: g.ends

instance : Decidable (p.StandsFor g id) :=
  decidable_of_iff
    ((g.nodeIds.takeWhile (· != id) ++ p.nodeIds).eraseDups <+: g.nodeIds ∧
      (id ∉ p.nodeIds →
        g.nodeIds.getLast? = some id ∧ ∃ e ∈ g.edges, id = e.source ∨ id = e.target) ∧
      p.ends <+: g.ends)
    ⟨fun ⟨h₁, h₂, h₃⟩ => ⟨h₁, h₂, h₃⟩, fun ⟨h₁, h₂, h₃⟩ => ⟨h₁, h₂, h₃⟩⟩

/-- The statements about the nodes and edges of a graph with others in the place of the declaration
of one node. -/
def replaced (before : List Node) (S : List Statement) (after : List Node) (es : List Edge) :
    List Statement :=
  before.map (·.declaration) ++ (S ++ (after.map (·.declaration) ++ es.map (·.connection)))

theorem nodeIds_described_replaced (es : List Edge) :
    (described (replaced before S after es)).nodeIds =
      (before.map (·.id) ++ ((described S).nodeIds ++
        (after.map (·.id) ++ es.flatMap fun e => [e.source, e.target]))).eraseDups := by
  have hdeclared (ns : List Node) :
      (ns.map fun n => (⟨n.id, some n.label⟩ : Mention)).map (·.id) = ns.map (·.id) := by
    rw [List.map_map]
    rfl
  have hends : (es.flatMap fun e => [Mention.bare e.source, .bare e.target]).map (·.id) =
      es.flatMap fun e => [e.source, e.target] := by
    rw [List.map_flatMap]
    rfl
  rw [nodeIds_described, nodeIds_described, replaced, List.flatMap_append, List.flatMap_append,
    List.flatMap_append, flatMap_mentions_declarations, flatMap_mentions_declarations,
    flatMap_mentions_connections, mentionedIds, List.map_append, List.map_append, List.map_append,
    hdeclared, hdeclared, hends, mentionedIds, eraseDups_append_eraseDups_append]

theorem ends_described_replaced (es : List Edge) :
    (described (replaced before S after es)).ends =
      ((S.filterMap (·.arrow?)).map (·.ends) ++ es.map (·.ends)).eraseDups := by
  have harrows : (es.map (·.arrow)).map (·.ends) = es.map (·.ends) := by
    rw [List.map_map]
    rfl
  rw [ends_described, replaced, List.filterMap_append, List.filterMap_append, List.filterMap_append,
    filterMap_arrow?_declarations, filterMap_arrow?_declarations, filterMap_arrow?_connections,
    List.nil_append, List.nil_append, joinedPairs, List.map_append, harrows]

/-- Statements in the place of a declaration leave the nodes and the edges of a graph as they are
exactly when they stand for the node. -/
theorem described_replaced_iff (hg : g.Valid) (hends : g.ends.Nodup)
    (hnodes : g.nodes = before ++ n :: after) :
    (described (replaced before S after g.edges)).nodeIds = g.nodeIds ∧
        (described (replaced before S after g.edges)).ends = g.ends ↔
      (described S).StandsFor g n.id := by
  have hids : g.nodeIds = before.map (·.id) ++ n.id :: after.map (·.id) := by
    rw [nodeIds, hnodes, List.map_append, List.map_cons]
  have hnodup : (before.map (·.id) ++ n.id :: after.map (·.id)).Nodup := hids ▸ hg.1
  have hknown : ∀ id ∈ g.edges.flatMap fun e => [e.source, e.target],
      id ∈ before.map (·.id) ++ n.id :: after.map (·.id) :=
    fun id hid => hids ▸ hg.mem_nodeIds_of_mem_flatMap hid
  have hfirst : g.nodeIds.takeWhile (· != n.id) = before.map (·.id) :=
    hids ▸ takeWhile_ne_of_nodup hnodup
  have hlast : g.nodeIds.getLast? = some n.id ↔ after.map (·.id) = [] :=
    hids ▸ getLast?_eq_some_iff_of_nodup hnodup
  have hend : n.id ∈ (g.edges.flatMap fun e => [e.source, e.target]) ↔
      ∃ e ∈ g.edges, n.id = e.source ∨ n.id = e.target := by
    simp only [List.mem_flatMap, List.mem_pair]
  have hnodeIds := eraseDups_replaced_eq_iff (l := (described S).nodeIds) hnodup hknown
  have hpairs : (described S).ends = ((S.filterMap (·.arrow?)).map (·.ends)).eraseDups :=
    ends_described S
  rw [nodeIds_described_replaced, ends_described_replaced, ← ends,
    eraseDups_append_eq_right_iff hends, ← hpairs]
  rw [← hids, ← hfirst, ← hlast, hend] at hnodeIds
  rw [← hfirst, hnodeIds]
  constructor
  · rintro ⟨⟨h₁, h₂⟩, h₃⟩
    exact ⟨h₁, h₂, h₃⟩
  · rintro ⟨h₁, h₂, h₃⟩
    exact ⟨⟨h₁, h₂⟩, h₃⟩

end Graph

namespace Mermaid

open Reader

variable {g : Graph} {n : Node} {e : Edge} {id label text : String} {s : Statement}

/-! ### The line of a node with any label -/

/-- The line of a node whose label has no line feed is no directive. It is read as what the grammar
says about it. -/
theorem mem_statements_nodeLine (hid : IsWord n.id) (hlabel : '\n' ∉ n.label.toList) :
    s ∈ statements .mermaid (nodeLine n) ↔
      IsLine (n.id.toList ++ '[' :: (n.label.toList ++ [']'])) s := by
  have htrim : trim (nodeLine n).toList = n.id.toList ++ '[' :: (n.label.toList ++ [']']) := by
    rw [nodeLine_toList]
    exact trim_indented (hid.takeWhile_append hid.isBlank _) (by simp [isBlank])
  rw [statements_of_newline_notMem _ (newline_notMem_nodeLine hid hlabel), Option.mem_toList,
    Dialect.readLine, htrim, Dialect.readTrimmed_eq_some, ← whole_eq_some_iff]
  exact ⟨fun h => h.2.2, fun h => ⟨by simp, isDirective_declaration hid, h⟩⟩

theorem statements_nodeLine (hid : IsWord n.id) (hlabel : vocabulary.inline n.label) :
    statements .mermaid (nodeLine n) = [n.declaration] := by
  rw [statements_of_newline_notMem _ (newline_notMem_nodeLine hid hlabel.2),
    readLine_nodeLine hid hlabel.1]
  rfl

/-- Nothing is read of the line of a node whose label is empty. -/
theorem statements_nodeLine_of_empty (hid : IsWord n.id) (hlabel : n.label = "") :
    statements .mermaid (nodeLine n) = [] := by
  have hbracket : bracketLabel ['[', ']'] = none := by decide
  have hmention : mention (n.id.toList ++ ['[', ']']) = some (.bare n.id, ['[', ']']) := by
    rw [mention, bind_of_some (word_append hid rfl), bind_of_some (optional_of_none hbracket)]
    rfl
  have hconnection : connection (n.id.toList ++ ['[', ']']) = none := by
    rw [connection, bind_of_some hmention]
    rfl
  have hstatement : statement (n.id.toList ++ ['[', ']']) = none := by
    rw [statement, orElse_of_none hconnection, declaration, bind_of_some (word_append hid rfl),
      bind_of_none hbracket]
  refine List.eq_nil_iff_forall_not_mem.mpr fun s hs => ?_
  rw [mem_statements_nodeLine hid (by simp [hlabel]), hlabel] at hs
  exact Option.some_ne_none _ (hs.statement.symm.trans hstatement)

theorem statements_edgeLine (hsource : IsWord e.source) (htarget : IsWord e.target)
    (hlabel : ∀ x ∈ e.label, vocabulary.arrow x) (hheader : ¬ IsHeader e.source) :
    statements .mermaid (edgeLine e) = [e.connection] := by
  rw [statements_of_newline_notMem _
      (newline_notMem_edgeLine hsource htarget fun x hx => (hlabel x hx).2),
    readLine_edgeLine hsource htarget fun x hx => (hlabel x hx).1, if_pos hheader]
  rfl

/-! ### A flowchart with any label -/

/-- The statements of a flowchart are those of its lines, however many lines they are. -/
theorem statements_write_eq_flatMap (g : Graph) :
    statements .mermaid (write g) =
      (g.nodes.flatMap fun n => statements .mermaid (nodeLine n)) ++
        g.edges.flatMap fun e => statements .mermaid (edgeLine e) := by
  have hheader : statements .mermaid "flowchart LR" = [] := by decide
  rw [write, statements_unlines, List.cons_append, List.flatMap_cons, hheader, List.nil_append,
    List.flatMap_append, List.flatMap_map, List.flatMap_map]

/-- With another node in the place of one, whatever its label is, what is read of its line comes in
the place of the declaration. -/
theorem statements_write_replaced (h : g.IsWritable vocabulary.inline vocabulary.arrow)
    (hsource : ∀ e ∈ g.edges, ¬ IsHeader e.source) {before after : List Node}
    (hnodes : g.nodes = before ++ n :: after) (m : Node) :
    statements .mermaid (write ⟨before ++ m :: after, g.edges⟩) =
      Graph.replaced before (statements .mermaid (nodeLine m)) after g.edges := by
  have hdeclared {ns : List Node} (hns : ns ⊆ g.nodes) :
      (ns.flatMap fun n => statements .mermaid (nodeLine n)) = ns.map (·.declaration) := by
    rw [List.map_eq_flatMap]
    exact List.flatMap_congr fun n hn =>
      statements_nodeLine (h.isWord_id n (hns hn)) (h.label_node n (hns hn))
  have hdrawn : (g.edges.flatMap fun e => statements .mermaid (edgeLine e)) =
      g.edges.map (·.connection) := by
    rw [List.map_eq_flatMap]
    exact List.flatMap_congr fun e he =>
      statements_edgeLine (h.isWord_ends e he).1 (h.isWord_ends e he).2 (h.label_edge e he)
        (hsource e he)
  have hbefore : before ⊆ g.nodes := hnodes ▸ List.subset_append_left _ _
  have hafter : after ⊆ g.nodes := fun m hm =>
    hnodes ▸ List.mem_append_right _ (List.mem_cons_of_mem _ hm)
  rw [statements_write_eq_flatMap, List.flatMap_append, List.flatMap_cons, hdeclared hbefore,
    hdeclared hafter, hdrawn, List.append_assoc, List.append_assoc, Graph.replaced]

/-! ### New labels -/

/-- The empty label hides the line of its node. Only the last node can do without, when an edge makes
it known. -/
theorem standsFor_nodeLine_of_empty (hg : g.Valid) (hid : IsWord n.id) (hlabel : n.label = "") :
    (parse .mermaid (nodeLine n)).StandsFor g n.id ↔
      g.nodeIds.getLast? = some n.id ∧ ∃ e ∈ g.edges, n.id = e.source ∨ n.id = e.target := by
  have hempty : parse .mermaid (nodeLine n) = ⟨[], []⟩ := by
    rw [parse_eq_described, statements_nodeLine_of_empty hid hlabel]
    rfl
  rw [hempty]
  refine ⟨fun h => h.missing List.not_mem_nil, fun h => ⟨?_, fun _ => h, List.nil_prefix⟩⟩
  have hbefore : g.nodeIds.takeWhile (· != n.id) <+: g.nodeIds := List.takeWhile_prefix _
  have hnodup := hg.1.sublist hbefore.sublist
  change (g.nodeIds.takeWhile (· != n.id) ++ []).eraseDups <+: _
  rwa [List.append_nil, eraseDups_of_nodup hnodup]

theorem structure_relabel_iff (hg : parse .mermaid text = g) (hid : id ∈ g.nodeIds)
    (hsource : ∀ e ∈ g.edges, ¬ IsHeader e.source) (label : String) :
    (parse .mermaid (generate .mermaid (g.relabel id label))).nodeIds = g.nodeIds ∧
        (parse .mermaid (generate .mermaid (g.relabel id label))).ends = g.ends ↔
      (parse .mermaid s!"  {id}[{label}]").StandsFor g id := by
  have htextual : g.IsTextual vocabulary := hg ▸ isTextual_parse .mermaid text
  obtain ⟨before, n, after, hnodes, rfl, hrelabel⟩ := Graph.exists_nodes_relabel hid label
  rw [generate, Engine.dialect, hrelabel, parse_eq_described,
    statements_write_replaced (isWritable_of_isTextual htextual) hsource hnodes,
    Graph.described_replaced_iff htextual.valid htextual.nodup_ends hnodes, parse_eq_described]
  rfl

/-- With the empty label, the flowchart keeps its structure only if the node is the last one and has
an arrow. -/
theorem structure_relabel_empty_iff (hg : parse .mermaid text = g) (hid : id ∈ g.nodeIds)
    (hsource : ∀ e ∈ g.edges, ¬ IsHeader e.source) :
    (parse .mermaid (generate .mermaid (g.relabel id ""))).nodeIds = g.nodeIds ∧
        (parse .mermaid (generate .mermaid (g.relabel id ""))).ends = g.ends ↔
      g.nodeIds.getLast? = some id ∧ ∃ e ∈ g.edges, id = e.source ∨ id = e.target := by
  have htextual : g.IsTextual vocabulary := hg ▸ isTextual_parse .mermaid text
  rw [structure_relabel_iff hg hid hsource]
  obtain ⟨n, hn, rfl⟩ := List.mem_map.mp hid
  exact standsFor_nodeLine_of_empty (n := { n with label := "" }) htextual.valid
    (htextual.isWord_id n hn) rfl

/-- A node of a flowchart in which no arrow starts at a node called `graph` or `flowchart` gets a new
label, which may be any text. The flowchart that is written then has the same nodes in the same order
and the same connections in the same order exactly when what is read of the line of the node stands
for the node. This is so for every label that is not empty and has neither a closing bracket nor a
line feed, and with such a label the graph comes back as it is. -/
theorem parse_generate_relabel (hg : parse .mermaid text = g) (hid : id ∈ g.nodeIds)
    (hsource : ∀ e ∈ g.edges, e.source ≠ "graph" ∧ e.source ≠ "flowchart") (label : String) :
    ((parse .mermaid (generate .mermaid (g.relabel id label))).nodeIds = g.nodeIds ∧
          (parse .mermaid (generate .mermaid (g.relabel id label))).ends = g.ends ↔
        (parse .mermaid s!"  {id}[{label}]").StandsFor g id) ∧
      (IsEnclosed ']' label ∧ '\n' ∉ label.toList →
        parse .mermaid (generate .mermaid (g.relabel id label)) = g.relabel id label) := by
  have htextual : g.IsTextual vocabulary := hg ▸ isTextual_parse .mermaid text
  have hheader : ∀ e ∈ g.edges, ¬ IsHeader e.source := fun e he => not_isHeader.mpr (hsource e he)
  refine ⟨structure_relabel_iff hg hid hheader label, fun hlabel => ?_⟩
  have hkept : g.edges.filter (fun e => ¬ IsHeader e.source) = g.edges :=
    List.filter_eq_self.mpr fun e he => decide_eq_true (hheader e he)
  have htrip := parse_write_of_isTextual (htextual.relabel hlabel id)
  rwa [Graph.relabel, hkept] at htrip

/-- A bracket may open in a label, but the first one that closes ends it. -/
theorem parse_generate_relabel_brackets :
    "a" ∈ (parse .mermaid "a --> b").nodeIds ∧
      (∀ e ∈ (parse .mermaid "a --> b").edges, e.source ≠ "graph" ∧ e.source ≠ "flowchart") ∧
      parse .mermaid (generate .mermaid ((parse .mermaid "a --> b").relabel "a" "x[ --> b")) =
        (parse .mermaid "a --> b").relabel "a" "x[ --> b" ∧
      ¬ ((parse .mermaid (generate .mermaid
            ((parse .mermaid "a --> b").relabel "a" "x] --> c[y"))).nodeIds =
          (parse .mermaid "a --> b").nodeIds ∧
        (parse .mermaid (generate .mermaid
            ((parse .mermaid "a --> b").relabel "a" "x] --> c[y"))).ends =
          (parse .mermaid "a --> b").ends) := by
  have hid : "a" ∈ (parse .mermaid "a --> b").nodeIds := by decide +kernel
  have hsource : ∀ e ∈ (parse .mermaid "a --> b").edges,
      e.source ≠ "graph" ∧ e.source ≠ "flowchart" := by decide +kernel
  have hplain := (parse_generate_relabel rfl hid hsource "x[ --> b").2 (by decide)
  have harrow := (parse_generate_relabel rfl hid hsource "x] --> c[y").1
  exact ⟨hid, hsource, hplain, harrow.not.mpr (by decide +kernel)⟩

/-- A label with an arrow in it draws the arrow and makes a node. -/
theorem parse_generate_relabel_ne :
    "a" ∈ (parse .mermaid "a --> b").nodeIds ∧
      generate .mermaid ((parse .mermaid "a --> b").relabel "a" "x] --> c[y") =
        "flowchart LR\n  a[x] --> c[y]\n  b[b]\n  a --> b\n" ∧
      (parse .mermaid (generate .mermaid
        ((parse .mermaid "a --> b").relabel "a" "x] --> c[y"))).nodeIds ≠
          (parse .mermaid "a --> b").nodeIds ∧
      (parse .mermaid (generate .mermaid
        ((parse .mermaid "a --> b").relabel "a" "x] --> c[y"))).ends ≠
          (parse .mermaid "a --> b").ends := by
  decide +kernel

end Mermaid

end BoxArrow
