import BoxArrow.Proofs.Textual

/-!
# Flowcharts that were written and are read again

Every line that is written for a node or an edge is read as a statement about it, with one
exception. An arrow that starts at a node called `graph` or `flowchart` looks like the header of a
flowchart and is passed over. Declarations are safe from this, because a bracket follows the id.

So the graph of a text comes back from its own flowchart with all its nodes, and with those of its
edges that do not start at such a node. Of any other graph the nodes come back too, on the grid, and
parallel edges come back as one.

## Main definitions

* `BoxArrow.Mermaid.IsHeader` — the ids that a line cannot start with.

## Main results

* `BoxArrow.Mermaid.readLine_nodeLine`, `BoxArrow.Mermaid.readLine_edgeLine` — line by line.
* `BoxArrow.Mermaid.statements_write` — the statements of a written flowchart.
* `BoxArrow.Mermaid.parse_generate_parse` — what comes back of a text, and which texts survive.
* `BoxArrow.Mermaid.parse_generate_eq_merged` — what comes back of an edited graph.
-/

namespace BoxArrow.Mermaid

open Reader

open scoped List

/-- The words that begin the header of a flowchart. -/
def IsHeader (w : String) : Prop :=
  w = "flowchart" ∨ w = "graph"

instance (w : String) : Decidable (IsHeader w) :=
  inferInstanceAs (Decidable (_ ∨ _))

theorem not_isHeader {w : String} : ¬ IsHeader w ↔ w ≠ "graph" ∧ w ≠ "flowchart" := by
  rw [IsHeader, not_or, and_comm]

variable {n : Node} {e : Edge} {rest : List Char}

/-! ### Mentions -/

theorem mention_labelled {id label : String} (hid : IsWord id) (hlabel : IsEnclosed ']' label) :
    mention (id.toList ++ '[' :: (label.toList ++ ']' :: rest)) = some (⟨id, some label⟩, rest) := by
  rw [mention, bind_of_some (word_append hid rfl), bracketLabel,
    bind_of_some (optional_of_some (enclosed_append hlabel))]
  rfl

theorem mention_bare {id : String} (hid : IsWord id) (hrest : rest.takeWhile isWordChar = [])
    (hbracket : rest.head? ≠ some '[') : mention (id.toList ++ rest) = some (.bare id, rest) := by
  rw [mention, bind_of_some (word_append hid hrest), bracketLabel,
    bind_of_some (optional_of_none (enclosed_eq_none hbracket))]
  rfl

/-! ### Lines of nodes -/

theorem nodeLine_toList (n : Node) :
    (nodeLine n).toList = ' ' :: ' ' :: (n.id.toList ++ '[' :: (n.label.toList ++ [']'])) := by
  simp [nodeLine, toString]

/-- A bracket right after the first word keeps a line from being a header. -/
theorem isDirective_declaration {id : String} (hid : IsWord id) :
    isDirective (id.toList ++ '[' :: rest) = false := by
  have hfirst : id.toList ++ ['['] <+: firstWord (id.toList ++ '[' :: rest) := by
    rw [List.append_cons id.toList '[' rest]
    refine prefix_firstWord (by simp) fun c hc => ?_
    rcases List.mem_append.mp hc with hc | hc
    · exact hid.isBlank c hc
    · obtain rfl := List.mem_singleton.mp hc
      rfl
  have hbracket : '[' ∈ firstWord (id.toList ++ '[' :: rest) := hfirst.subset (by simp)
  have hcomment : "%%".toList.isPrefixOf (id.toList ++ '[' :: rest) = false := by
    rw [← Bool.not_eq_true, List.isPrefixOf_iff_prefix]
    exact hid.not_prefix (by decide)
  rw [isDirective, hcomment, Bool.false_or, Bool.or_eq_false_iff, beq_eq_false_iff_ne,
    beq_eq_false_iff_ne]
  constructor <;> intro heq <;> rw [heq] at hbracket <;> exact absurd hbracket (by decide)

/-- The line of a node is read as its declaration. -/
theorem readLine_nodeLine (hid : IsWord n.id) (hlabel : IsEnclosed ']' n.label) :
    Engine.mermaid.dialect.readLine (nodeLine n).toList = some n.declaration := by
  have hmention : mention (n.id.toList ++ '[' :: (n.label.toList ++ [']'])) =
      some (⟨n.id, some n.label⟩, []) := mention_labelled hid hlabel
  have hconnection : connection (n.id.toList ++ '[' :: (n.label.toList ++ [']'])) = none := by
    rw [connection, bind_of_some hmention, bind_of_some (spaces_of_none rfl),
      bind_of_none (literal_eq_none (by simp))]
  have hdeclaration : declaration (n.id.toList ++ '[' :: (n.label.toList ++ [']'])) =
      some (n.declaration, []) := by
    rw [declaration, bind_of_some (word_append hid rfl), bracketLabel,
      bind_of_some (enclosed_append hlabel)]
    rfl
  rw [Dialect.readLine, nodeLine_toList, trim_indented (hid.takeWhile_append hid.isBlank _)
    (by simp [isBlank]), Dialect.readTrimmed_eq_some]
  refine ⟨by simp, isDirective_declaration hid, whole_eq_some.mpr ?_⟩
  exact orElse_eq_some.mpr (.inr ⟨hconnection, hdeclaration⟩)

/-! ### Lines of edges -/

/-- What an arrow has between its head and its target. -/
def pipe : Option String → List Char
  | none => []
  | some label => '|' :: (label.toList ++ ['|'])

theorem edgeLine_toList (e : Edge) :
    (edgeLine e).toList =
      ' ' :: ' ' :: (e.source.toList ++ ' ' :: ("-->".toList ++ (pipe e.label ++
        ' ' :: e.target.toList))) := by
  cases h : e.label <;> simp [edgeLine, pipe, toString, h]

/-- The text between an arrow and the target of its edge is read as the label. -/
theorem pipe_append {label : Option String} (hlabel : ∀ x ∈ label, IsEnclosed '|' x)
    {target : String} (htarget : IsWord target) {α : Type} (f : Option String → Reader α) :
    (do
      spaces
      let label ← Reader.optional pipeLabel
      spaces
      f label) (pipe label ++ ' ' :: target.toList) = f label target.toList := by
  have hspace : target.toList.takeWhile isSpace = [] := by
    simpa using htarget.takeWhile_append htarget.isSpace []
  cases label with
  | none =>
    have hbar : target.toList.head? ≠ some '|' := by
      intro hhead
      exact htarget.notMem (by decide) (List.mem_of_head? hhead)
    rw [pipe, List.nil_append, bind_of_some (spaces_of_one hspace), pipeLabel,
      bind_of_some (optional_of_none (enclosed_eq_none hbar)), bind_of_some (spaces_of_none hspace)]
  | some x =>
    rw [pipe, List.cons_append, List.append_assoc, List.singleton_append,
      bind_of_some (spaces_of_none rfl), pipeLabel,
      bind_of_some (optional_of_some (enclosed_append (hlabel x rfl))),
      bind_of_some (spaces_of_one hspace)]

theorem connection_edgeLine (hsource : IsWord e.source) (htarget : IsWord e.target)
    (hlabel : ∀ x ∈ e.label, IsEnclosed '|' x) :
    connection (e.source.toList ++ ' ' :: ("-->".toList ++ (pipe e.label ++
      ' ' :: e.target.toList))) = some (e.connection, []) := by
  have hmention : mention e.target.toList = some (.bare e.target, []) := by
    simpa using mention_bare htarget (List.takeWhile_nil) nofun
  rw [connection, bind_of_some (mention_bare hsource rfl (by simp)),
    bind_of_some (spaces_of_one rfl), bind_of_some (literal_append _ _),
    pipe_append hlabel htarget, bind_of_some hmention]
  rfl

/-- The line of an edge is taken for a header exactly when its source looks like one. -/
theorem isDirective_edgeLine {source : String} (hsource : IsWord source) :
    isDirective (source.toList ++ ' ' :: rest) = decide (IsHeader source) := by
  have hcomment : "%%".toList.isPrefixOf (source.toList ++ ' ' :: rest) = false := by
    rw [← Bool.not_eq_true, List.isPrefixOf_iff_prefix]
    exact hsource.not_prefix (by decide)
  have hfirst : firstWord (source.toList ++ ' ' :: rest) = source.toList :=
    firstWord_append_of_blank hsource.ne_nil hsource.isBlank (by decide)
  rw [isDirective, hcomment, hfirst, Bool.false_or, Bool.eq_iff_iff, decide_eq_true_iff, IsHeader,
    Bool.or_eq_true, beq_iff_eq, beq_iff_eq, String.toList_inj, String.toList_inj]

/-- The line of an edge is read from its source on, unless it is taken for a header. -/
theorem readLine_edgeLine_eq_whole (hsource : IsWord e.source) (htarget : IsWord e.target) :
    Engine.mermaid.dialect.readLine (edgeLine e).toList =
      if ¬ IsHeader e.source then
        statement.whole (e.source.toList ++ ' ' :: ("-->".toList ++ (pipe e.label ++
          ' ' :: e.target.toList)))
      else none := by
  have hend : (e.source.toList ++ ' ' :: ("-->".toList ++ (pipe e.label ++
      ' ' :: e.target.toList))).reverse.takeWhile isBlank = [] := by
    simp only [List.reverse_append, List.reverse_cons, List.append_assoc]
    refine takeWhile_append_eq_nil (by simpa using htarget.ne_nil) fun c hc => ?_
    exact htarget.isBlank c (List.mem_reverse.mp hc)
  have hdirective : isDirective (e.source.toList ++ ' ' :: ("-->".toList ++ (pipe e.label ++
      ' ' :: e.target.toList))) = decide (IsHeader e.source) := isDirective_edgeLine hsource
  rw [Dialect.readLine, edgeLine_toList, trim_indented (hsource.takeWhile_append hsource.isBlank _)
    hend]
  by_cases hheader : IsHeader e.source
  · rw [if_neg (not_not.mpr hheader)]
    exact Dialect.readTrimmed_of_directive (hdirective.trans (decide_eq_true hheader))
  · rw [if_pos hheader]
    exact Dialect.readTrimmed_of_statement (by simp) (hdirective.trans (decide_eq_false hheader))

/-- The line of an edge is read as its connection, unless it is taken for a header. -/
theorem readLine_edgeLine (hsource : IsWord e.source) (htarget : IsWord e.target)
    (hlabel : ∀ x ∈ e.label, IsEnclosed '|' x) :
    Engine.mermaid.dialect.readLine (edgeLine e).toList =
      if ¬ IsHeader e.source then some e.connection else none := by
  have hwhole : statement.whole (e.source.toList ++ ' ' :: ("-->".toList ++ (pipe e.label ++
      ' ' :: e.target.toList))) = some e.connection :=
    whole_eq_some.mpr (orElse_eq_some.mpr (.inl (connection_edgeLine hsource htarget hlabel)))
  rw [readLine_edgeLine_eq_whole hsource htarget, hwhole]

/-! ### Whole flowcharts -/

variable {g : Graph}

theorem newline_notMem_nodeLine (hid : IsWord n.id) (hlabel : '\n' ∉ n.label.toList) :
    '\n' ∉ (nodeLine n).toList := by
  have := hid.notMem (c := '\n') (by decide)
  simp_all [nodeLine_toList]

theorem newline_notMem_edgeLine (hsource : IsWord e.source) (htarget : IsWord e.target)
    (hlabel : ∀ x ∈ e.label, '\n' ∉ x.toList) : '\n' ∉ (edgeLine e).toList := by
  have hs := hsource.notMem (c := '\n') (by decide)
  have ht := htarget.notMem (c := '\n') (by decide)
  cases h : e.label <;> simp_all [edgeLine_toList, pipe]

/-- The statements of a written flowchart are those of the lines of its nodes and of its edges. -/
theorem statements_write_of_newline_notMem (hnodes : ∀ n ∈ g.nodes, '\n' ∉ (nodeLine n).toList)
    (hedges : ∀ e ∈ g.edges, '\n' ∉ (edgeLine e).toList) :
    statements .mermaid (write g) =
      (g.nodes.filterMap fun n => Engine.mermaid.dialect.readLine (nodeLine n).toList) ++
        g.edges.filterMap fun e => Engine.mermaid.dialect.readLine (edgeLine e).toList := by
  have hhead : ∀ l ∈ ["flowchart LR"],
      '\n' ∉ l.toList ∧ Engine.mermaid.dialect.readLine l.toList = none := by decide
  have hdocument := statements_document .mermaid g "" hhead hnodes hedges
  rwa [statements_empty, List.append_nil, String.append_empty] at hdocument

/-- The case of a graph that can be written. -/
theorem statements_write_eq_lines
    (h : g.IsWritable (fun x => '\n' ∉ x.toList) (fun x => '\n' ∉ x.toList)) :
    statements .mermaid (write g) =
      (g.nodes.filterMap fun n => Engine.mermaid.dialect.readLine (nodeLine n).toList) ++
        g.edges.filterMap fun e => Engine.mermaid.dialect.readLine (edgeLine e).toList :=
  statements_write_of_newline_notMem
    (fun n hn => newline_notMem_nodeLine (h.isWord_id n hn) (h.label_node n hn))
    (fun e he => newline_notMem_edgeLine (h.isWord_ends e he).1 (h.isWord_ends e he).2
      (h.label_edge e he))

/-- The statements of a written flowchart: a declaration for every node, and a connection for every
edge that does not look like a header. -/
theorem statements_write (h : g.IsWritable vocabulary.inline vocabulary.arrow) :
    statements .mermaid (write g) =
      g.nodes.map (·.declaration) ++
        (g.edges.filter fun e => ¬ IsHeader e.source).map (·.connection) := by
  rw [statements_write_eq_lines (h.mono (fun _ hx => hx.2) fun _ hx => hx.2)]
  congr 1
  · refine List.filterMap_eq_map_iff_forall_eq_some.mpr fun n hn => ?_
    exact readLine_nodeLine (h.isWord_id n hn) (h.label_node n hn).1
  · refine filterMap_eq_map_filter fun e he => ?_
    exact readLine_edgeLine (h.isWord_ends e he).1 (h.isWord_ends e he).2
      fun x hx => (h.label_edge e he x hx).1

/-! ### The round trip of a text -/

theorem isWritable_of_isTextual (h : g.IsTextual vocabulary) :
    g.IsWritable vocabulary.inline vocabulary.arrow := by
  refine h.isWritable (fun n hn => ?_) fun _ hx => hx
  have hid := h.isWord_id n hn
  rcases h.label_node n hn with hown | hinline | hlabel
  · exact hown.elim
  · exact hinline
  · exact hlabel ▸ ⟨hid.isEnclosed (by decide), hid.notMem (by decide)⟩

/-- The graph of a text comes back from its flowchart without the edges that look like headers. -/
theorem parse_write_of_isTextual (h : g.IsTextual vocabulary) :
    parse .mermaid (write g) =
      { g with edges := g.edges.filter fun e => ¬ IsHeader e.source } := by
  have hsub : (g.edges.filter fun e => ¬ IsHeader e.source) <+ g.edges := List.filter_sublist
  rw [parse_eq_described, statements_write (isWritable_of_isTextual h),
    Graph.described_declarations_append h.valid hsub.subset, h.nodes_eq,
    Graph.edgesOf_map_arrow (h.nodup_ends.sublist (hsub.map _))
      fun e he => h.between_eq e (hsub.subset he)]

/-- Of a flowchart that is read, written and read again, the nodes come back as they are, and so do
the edges that do not start at a node called `graph` or `flowchart`. The text survives exactly when
it has no other edges. -/
theorem parse_generate_parse (text : String) :
    parse .mermaid (generate .mermaid (parse .mermaid text)) =
        { parse .mermaid text with
          edges := (parse .mermaid text).edges.filter fun e => ¬ IsHeader e.source } ∧
      (parse .mermaid (generate .mermaid (parse .mermaid text)) = parse .mermaid text ↔
        ∀ e ∈ (parse .mermaid text).edges, e.source ≠ "graph" ∧ e.source ≠ "flowchart") := by
  have htrip := parse_write_of_isTextual (isTextual_parse .mermaid text)
  refine ⟨htrip, ?_⟩
  have hkept : (parse .mermaid (generate .mermaid (parse .mermaid text)) = parse .mermaid text) ↔
      (parse .mermaid text).edges.filter (fun e => ¬ IsHeader e.source) =
        (parse .mermaid text).edges := by
    rw [generate, Engine.dialect, htrip]
    exact ⟨fun h => congrArg Graph.edges h, fun h => congrArg (Graph.mk _) h⟩
  rw [hkept, List.filter_eq_self]
  simp only [decide_eq_true_eq, IsHeader, not_or, and_comm]

/-- One arrow from a node called `graph` does not survive. -/
theorem parse_generate_parse_ne :
    parse .mermaid (generate .mermaid (parse .mermaid "graph-->A")) ≠
      parse .mermaid "graph-->A" := by
  decide +kernel

/-! ### Graphs that were edited -/

/-- A valid graph that can be written is read back from its flowchart with all its nodes, as if they
were new, and with one edge for every pair of nodes that it joins: in the order of the first edge of
the pair, and with the label of the last one. -/
theorem parse_generate_eq_merged (hg : g.Valid) (hid : ∀ n ∈ g.nodes, IsWord n.id)
    (hnode : ∀ n ∈ g.nodes, IsEnclosed ']' n.label ∧ '\n' ∉ n.label.toList)
    (hedge : ∀ e ∈ g.edges, ∀ x ∈ e.label, IsEnclosed '|' x ∧ '\n' ∉ x.toList)
    (hsource : ∀ e ∈ g.edges, e.source ≠ "graph" ∧ e.source ≠ "flowchart") :
    parse .mermaid (generate .mermaid g) =
      ⟨g.nodes.mapIdx fun i n => Node.fresh n.id n.label (Position.gridSlot i),
        Graph.edgesOf (g.edges.map fun e => ⟨e.source, e.target, e.label⟩)⟩ := by
  have hkept : g.edges.filter (fun e => ¬ IsHeader e.source) = g.edges := by
    refine List.filter_eq_self.mpr fun e he => decide_eq_true ?_
    rintro (hflowchart | hgraph)
    · exact (hsource e he).2 hflowchart
    · exact (hsource e he).1 hgraph
  have hstatements : statements .mermaid (write g) =
      g.nodes.map (·.declaration) ++ g.edges.map (·.connection) := by
    rw [statements_write (hg.isWritable hid hnode hedge), hkept]
  rw [parse_eq_described]
  exact hstatements ▸ Graph.described_declarations_append hg (List.Subset.refl _)

/-- A graph as an editor may leave it: nodes are moved, resized and selected, edges run side by side,
and labels look like other parts of a flowchart. -/
def tangled : Graph where
  nodes :=
    [⟨"graph", " --> [b", ⟨-3.5, 0⟩, ⟨200, 60⟩, true⟩,
      ⟨"_7", "%% é|\r", ⟨100, 100⟩, Size.default, false⟩,
      ⟨"b", "b", ⟨1e300, 2.25⟩, Size.default, false⟩]
  edges :=
    [⟨"edge-1", "_7", "b", some "]-->[", .smoothStep, true⟩,
      ⟨"edge-2", "b", "graph", none, .smoothStep, false⟩,
      ⟨"edge-1", "_7", "b", some " last ", .smoothStep, false⟩,
      ⟨"", "b", "b", some "\t", .smoothStep, false⟩,
      ⟨"x", "b", "b", none, .smoothStep, false⟩]

theorem parse_generate_tangled :
    tangled.Valid ∧ (∀ n ∈ tangled.nodes, IsWord n.id) ∧
      (∀ n ∈ tangled.nodes, IsEnclosed ']' n.label ∧ '\n' ∉ n.label.toList) ∧
      (∀ e ∈ tangled.edges, ∀ x ∈ e.label, IsEnclosed '|' x ∧ '\n' ∉ x.toList) ∧
      (∀ e ∈ tangled.edges, e.source ≠ "graph" ∧ e.source ≠ "flowchart") ∧
      parse .mermaid (generate .mermaid tangled) =
        ⟨[Node.fresh "graph" " --> [b" (Position.gridSlot 0),
            Node.fresh "_7" "%% é|\r" (Position.gridSlot 1),
            Node.fresh "b" "b" (Position.gridSlot 2)],
          [Edge.between "_7" "b" (some " last "), Edge.between "b" "graph" none,
            Edge.between "b" "b" none]⟩ :=
  ⟨by decide, by decide, by decide, by decide, by decide,
    (parse_generate_eq_merged (by decide) (by decide) (by decide) (by decide) (by decide)).trans
      (by decide +kernel)⟩

end BoxArrow.Mermaid
