import BoxArrow.Proofs.GraphvizLabels
import BoxArrow.Proofs.Textual

/-!
# Digraphs that were written and are read again

Every line that is written for a node or an edge is read as a statement about the same ids or not at
all. The statement has the label that was written exactly when this label holds no quote.

So the graph of a text comes back from its own digraph exactly when no label holds a quote. Ids that
begin like a header do no harm. No line of the text that begins with such an id was read, so that
arrows only end at their nodes, and they have no label of their own.

Of any other graph with quote-free labels, the nodes that edges join come back, with their labels,
and parallel edges come back as one. The line of a label may come before the edge that introduces its
node, because labels are given to nodes last.

## Main definitions

* `BoxArrow.Graphviz.IsHeader` — the ids that a line cannot start with.

## Main results

* `BoxArrow.Graphviz.readLine_nodeLine`, `BoxArrow.Graphviz.readLine_edgeLine` — line by line.
* `BoxArrow.Graphviz.statements_write` — the statements of a written digraph.
* `BoxArrow.Graphviz.parse_generate_parse_eq_self_iff` — which texts survive the round trip.
* `BoxArrow.Graphviz.parse_generate_eq_alongEdges` — what comes back of an edited graph.
-/

namespace BoxArrow

/-- The id that the line of a statement begins with. -/
def Statement.firstId : Statement → String
  | .connection source _ _ => source.id
  | .declaration node => node.id
  | .nodeLabel id _ => id

namespace Graphviz

open Reader

open scoped List

variable {cs rest : List Char} {x : String}

/-! ### Lines -/

/-- The ids that begin like the header of a digraph. -/
def IsHeader (w : String) : Prop :=
  "digraph".toList <+: w.toList

instance (w : String) : Decidable (IsHeader w) :=
  inferInstanceAs (Decidable (_ <+: _))

variable {n : Node} {e : Edge} {s : Statement} {id source target : String}

theorem isDirective_append (hid : IsWord id) :
    isDirective (id.toList ++ ' ' :: rest) = decide (IsHeader id) := by
  have hbrace (c : Char) (hc : isWordChar c = false) :
      [c].isPrefixOf (id.toList ++ ' ' :: rest) = false := by
    rw [← Bool.not_eq_true, List.isPrefixOf_iff_prefix]
    exact hid.not_prefix hc
  have hfirst : firstWord (id.toList ++ ' ' :: rest) = id.toList :=
    firstWord_append_of_blank hid.ne_nil hid.isBlank (by decide)
  rw [isDirective, hbrace '{' (by decide), hbrace '}' (by decide), hfirst, Bool.false_or,
    Bool.false_or, Bool.eq_iff_iff, List.isPrefixOf_iff_prefix, decide_eq_true_iff, IsHeader]

/-- An indented line that ends with a semicolon is read from its first word on. -/
theorem readLine_indented (hid : IsWord id) :
    Engine.graphviz.dialect.readLine (' ' :: ' ' :: (id.toList ++ ' ' :: (rest ++ [';']))) =
      if ¬ IsHeader id then statement.whole (id.toList ++ ' ' :: (rest ++ [';'])) else none := by
  have hdirective : Engine.graphviz.dialect.isDirective (id.toList ++ ' ' :: (rest ++ [';'])) =
      decide (IsHeader id) := isDirective_append hid
  rw [Dialect.readLine, trim_indented (hid.takeWhile_append hid.isBlank _) (by simp [isBlank])]
  by_cases hheader : IsHeader id
  · rw [if_neg (not_not.mpr hheader)]
    exact Dialect.readTrimmed_of_directive (hdirective.trans (decide_eq_true hheader))
  · rw [if_pos hheader]
    exact Dialect.readTrimmed_of_statement (by simp) (hdirective.trans (decide_eq_false hheader))

/-- The line of a node is a statement about its label when a label is read back. -/
theorem whole_statement_node (hid : IsWord id) :
    statement.whole (id.toList ++ ' ' :: (labelText x ++ [';'])) = some s ↔
      ∃ y, readBack x = some (some y) ∧ s = .nodeLabel id y := by
  have hspace : (labelText x ++ [';']).takeWhile isSpace = [] := rfl
  have hconnection : connection (id.toList ++ ' ' :: (labelText x ++ [';'])) = none := by
    rw [connection, bind_of_some (word_append hid rfl), bind_of_some (spaces_of_one hspace),
      bind_of_none (literal_eq_none (by simp [labelText]))]
  have hnodeLabel : nodeLabel (id.toList ++ ' ' :: (labelText x ++ [';'])) = some (s, []) ↔
      ∃ o mid, attributeList (labelText x ++ [';']) = some (o, mid) ∧
        endOfStatement mid = some ((), []) ∧ o.map (.nodeLabel id) = some s := by
    rw [nodeLabel, filterMap_eq_some, bind_of_some (word_append hid rfl),
      bind_of_some (spaces_of_one hspace)]
    simp only [bind_eq_some, pure_eq_some]
    constructor
    · rintro ⟨_, ⟨o, mid, hlist, _, _, hend, rfl, rfl⟩, ho⟩
      exact ⟨o, mid, hlist, hend, ho⟩
    · rintro ⟨o, mid, hlist, hend, ho⟩
      exact ⟨some s, ⟨o, mid, hlist, (), [], hend, ho.symm, rfl⟩, rfl⟩
  rw [whole_eq_some, statement, orElse_eq_some, hconnection, hnodeLabel]
  constructor
  · rintro (h | ⟨-, o, mid, hlist, hend, ho⟩)
    · cases h
    · obtain ⟨y, rfl, rfl⟩ := Option.map_eq_some_iff.mp ho
      exact ⟨y, readBack_eq_some.mpr ⟨mid, hlist, hend⟩, rfl⟩
  · rintro ⟨y, hy, rfl⟩
    obtain ⟨mid, hlist, hend⟩ := readBack_eq_some.mp hy
    exact .inr ⟨rfl, some y, mid, hlist, hend, rfl⟩

/-- What is written of an edge behind its target. -/
def labelEnding : Option String → List Char
  | none => []
  | some x => ' ' :: labelText x

/-- What is read of an edge behind its target. -/
def readBackEnding : Option String → Option (Option String)
  | none => some none
  | some x => readBack x

/-- The reading of a connection behind its target. -/
theorem connection_ending {f : Option String → Statement} {label : Option String} :
    (do
      let label ← Reader.optional (do
        spaces
        attributeList)
      endOfStatement
      return f label.join : Reader Statement) (labelEnding label ++ [';']) = some (s, []) ↔
      ∃ o, readBackEnding label = some o ∧ s = f o := by
  cases label with
  | none =>
    have hnone : (do spaces; attributeList : Reader (Option String)) [';'] = none := rfl
    rw [labelEnding, List.nil_append, bind_of_some (optional_of_none hnone),
      bind_of_some endOfStatement_semicolon, pure_eq_some]
    simp [readBackEnding]
  | some x =>
    have hlist : (do spaces; attributeList : Reader (Option String))
        (labelEnding (some x) ++ [';']) = attributeList (labelText x ++ [';']) :=
      bind_of_some (spaces_of_one rfl) _
    have hstuck : endOfStatement (labelEnding (some x) ++ [';']) =
        some ((), labelText x ++ [';']) := by
      rw [labelEnding, List.cons_append, endOfStatement, bind_of_some (spaces_of_one rfl),
        bind_of_some (optional_of_none rfl), spaces_of_none rfl]
    constructor
    · intro h
      obtain ⟨o, mid, hopt, h⟩ := bind_eq_some.mp h
      obtain ⟨_, _, hend, hpure⟩ := bind_eq_some.mp h
      obtain ⟨rfl, rfl⟩ := pure_eq_some.mp hpure
      rcases optional_eq_some.mp hopt with ⟨l, rfl, hl⟩ | ⟨rfl, rfl, -⟩
      · exact ⟨l, readBack_eq_some.mpr ⟨mid, hlist ▸ hl, hend⟩, rfl⟩
      · rw [hstuck] at hend
        exact absurd hend (by simp [labelText])
    · rintro ⟨o, ho, rfl⟩
      obtain ⟨mid, hl, hend⟩ := readBack_eq_some.mp ho
      rw [bind_of_some (optional_of_some (hlist.trans hl)), bind_of_some hend]
      rfl

/-- The line of an edge is a connection of its ends, if it is read at all. -/
theorem whole_statement_edge (hsource : IsWord source) (htarget : IsWord target)
    {label : Option String} :
    statement.whole (source.toList ++
        ' ' :: (("->".toList ++ ' ' :: (target.toList ++ labelEnding label)) ++ [';'])) = some s ↔
      ∃ o, readBackEnding label = some o ∧ s = .connection (.bare source) (.bare target) o := by
  have htext : ("->".toList ++ ' ' :: (target.toList ++ labelEnding label)) ++ [';'] =
      "->".toList ++ ' ' :: (target.toList ++ (labelEnding label ++ [';'])) := by simp
  have hspace : (target.toList ++ (labelEnding label ++ [';'])).takeWhile isSpace = [] :=
    htarget.takeWhile_append htarget.isSpace _
  have hending : (labelEnding label ++ [';']).takeWhile isWordChar = [] := by
    cases label <;> rfl
  have hnodeLabel : nodeLabel (source.toList ++ ' ' :: ("->".toList ++ ' ' :: (target.toList ++
      (labelEnding label ++ [';'])))) = none := by
    rw [nodeLabel, filterMap_of_none]
    rw [bind_of_some (word_append hsource rfl), bind_of_some (spaces_of_one rfl), bind_of_none]
    rw [attributeList, bind_of_none (literal_eq_none (by simp))]
  have hconnection : connection (source.toList ++ ' ' :: ("->".toList ++ ' ' :: (target.toList ++
      (labelEnding label ++ [';'])))) = some (s, []) ↔
      ∃ o, readBackEnding label = some o ∧ s = .connection (.bare source) (.bare target) o := by
    rw [connection, bind_of_some (word_append hsource rfl), bind_of_some (spaces_of_one rfl),
      bind_of_some (literal_append _ _), bind_of_some (spaces_of_one hspace),
      bind_of_some (word_append htarget hending)]
    exact connection_ending
  rw [htext, whole_eq_some, statement, orElse_eq_some, hnodeLabel, hconnection]
  simp

theorem nodeLine_toList (n : Node) :
    (nodeLine n).toList =
      ' ' :: ' ' :: (n.id.toList ++ ' ' :: (labelText n.label ++ [';'])) := by
  simp [nodeLine, labelText, toString]

theorem edgeLine_toList (e : Edge) :
    (edgeLine e).toList =
      ' ' :: ' ' :: (e.source.toList ++ ' ' ::
        (("->".toList ++ ' ' :: (e.target.toList ++ labelEnding e.label)) ++ [';'])) := by
  cases h : e.label <;> simp [edgeLine, labelEnding, labelText, toString, h]

/-- The line of a node is read as a statement about its label, unless it is taken for a header or
no label is read back. -/
theorem readLine_nodeLine (hid : IsWord n.id) :
    Engine.graphviz.dialect.readLine (nodeLine n).toList = some s ↔
      ¬ IsHeader n.id ∧ ∃ y, readBack n.label = some (some y) ∧ s = .nodeLabel n.id y := by
  rw [nodeLine_toList, readLine_indented hid, ite_eq_iff, whole_statement_node hid]
  simp

/-- The line of an edge is read as a connection of its ends, unless it is taken for a header or not
read at all. -/
theorem readLine_edgeLine (hsource : IsWord e.source) (htarget : IsWord e.target) :
    Engine.graphviz.dialect.readLine (edgeLine e).toList = some s ↔
      ¬ IsHeader e.source ∧ ∃ o, readBackEnding e.label = some o ∧
        s = .connection (.bare e.source) (.bare e.target) o := by
  rw [edgeLine_toList, readLine_indented hsource, ite_eq_iff, whole_statement_edge hsource htarget]
  simp

/-! ### Whole digraphs -/

/-- The labels that stay on the line where they are written. -/
def FitsLine (x : String) : Prop :=
  '\n' ∉ x.toList

variable {g : Graph}

theorem newline_notMem_nodeLine (hid : IsWord n.id) (hlabel : '\n' ∉ n.label.toList) :
    '\n' ∉ (nodeLine n).toList := by
  have := hid.notMem (c := '\n') (by decide)
  simp_all [nodeLine_toList, labelText]

theorem newline_notMem_edgeLine (hsource : IsWord e.source) (htarget : IsWord e.target)
    (hlabel : ∀ x ∈ e.label, '\n' ∉ x.toList) : '\n' ∉ (edgeLine e).toList := by
  have hs := hsource.notMem (c := '\n') (by decide)
  have ht := htarget.notMem (c := '\n') (by decide)
  cases h : e.label <;> simp_all [edgeLine_toList, labelEnding, labelText]

/-- The statements of a written digraph are those of the lines of its nodes and of its edges. -/
theorem statements_write (h : g.IsWritable FitsLine FitsLine) :
    statements .graphviz (write g) =
      (g.nodes.filterMap fun n => Engine.graphviz.dialect.readLine (nodeLine n).toList) ++
        g.edges.filterMap fun e => Engine.graphviz.dialect.readLine (edgeLine e).toList := by
  have hhead : ∀ l ∈ ["digraph G \x7b"],
      '\n' ∉ l.toList ∧ Engine.graphviz.dialect.readLine l.toList = none := by decide
  have hbrace : statements .graphviz "\x7d" = [] := by decide
  have hdocument := statements_document .graphviz g "\x7d" hhead
    (fun n hn => newline_notMem_nodeLine (h.isWord_id n hn) (h.label_node n hn))
    (fun e he => newline_notMem_edgeLine (h.isWord_ends e he).1 (h.isWord_ends e he).2
      (h.label_edge e he))
  rwa [hbrace, List.append_nil] at hdocument

theorem readLine_nodeLine_of_readBack (hid : IsWord n.id)
    (hback : readBack n.label = some (some n.label)) :
    Engine.graphviz.dialect.readLine (nodeLine n).toList =
      if ¬ IsHeader n.id then some n.ownLabel else none := by
  split_ifs with hheader
  · rw [Option.eq_none_iff_forall_ne_some]
    exact fun s hs => ((readLine_nodeLine hid).mp hs).1 hheader
  · exact (readLine_nodeLine hid).mpr ⟨hheader, n.label, hback, rfl⟩

theorem readLine_edgeLine_of_readBack (hsource : IsWord e.source) (htarget : IsWord e.target)
    {label : Option String} (hback : readBackEnding e.label = some label) :
    Engine.graphviz.dialect.readLine (edgeLine e).toList =
      if ¬ IsHeader e.source then some (.connection (.bare e.source) (.bare e.target) label)
      else none := by
  split_ifs with hheader
  · rw [Option.eq_none_iff_forall_ne_some]
    exact fun s hs => ((readLine_edgeLine hsource htarget).mp hs).1 hheader
  · exact (readLine_edgeLine hsource htarget).mpr ⟨hheader, label, hback, rfl⟩

/-- Where all labels are read back, so are the nodes and edges whose lines do not look like
headers. -/
theorem statements_write_of_readBack (h : g.IsWritable FitsLine FitsLine)
    (hnodes : ∀ n ∈ g.nodes, readBack n.label = some (some n.label))
    (hedges : ∀ e ∈ g.edges, readBackEnding e.label = some e.label) :
    statements .graphviz (write g) =
      (g.nodes.filter fun n => ¬ IsHeader n.id).map (·.ownLabel) ++
        (g.edges.filter fun e => ¬ IsHeader e.source).map (·.connection) := by
  rw [statements_write h]
  congr 1
  · refine filterMap_eq_map_filter fun n hn => ?_
    exact readLine_nodeLine_of_readBack (h.isWord_id n hn) (hnodes n hn)
  · refine filterMap_eq_map_filter fun e he => ?_
    exact readLine_edgeLine_of_readBack (h.isWord_ends e he).1 (h.isWord_ends e he).2 (hedges e he)

/-! ### Graphs that were read -/

theorem firstId_prefix (h : statement cs = some (s, rest)) :
    IsWord s.firstId ∧ s.firstId.toList <+: cs := by
  rcases orElse_eq_some.mp h with h | ⟨-, h⟩
  · simp only [connection, bind_eq_some, pure_eq_some] at h
    obtain ⟨source, mid, hword, _, _, -, _, _, -, _, _, -, _, _, -, _, _, -, _, _, -, rfl, -⟩ := h
    obtain ⟨hsource, rfl, -⟩ := word_eq_some.mp hword
    exact ⟨hsource, List.prefix_append _ _⟩
  · simp only [nodeLabel, filterMap_eq_some, bind_eq_some, pure_eq_some] at h
    obtain ⟨_, ⟨id, mid, hword, _, _, -, label, _, -, _, _, -, rfl, -⟩, hs⟩ := h
    obtain ⟨x, rfl, rfl⟩ := Option.map_eq_some_iff.mp hs
    obtain ⟨hid, rfl, -⟩ := word_eq_some.mp hword
    exact ⟨hid, List.prefix_append _ _⟩

/-- No line with a statement begins like a header. -/
theorem not_isHeader_firstId (text : String) :
    ∀ s ∈ statements .graphviz text, ¬ IsHeader s.firstId := by
  intro s hs hheader
  obtain ⟨line, -, hread⟩ := mem_statements.mp hs
  obtain ⟨-, hdirective, hwhole⟩ := Dialect.readTrimmed_eq_some.mp hread
  obtain ⟨hword, tail, htail⟩ := firstId_prefix (whole_eq_some.mp hwhole)
  have hfirst : s.firstId.toList <+: firstWord (trim line) :=
    htail ▸ prefix_firstWord hword.ne_nil hword.isBlank
  have hprefix : "digraph".toList.isPrefixOf (firstWord (trim line)) = true :=
    List.isPrefixOf_iff_prefix.mpr (hheader.trans hfirst)
  have htrue : isDirective (trim line) = true := by
    rw [isDirective, hprefix, Bool.or_true]
  exact Bool.false_ne_true (hdirective.symm.trans htrue)

variable {text : String}

theorem not_isHeader_source (he : e ∈ (parse .graphviz text).edges) : ¬ IsHeader e.source := by
  rw [parse_eq_described] at he
  obtain ⟨source, target, hs, hsource, -⟩ := Graph.exists_connection_of_mem_edges he
  exact hsource ▸ not_isHeader_firstId text _ hs

/-- A node is labelled by a statement about its label, or by its id. -/
theorem label_of_mem_nodes (hn : n ∈ (parse .graphviz text).nodes) :
    .nodeLabel n.id n.label ∈ statements .graphviz text ∨ n.label = n.id := by
  rw [parse_eq_described] at hn
  obtain ⟨-, hlabel⟩ := Graph.mem_nodesOf hn
  cases hown : lastOwnLabel? (statements .graphviz text) n.id with
  | some x =>
    rw [hown, Option.getD_some] at hlabel
    exact .inl (hlabel ▸ mem_of_lastOwnLabel? hown)
  | none =>
    rw [hown, Option.getD_none] at hlabel
    have huses := Graph.uses_of_mem_mentions (statements_uses .graphviz text)
    rcases Graph.inlineLabel_of_uses huses n.id with hinline | hid
    · exact hinline.elim
    · exact .inr (hlabel.trans hid)

theorem label_ne_nil_of_isTextual (h : g.IsTextual vocabulary) (hn : n ∈ g.nodes) :
    n.label.toList ≠ [] := by
  rcases h.label_node n hn with hown | hinline | hlabel
  · exact hown.1
  · exact hinline.elim
  · exact hlabel ▸ (h.isWord_id n hn).ne_nil

theorem isWritable_of_isTextual (h : g.IsTextual vocabulary) :
    g.IsWritable FitsLine FitsLine := by
  refine h.isWritable (fun n hn => ?_) fun _ hx => hx.2
  rcases h.label_node n hn with hown | hinline | hlabel
  · exact hown.2
  · exact hinline.elim
  · exact hlabel ▸ (h.isWord_id n hn).notMem (by decide)

/-! ### The round trip of a text -/

/-- Without quotes in its labels, the graph of a text comes back from its digraph. -/
theorem parse_write_parse (hnodes : ∀ n ∈ (parse .graphviz text).nodes, '"' ∉ n.label.toList)
    (hedges : ∀ e ∈ (parse .graphviz text).edges, ∀ x ∈ e.label, '"' ∉ x.toList) :
    parse .graphviz (write (parse .graphviz text)) = parse .graphviz text := by
  have hg := isTextual_parse .graphviz text
  have hids : (parse .graphviz text).nodeIds = Graph.endIds (parse .graphviz text).edges := by
    rw [parse_eq_described]
    exact Graph.nodeIds_described_eq_endIds (statements_uses .graphviz text) fun _ h => h
  have hback : ∀ n ∈ (parse .graphviz text).nodes, readBack n.label = some (some n.label) :=
    fun n hn => (readBack_eq_self_iff (label_ne_nil_of_isTextual hg hn)).mpr (hnodes n hn)
  have hbackEnding : ∀ e ∈ (parse .graphviz text).edges, readBackEnding e.label = some e.label := by
    intro e he
    cases hlabel : e.label with
    | none => rfl
    | some x =>
      have hne : x.toList ≠ [] := (hg.label_edge e he x hlabel).1
      exact (readBack_eq_self_iff hne).mpr (hedges e he x hlabel)
  have hothers : ∀ n ∈ (parse .graphviz text).nodes,
      n ∉ (parse .graphviz text).nodes.filter (fun n => ¬ IsHeader n.id) → n.label = n.id := by
    intro n hn hmem
    rcases label_of_mem_nodes hn with hs | hid
    · have hheader := not_isHeader_firstId text _ hs
      exact absurd (List.mem_filter.mpr ⟨hn, decide_eq_true hheader⟩) hmem
    · exact hid
  have hsources : (parse .graphviz text).edges.filter (fun e => ¬ IsHeader e.source) =
      (parse .graphviz text).edges :=
    List.filter_eq_self.mpr fun e he => decide_eq_true (not_isHeader_source he)
  rw [parse_eq_described, statements_write_of_readBack (isWritable_of_isTextual hg) hback
    hbackEnding, hsources, Graph.described_ownLabels_append hg.valid hids List.filter_sublist
    hothers, hg.nodes_eq, Graph.edgesOf_map_arrow hg.nodup_ends hg.between_eq]

/-- What is stated about the label of a node in a written digraph was written for this node. -/
theorem readBack_of_nodeLabel_mem (h : g.IsWritable FitsLine FitsLine) {y : String}
    (hmem : .nodeLabel id y ∈ statements .graphviz (write g)) :
    ∃ n ∈ g.nodes, n.id = id ∧ readBack n.label = some (some y) := by
  rw [statements_write h] at hmem
  rcases List.mem_append.mp hmem with hmem | hmem
  · obtain ⟨n, hn, hread⟩ := List.mem_filterMap.mp hmem
    obtain ⟨-, z, hback, hz⟩ := (readLine_nodeLine (h.isWord_id n hn)).mp hread
    obtain ⟨rfl, rfl⟩ := Statement.nodeLabel.inj hz
    exact ⟨n, hn, rfl, hback⟩
  · obtain ⟨e, he, hread⟩ := List.mem_filterMap.mp hmem
    obtain ⟨hsource, htarget⟩ := h.isWord_ends e he
    obtain ⟨-, o, -, ho⟩ := (readLine_edgeLine hsource htarget).mp hread
    exact absurd ho nofun

/-- A connection in a written digraph was written for an edge between the same nodes. -/
theorem readBackEnding_of_connection_mem (h : g.IsWritable FitsLine FitsLine) {a b : Mention}
    {o : Option String} (hmem : .connection a b o ∈ statements .graphviz (write g)) :
    ∃ e ∈ g.edges, e.ends = (a.id, b.id) ∧ readBackEnding e.label = some o := by
  rw [statements_write h] at hmem
  rcases List.mem_append.mp hmem with hmem | hmem
  · obtain ⟨n, hn, hread⟩ := List.mem_filterMap.mp hmem
    obtain ⟨-, z, -, hz⟩ := (readLine_nodeLine (h.isWord_id n hn)).mp hread
    exact absurd hz nofun
  · obtain ⟨e, he, hread⟩ := List.mem_filterMap.mp hmem
    obtain ⟨hsource, htarget⟩ := h.isWord_ends e he
    obtain ⟨-, z, hback, hz⟩ := (readLine_edgeLine hsource htarget).mp hread
    obtain ⟨rfl, rfl, rfl⟩ := Statement.connection.inj hz
    exact ⟨e, he, rfl, hback⟩

/-- A label of a node that comes back holds no quote: if it is not the id, then it was written and
read on the line of this node. -/
theorem quote_notMem_node (hsame : parse .graphviz (write (parse .graphviz text)) =
    parse .graphviz text) (hn : n ∈ (parse .graphviz text).nodes) : '"' ∉ n.label.toList := by
  have hg := isTextual_parse .graphviz text
  rcases label_of_mem_nodes (hsame.symm ▸ hn) with hmem | hid
  · obtain ⟨m, hm, hid, hback⟩ := readBack_of_nodeLabel_mem (isWritable_of_isTextual hg) hmem
    obtain rfl := List.inj_on_of_nodup_map hg.valid.1 hm hn hid
    exact (readBack_eq_self_iff (label_ne_nil_of_isTextual hg hn)).mp hback
  · exact hid ▸ (hg.isWord_id n hn).notMem (by decide)

/-- A label of an edge that comes back holds no quote: it was written and read on the line of this
edge, because no other edge joins the same nodes. -/
theorem quote_notMem_edge (hsame : parse .graphviz (write (parse .graphviz text)) =
    parse .graphviz text) (he : e ∈ (parse .graphviz text).edges) :
    ∀ x ∈ e.label, '"' ∉ x.toList := by
  intro x hx
  have hg := isTextual_parse .graphviz text
  have hback : readBackEnding e.label = some e.label := by
    have he' := he
    rw [← hsame, parse_eq_described] at he'
    obtain ⟨a, b, hmem, ha, hb⟩ := Graph.exists_connection_of_mem_edges he'
    obtain ⟨d, hd, hends, hback⟩ :=
      readBackEnding_of_connection_mem (isWritable_of_isTextual hg) hmem
    have hde : d.ends = e.ends := by rw [hends, ha, hb, Edge.ends]
    obtain rfl := List.inj_on_of_nodup_map hg.nodup_ends hd he hde
    exact hback
  rw [Option.mem_def.mp hx] at hback
  exact (readBack_eq_self_iff (hg.label_edge e he x hx).1).mp hback

/-- The text of a digraph survives being read, written and read again exactly when no label holds a
quote. -/
theorem parse_generate_parse_eq_self_iff (text : String) :
    parse .graphviz (generate .graphviz (parse .graphviz text)) = parse .graphviz text ↔
      (∀ n ∈ (parse .graphviz text).nodes, '"' ∉ n.label.toList) ∧
        ∀ e ∈ (parse .graphviz text).edges, ∀ x ∈ e.label, '"' ∉ x.toList := by
  constructor
  · exact fun hsame => ⟨fun _ hn => quote_notMem_node hsame hn,
      fun _ he => quote_notMem_edge hsame he⟩
  · exact fun ⟨hnodes, hedges⟩ => parse_write_parse hnodes hedges

/-- A quote in a value that was not quoted does not survive. -/
theorem parse_generate_parse_bare_quote_ne :
    parse .graphviz (generate .graphviz (parse .graphviz "a -> b [label=x\"y]")) ≠
      parse .graphviz "a -> b [label=x\"y]" := by
  decide +kernel

/-! ### Graphs that were edited -/

/-- The edge as it is read back where its label holds no quote: an empty label counts as none. -/
def dropEmptyLabel (e : Edge) : Edge :=
  { e with label := e.label.filter (· ≠ "") }

theorem readBackEnding_of_quoteFree {label : Option String} (h : ∀ x ∈ label, '"' ∉ x.toList) :
    readBackEnding label = some (label.filter (· ≠ "")) := by
  cases label with
  | none => rfl
  | some x =>
    by_cases hx : x = ""
    · subst hx
      rfl
    · have hne : x.toList ≠ [] := fun hnil => hx (String.toList_eq_nil_iff.mp hnil)
      rw [Option.filter_some, if_pos (decide_eq_true hx)]
      exact (readBack_eq_self_iff hne).mpr (h x rfl)

/-- Without quotes in labels and ids that look like headers, every line of a digraph is read. -/
theorem statements_write_of_quoteFree (h : g.IsWritable FitsLine FitsLine)
    (hnode : ∀ n ∈ g.nodes, ¬ IsHeader n.id ∧ n.label.toList ≠ [] ∧ '"' ∉ n.label.toList)
    (hedge : ∀ e ∈ g.edges, ¬ IsHeader e.source ∧ ∀ x ∈ e.label, '"' ∉ x.toList) :
    statements .graphviz (write g) =
      g.nodes.map (·.ownLabel) ++ (g.edges.map dropEmptyLabel).map (·.connection) := by
  rw [statements_write h, List.map_map]
  congr 1
  · refine List.filterMap_eq_map_iff_forall_eq_some.mpr fun n hn => ?_
    obtain ⟨hheader, hne, hquote⟩ := hnode n hn
    rw [readLine_nodeLine_of_readBack (h.isWord_id n hn) ((readBack_eq_self_iff hne).mpr hquote),
      if_pos hheader]
  · refine List.filterMap_eq_map_iff_forall_eq_some.mpr fun e he => ?_
    obtain ⟨hheader, hquote⟩ := hedge e he
    obtain ⟨hsource, htarget⟩ := h.isWord_ends e he
    rw [readLine_edgeLine_of_readBack hsource htarget (readBackEnding_of_quoteFree hquote),
      if_pos hheader]
    rfl

theorem endIds_map_dropEmptyLabel (es : List Edge) :
    Graph.endIds (es.map dropEmptyLabel) = Graph.endIds es := by
  rw [Graph.endIds, List.flatMap_map]
  rfl

/-- A valid graph that can be written without quotes is read back from its digraph with the nodes
that its edges join, in the order in which the edges mention them and with their labels, and with one
edge for every pair of nodes: in the order of the first edge of the pair, and with the label of the
last one, where an empty label counts as none. -/
theorem parse_generate_eq_alongEdges (hg : g.Valid)
    (hid : ∀ n ∈ g.nodes, IsWord n.id ∧ ¬ "digraph".toList <+: n.id.toList)
    (hnode : ∀ n ∈ g.nodes, n.label.toList ≠ [] ∧ '"' ∉ n.label.toList ∧ '\n' ∉ n.label.toList)
    (hedge : ∀ e ∈ g.edges, ∀ x ∈ e.label, '"' ∉ x.toList ∧ '\n' ∉ x.toList) :
    parse .graphviz (generate .graphviz g) =
        ⟨g.alongEdges.nodes.mapIdx fun i n => Node.fresh n.id n.label (Position.gridSlot i),
          Graph.edgesOf (g.edges.map fun e => ⟨e.source, e.target, e.label.filter (· ≠ "")⟩)⟩ ∧
      g.alongEdges.nodeIds = Graph.endIds g.edges := by
  have hids := Graph.nodeIds_alongEdges hg
  refine ⟨?_, hids⟩
  have hwritable : g.IsWritable FitsLine FitsLine :=
    hg.isWritable (fun n hn => (hid n hn).1) (fun n hn => (hnode n hn).2.2)
      fun e he x hx => (hedge e he x hx).2
  have hsource : ∀ e ∈ g.edges, ¬ IsHeader e.source := by
    intro e he
    obtain ⟨n, hn, hsource⟩ := List.mem_map.mp (hg.2 e he).1
    exact hsource ▸ (hid n hn).2
  have hstatements := statements_write_of_quoteFree hwritable
    (fun n hn => ⟨(hid n hn).2, (hnode n hn).1, (hnode n hn).2.1⟩)
    fun e he => ⟨hsource e he, fun x hx => (hedge e he x hx).1⟩
  have hdescribed := Graph.described_ownLabels (g := g.alongEdges)
    (hids.trans (endIds_map_dropEmptyLabel g.edges).symm) hg.1
    fun n hn => .inl (Graph.mem_nodes_of_mem_alongEdges hn)
  rw [parse_eq_described]
  refine (congrArg Graph.described hstatements).trans (hdescribed.trans ?_)
  rw [List.map_map]
  rfl

/-- A graph as an editor may leave it: nodes are moved, resized and selected, one of them is not
joined, edges run side by side, and labels look like other parts of a digraph. -/
def tangled : Graph where
  nodes :=
    [⟨"b", "label=b; ]", ⟨-3.5, 0⟩, ⟨200, 60⟩, true⟩,
      ⟨"alone", "alone", ⟨100, 100⟩, Size.default, false⟩,
      ⟨"_7", " [é\\", ⟨1e300, 2.25⟩, Size.default, false⟩]
  edges :=
    [⟨"edge-1", "_7", "b", some "a -> b;", .smoothStep, true⟩,
      ⟨"edge-2", "b", "b", some "kept", .smoothStep, false⟩,
      ⟨"edge-1", "_7", "b", some "", .smoothStep, false⟩]

theorem parse_generate_tangled_digraph :
    tangled.Valid ∧
      (∀ n ∈ tangled.nodes, IsWord n.id ∧ ¬ "digraph".toList <+: n.id.toList) ∧
      (∀ n ∈ tangled.nodes,
        n.label.toList ≠ [] ∧ '"' ∉ n.label.toList ∧ '\n' ∉ n.label.toList) ∧
      (∀ e ∈ tangled.edges, ∀ x ∈ e.label, '"' ∉ x.toList ∧ '\n' ∉ x.toList) ∧
      parse .graphviz (generate .graphviz tangled) =
        ⟨[Node.fresh "_7" " [é\\" (Position.gridSlot 0),
            Node.fresh "b" "label=b; ]" (Position.gridSlot 1)],
          [Edge.between "_7" "b" none, Edge.between "b" "b" (some "kept")]⟩ :=
  ⟨by decide, by decide, by decide, by decide,
    (parse_generate_eq_alongEdges (by decide) (by decide) (by decide) (by decide)).1.trans
      (by decide +kernel)⟩

end Graphviz

end BoxArrow
