import BoxArrow.Proofs.Textual

/-!
# Arrows with colon labels that were written and are read again

Two languages put the label of an arrow behind a colon, where it goes on to the end of the line. The
line is trimmed before it is read, and spaces behind the colon are skipped. So a label comes back
without the spaces at its start and the blanks at its end. A label that was read has neither, and
comes back as it is.

Neither language declares nodes: a line `id: label` has no arrow and is passed over, and a message
names nodes by their labels. In the graph of a text every label is the id. The nodes are then those
that the edges introduce, in the same order, because a repeated arrow introduces nothing.

## Main definitions

* `BoxArrow.arrowLine` — an arrow as both languages write it.
* `BoxArrow.colonReadBack` — what is read where a label was written.

## Main results

* `BoxArrow.colonReadBack_eq_self` — the labels that are read as they were written.
* `BoxArrow.D2.readLine_nodeLine`, `BoxArrow.D2.readLine_edgeLine`,
  `BoxArrow.PlantUml.readLine_edgeLine` — line by line.
* `BoxArrow.D2.statements_write`, `BoxArrow.PlantUml.statements_write` — the statements of written
  texts.
* `BoxArrow.parse_generate_parse_colon` — every text survives in both languages.
-/

namespace BoxArrow

open Reader

open scoped List

variable {source target : String} {label : Option String} {g : Graph} {n : Node} {e : Edge}

/-! ### Labels behind a colon -/

/-- What is written behind the target of an arrow. -/
def colonEnding : Option String → List Char
  | none => []
  | some x => ':' :: ' ' :: x.toList

/-- What is read of a label behind a colon: the label without the spaces at its start and the blanks
at its end, and none when nothing is left. -/
def colonReadBack (label : Option String) : Option String :=
  label.bind fun x => labelOfText ((trimEnd x.toList).dropWhile isSpace)

/-- A label that was read behind a colon is read as it was written. -/
theorem colonReadBack_eq_self (h : ∀ x ∈ label, IsColonLabel x) : colonReadBack label = label := by
  cases label with
  | none => rfl
  | some x =>
    obtain ⟨hne, hstart, hend⟩ := h x rfl
    rw [colonReadBack, Option.bind_some, trimEnd_eq_self hend, dropWhile_eq_self hstart]
    exact labelOfText_eq_some.mpr ⟨hne, rfl⟩

/-- The space that is written before a label is not part of it, and no blank either where the label
is all blank. -/
theorem dropWhile_trimEnd_cons (cs : List Char) :
    (trimEnd (' ' :: cs)).dropWhile isSpace = (trimEnd cs).dropWhile isSpace := by
  rw [trimEnd, trimEnd, List.reverse_cons, List.dropWhile_append]
  split_ifs with h
  · rw [List.isEmpty_iff.mp h]
    rfl
  · rw [List.reverse_append, List.reverse_singleton, List.singleton_append,
      List.dropWhile_cons_of_pos (by decide)]

theorem trimEnd_colonEnding_some (x : String) :
    trimEnd (colonEnding (some x)) = ':' :: trimEnd (' ' :: x.toList) := by
  have hcolon : [':'].reverse.takeWhile isBlank = [] := by decide
  exact trimEnd_append hcolon

theorem takeWhile_trimEnd_colonEnding (label : Option String) :
    (trimEnd (colonEnding label)).takeWhile isWordChar = [] := by
  cases label with
  | none => rfl
  | some x =>
    rw [trimEnd_colonEnding_some]
    rfl

/-- The reading of an arrow behind its target. -/
theorem colon_ending (f : Option String → Statement) :
    (do
      let label ← Reader.optional colonLabel
      endOfStatement
      return f label.join : Reader Statement) (trimEnd (colonEnding label)) =
        some (f (colonReadBack label), []) := by
  cases label with
  | none => rfl
  | some x =>
    rw [trimEnd_colonEnding_some, bind_of_some (optional_of_some (colonLabel_append _)),
      dropWhile_trimEnd_cons]
    rfl

/-! ### Lines of arrows -/

/-- An arrow as both languages write it. -/
def arrowLine (source target : String) (label : Option String) : List Char :=
  source.toList ++ ' ' :: ("->".toList ++ ' ' :: (target.toList ++ colonEnding label))

/-- An arrow once its line is trimmed. -/
def trimmedArrowLine (source target : String) (label : Option String) : List Char :=
  source.toList ++ ' ' :: ("->".toList ++ ' ' :: (target.toList ++ trimEnd (colonEnding label)))

theorem trim_arrowLine (hsource : IsWord source) (htarget : IsWord target) :
    trim (arrowLine source target label) = trimmedArrowLine source target label := by
  have hend : (source.toList ++ ' ' :: ("->".toList ++ ' ' :: target.toList)).reverse.takeWhile
      isBlank = [] := by
    simp only [List.reverse_append, List.reverse_cons, List.append_assoc]
    refine takeWhile_append_eq_nil (by simpa using htarget.ne_nil) fun c hc => ?_
    exact htarget.isBlank c (List.mem_reverse.mp hc)
  have hlines (ending : List Char) :
      source.toList ++ ' ' :: ("->".toList ++ ' ' :: (target.toList ++ ending)) =
        (source.toList ++ ' ' :: ("->".toList ++ ' ' :: target.toList)) ++ ending := by
    simp
  rw [trim, arrowLine, trimStart_eq_self (hsource.takeWhile_append hsource.isBlank _), hlines,
    trimEnd_append hend, ← hlines, trimmedArrowLine]

/-- A line with an arrow is read as a connection when its statement is. -/
theorem readLine_arrowLine {d : Dialect} {s : Statement} (hsource : IsWord source)
    (htarget : IsWord target)
    (hdirective : d.isDirective (trimmedArrowLine source target label) = false)
    (hstatement : d.statement (trimmedArrowLine source target label) = some (s, [])) :
    d.readLine (arrowLine source target label) = some s := by
  rw [Dialect.readLine, trim_arrowLine hsource htarget, Dialect.readTrimmed_eq_some]
  exact ⟨by simp [trimmedArrowLine], hdirective, whole_eq_some.mpr hstatement⟩

theorem newline_notMem_arrowLine (hsource : '\n' ∉ source.toList) (htarget : '\n' ∉ target.toList)
    (hlabel : ∀ x ∈ label, '\n' ∉ x.toList) : '\n' ∉ arrowLine source target label := by
  cases label <;> simp_all [arrowLine, colonEnding]

/-! ### D2 -/

namespace D2

theorem edgeLine_toList (e : Edge) : (edgeLine e).toList = arrowLine e.source e.target e.label := by
  cases h : e.label <;> simp [edgeLine, arrowLine, colonEnding, toString, h]

theorem statement_arrowLine (hsource : IsWord source) (htarget : IsWord target) :
    statement (trimmedArrowLine source target label) =
      some (.connection (.bare source) (.bare target) (colonReadBack label), []) := by
  have hspace : (target.toList ++ trimEnd (colonEnding label)).takeWhile isSpace = [] :=
    htarget.takeWhile_append htarget.isSpace _
  rw [statement, trimmedArrowLine, bind_of_some (word_append hsource rfl),
    bind_of_some (spaces_of_one rfl), bind_of_some (literal_append _ _),
    bind_of_some (spaces_of_one hspace),
    bind_of_some (word_append htarget (takeWhile_trimEnd_colonEnding label))]
  exact colon_ending (.connection (.bare source) (.bare target))

/-- The line of an edge is read as a connection. -/
theorem readLine_edgeLine (hsource : IsWord e.source) (htarget : IsWord e.target) :
    Engine.d2.dialect.readLine (edgeLine e).toList =
      some (.connection (.bare e.source) (.bare e.target) (colonReadBack e.label)) := by
  rw [edgeLine_toList]
  exact readLine_arrowLine hsource htarget rfl (statement_arrowLine hsource htarget)

/-- The line of a node is passed over, whatever its label is. -/
theorem readLine_nodeLine (hid : IsWord n.id) :
    Engine.d2.dialect.readLine (nodeLine n).toList = none := by
  have hline : (nodeLine n).toList = (n.id.toList ++ [':']) ++ (' ' :: n.label.toList) := by
    simp [nodeLine, toString]
  have hend : (n.id.toList ++ [':']).reverse.takeWhile isBlank = [] := by
    rw [List.reverse_append]
    rfl
  have htrim :
      trim (nodeLine n).toList = n.id.toList ++ ':' :: trimEnd (' ' :: n.label.toList) := by
    rw [hline, trim, trimStart_eq_self, trimEnd_append hend, List.append_assoc,
      List.singleton_append]
    rw [List.append_assoc]
    exact hid.takeWhile_append hid.isBlank _
  have hstatement : statement (n.id.toList ++ ':' :: trimEnd (' ' :: n.label.toList)) = none := by
    rw [statement, bind_of_some (word_append hid rfl), bind_of_some (spaces_of_none rfl),
      bind_of_none (literal_eq_none (by simp))]
  rw [Dialect.readLine, htrim, Option.eq_none_iff_forall_ne_some]
  intro s hs
  obtain ⟨-, -, hwhole⟩ := Dialect.readTrimmed_eq_some.mp hs
  exact absurd (whole_eq_some.mp hwhole) (by simp [Engine.dialect, hstatement])

theorem newline_notMem_nodeLine (hid : IsWord n.id) (hlabel : '\n' ∉ n.label.toList) :
    '\n' ∉ (nodeLine n).toList := by
  have := hid.notMem (c := '\n') (by decide)
  simp_all [nodeLine, toString]

/-- The statements of a written text: a connection for every edge. -/
theorem statements_write
    (h : g.IsWritable (fun x => '\n' ∉ x.toList) (fun x => '\n' ∉ x.toList)) :
    statements .d2 (write g) =
      g.edges.map fun e => .connection (.bare e.source) (.bare e.target) (colonReadBack e.label) := by
  have hhead : ∀ l ∈ ([] : List String),
      '\n' ∉ l.toList ∧ Engine.d2.dialect.readLine l.toList = none := nofun
  have hdocument := statements_document .d2 g "" hhead
    (fun n hn => newline_notMem_nodeLine (h.isWord_id n hn) (h.label_node n hn))
    (fun e he => edgeLine_toList e ▸ newline_notMem_arrowLine
      ((h.isWord_ends e he).1.notMem (by decide)) ((h.isWord_ends e he).2.notMem (by decide))
      (h.label_edge e he))
  rw [statements_empty, List.append_nil, String.append_empty, List.nil_append] at hdocument
  have hnodes : (g.nodes.filterMap fun n => Engine.d2.dialect.readLine (nodeLine n).toList) = [] :=
    List.filterMap_eq_nil_iff.mpr fun n hn => readLine_nodeLine (h.isWord_id n hn)
  rw [hnodes, List.nil_append] at hdocument
  refine hdocument.trans (List.filterMap_eq_map_iff_forall_eq_some.mpr fun e he => ?_)
  exact readLine_edgeLine (h.isWord_ends e he).1 (h.isWord_ends e he).2

end D2

/-! ### PlantUML -/

namespace PlantUml

theorem edgeLine_toList (g : Graph) (e : Edge) :
    (edgeLine g e).toList =
      arrowLine (displayName g e.source) (displayName g e.target) e.label := by
  cases h : e.label <;> simp [edgeLine, arrowLine, colonEnding, toString, h]

theorem statement_arrowLine (hsource : IsWord source) (htarget : IsWord target) :
    statement (trimmedArrowLine source target label) =
      some (.connection (.bare source) (.bare target) (colonReadBack label), []) := by
  have hspace : (target.toList ++ trimEnd (colonEnding label)).takeWhile isSpace = [] :=
    htarget.takeWhile_append htarget.isSpace _
  have harrow (rest : List Char) : Reader.orElse (.literal "->") (.literal "-->")
      ("->".toList ++ rest) = some ((), rest) :=
    orElse_eq_some.mpr (.inl (literal_append _ _))
  rw [statement, trimmedArrowLine, bind_of_some (word_append hsource rfl),
    bind_of_some (spaces_of_one rfl), bind_of_some (harrow _), bind_of_some (spaces_of_one hspace),
    bind_of_some (word_append htarget (takeWhile_trimEnd_colonEnding label))]
  exact colon_ending (.connection (.bare source) (.bare target))

/-- The line of an edge is read as a connection between the labels of its ends, when these are
words. -/
theorem readLine_edgeLine (hsource : IsWord (displayName g e.source))
    (htarget : IsWord (displayName g e.target)) :
    Engine.plantUml.dialect.readLine (edgeLine g e).toList =
      some (.connection (.bare (displayName g e.source)) (.bare (displayName g e.target))
        (colonReadBack e.label)) := by
  have hdirective : isDirective (trimmedArrowLine (displayName g e.source) (displayName g e.target)
      e.label) = false := by
    rw [isDirective, Bool.or_eq_false_iff, ← Bool.not_eq_true, ← Bool.not_eq_true,
      List.isPrefixOf_iff_prefix, List.isPrefixOf_iff_prefix]
    exact ⟨hsource.not_prefix (by decide), hsource.not_prefix (by decide)⟩
  rw [edgeLine_toList]
  exact readLine_arrowLine hsource htarget hdirective (statement_arrowLine hsource htarget)

/-- The statements of a written text are those of the lines of its edges. -/
theorem statements_write_lines
    (hends : ∀ e ∈ g.edges,
      '\n' ∉ (displayName g e.source).toList ∧ '\n' ∉ (displayName g e.target).toList)
    (hlabels : ∀ e ∈ g.edges, ∀ x ∈ e.label, '\n' ∉ x.toList) :
    statements .plantUml (write g) =
      g.edges.filterMap fun e => Engine.plantUml.dialect.readLine (edgeLine g e).toList := by
  have hlines : ∀ l ∈ "@startuml" :: g.edges.map (edgeLine g), '\n' ∉ l.toList := by
    intro l hl
    rcases List.mem_cons.mp hl with rfl | hl
    · decide
    · obtain ⟨e, he, rfl⟩ := List.mem_map.mp hl
      exact edgeLine_toList g e ▸ newline_notMem_arrowLine (hends e he).1 (hends e he).2
        (hlabels e he)
  have hstart : Engine.plantUml.dialect.readLine "@startuml".toList = none := by decide
  have hend : statements .plantUml "@enduml" = [] := by decide
  rw [write, statements_unlines_append .plantUml hlines, hend, List.append_nil, List.filterMap_cons,
    hstart, List.filterMap_map]
  rfl

/-- The statements of a written text: a connection for every edge. -/
theorem statements_write
    (hends : ∀ e ∈ g.edges, IsWord (displayName g e.source) ∧ IsWord (displayName g e.target))
    (hlabels : ∀ e ∈ g.edges, ∀ x ∈ e.label, '\n' ∉ x.toList) :
    statements .plantUml (write g) =
      g.edges.map fun e => .connection (.bare (displayName g e.source))
        (.bare (displayName g e.target)) (colonReadBack e.label) := by
  have hnewline (e : Edge) (he : e ∈ g.edges) :
      '\n' ∉ (displayName g e.source).toList ∧ '\n' ∉ (displayName g e.target).toList :=
    ⟨(hends e he).1.notMem (by decide), (hends e he).2.notMem (by decide)⟩
  rw [statements_write_lines hnewline hlabels]
  refine List.filterMap_eq_map_iff_forall_eq_some.mpr fun e he => ?_
  exact readLine_edgeLine (hends e he).1 (hends e he).2

/-- Where labels are ids, a message names its nodes by their ids. -/
theorem displayName_eq_self (h : ∀ n ∈ g.nodes, n.label = n.id) (id : String) :
    displayName g id = id := by
  rw [displayName]
  cases hfound : g.node? id with
  | none => rfl
  | some n =>
    obtain ⟨hn, hid⟩ := Graph.mem_of_node? hfound
    exact (h n hn).trans hid

end PlantUml

/-! ### The round trip of a text -/

section

variable {engine : Engine} {text : String}

/-- Without labels of nodes in the language, every node is labelled by its id. -/
theorem label_eq_id_of_isTextual (h : g.IsTextual colonVocabulary) (hn : n ∈ g.nodes) :
    n.label = n.id := by
  rcases h.label_node n hn with hown | hinline | hid
  · exact hown.elim
  · exact hinline.elim
  · exact hid

/-- The connections of a text introduce its nodes and edges once more. -/
theorem described_connections (h : g.IsTextual colonVocabulary)
    (hids : g.nodeIds = Graph.endIds g.edges) :
    Graph.described (g.edges.map (·.connection)) = g := by
  have hdescribed := Graph.described_ownLabels_append h.valid hids (List.nil_sublist g.nodes)
    fun n hn _ => label_eq_id_of_isTextual h hn
  rw [List.map_nil, List.nil_append, h.nodes_eq,
    Graph.edgesOf_map_arrow h.nodup_ends h.between_eq] at hdescribed
  exact hdescribed

theorem connection_readBack (h : g.IsTextual colonVocabulary) (he : e ∈ g.edges) :
    .connection (.bare e.source) (.bare e.target) (colonReadBack e.label) = e.connection := by
  rw [colonReadBack_eq_self fun x hx => (h.label_edge e he x hx).1, Edge.connection]

/-- A text whose statements are the connections of a text in the same language has the same
graph. -/
theorem parse_of_statements_eq (hengine : engine.vocabulary = colonVocabulary) {text' : String}
    (h : statements engine text' = (parse engine text).edges.map fun e =>
      .connection (.bare e.source) (.bare e.target) (colonReadBack e.label)) :
    parse engine text' = parse engine text := by
  have hg : (parse engine text).IsTextual colonVocabulary := hengine ▸ isTextual_parse engine text
  have hids : (parse engine text).nodeIds = Graph.endIds (parse engine text).edges := by
    rw [parse_eq_described]
    refine Graph.nodeIds_described_eq_endIds (statements_uses engine text) fun x hx => ?_
    rw [hengine] at hx
    exact hx
  rw [parse_eq_described engine text', h,
    List.map_congr_left fun e he => connection_readBack hg he]
  exact described_connections hg hids

end

/-- In both languages with colon labels every text survives being read, written and read again: the
graph comes back as it was. -/
theorem parse_generate_parse_colon (text : String) :
    parse .d2 (generate .d2 (parse .d2 text)) = parse .d2 text ∧
      parse .plantUml (generate .plantUml (parse .plantUml text)) = parse .plantUml text := by
  constructor
  · have hg := isTextual_parse .d2 text
    refine parse_of_statements_eq rfl (D2.statements_write (hg.isWritable (fun n hn => ?_) ?_))
    · rw [label_eq_id_of_isTextual hg hn]
      exact (hg.isWord_id n hn).notMem (by decide)
    · exact fun x hx => hx.2
  · have hg := isTextual_parse .plantUml text
    have hname := PlantUml.displayName_eq_self fun n hn => label_eq_id_of_isTextual hg hn
    have hstatements := PlantUml.statements_write (g := parse .plantUml text)
      (fun e he => by rw [hname, hname]; exact ⟨hg.isWord_source he, hg.isWord_target he⟩)
      fun e he x hx => (hg.label_edge e he x hx).2
    simp only [hname] at hstatements
    exact parse_of_statements_eq rfl hstatements

end BoxArrow
