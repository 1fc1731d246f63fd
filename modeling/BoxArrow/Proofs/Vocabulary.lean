import BoxArrow.Dialect
import BoxArrow.Proofs.Lexemes

/-!
# What the statements of a text are made of

Every language restricts the texts that can stand in its statements: ids are words everywhere, and a
label cannot hold the delimiter that ends it. The restrictions of a language are its *vocabulary*.
Whatever the text, its statements use the vocabulary of its language only.

## Main definitions

* `BoxArrow.Vocabulary`, `BoxArrow.Statement.Uses` — labels by the place where they stand.
* `BoxArrow.Engine.vocabulary` — the vocabulary of each language.

## Main results

* `BoxArrow.statements_uses` — the statements of any text use the vocabulary of its language.
-/

namespace BoxArrow

open Reader

/-- Which texts can be a label, by the place where the label stands. -/
structure Vocabulary where
  /-- Labels beside the mention of a node. -/
  inline : String → Prop
  /-- Labels of connections. -/
  arrow : String → Prop
  /-- Labels in statements of their own. -/
  own : String → Prop

/-- A mention uses a vocabulary when its id is a word and its label one of the inline labels. -/
def Mention.Uses (v : Vocabulary) (m : Mention) : Prop :=
  IsWord m.id ∧ ∀ x ∈ m.label, v.inline x

/-- A statement uses a vocabulary when its ids are words and its labels are in their places. A node
that is declared on its own has a label. -/
def Statement.Uses (v : Vocabulary) : Statement → Prop
  | .connection source target label => source.Uses v ∧ target.Uses v ∧ ∀ x ∈ label, v.arrow x
  | .declaration node => node.Uses v ∧ node.label.isSome
  | .nodeLabel id label => IsWord id ∧ v.own label

theorem Mention.uses_bare {v : Vocabulary} {id : String} (h : IsWord id) :
    (Mention.bare id).Uses v :=
  ⟨h, nofun⟩

variable {line : List Char}

/-- A label that is optional twice over is one of the labels. -/
private theorem forall_mem_join {Q : String → Prop} {o : Option (Option String)}
    (h : ∀ l ∈ o, ∀ x ∈ l, Q x) : ∀ x ∈ o.join, Q x := by
  intro x hx
  exact h (some x) (Option.join_eq_some_iff.mp hx) x rfl

/-! ### Mermaid -/

namespace Mermaid

/-- Labels of nodes end before a bracket and labels of connections before a bar. -/
def vocabulary : Vocabulary where
  inline x := IsEnclosed ']' x ∧ '\n' ∉ x.toList
  arrow x := IsEnclosed '|' x ∧ '\n' ∉ x.toList
  own _ := False

/-- A label between delimiters has no line feed when the line has none. -/
private theorem enclosed_ensures (hline : '\n' ∉ line) (opening close : Char) :
    Ensures line (enclosed opening close) fun x => IsEnclosed close x ∧ '\n' ∉ x.toList :=
  (Ensures.enclosed opening close).mono fun _ hx => ⟨hx.1, fun hmem => hline (hx.2 _ hmem)⟩

theorem mention_ensures (hline : '\n' ∉ line) :
    Ensures line mention (Mention.Uses vocabulary) :=
  Ensures.word.bind fun _ hid => (enclosed_ensures hline _ _).optional.bind fun _ hlabel =>
    .pure ⟨hid, hlabel⟩

theorem ending_ensures : Ensures line ending fun _ => True := by
  refine Ensures.endOfStatement.bind fun _ _ => Ensures.bind (Q := fun _ => True) ?_ fun _ _ =>
    .pure trivial
  refine (Ensures.optional (Q := fun _ => True) ?_).mono fun _ _ => trivial
  exact (Ensures.literal _).bind fun _ _ => Ensures.remainder.bind fun _ _ => .pure trivial

theorem connection_ensures (hline : '\n' ∉ line) :
    Ensures line connection (Statement.Uses vocabulary) := by
  refine (mention_ensures hline).bind fun source hsource => ?_
  refine Ensures.spaces.bind fun _ _ => (Ensures.literal _).bind fun _ _ => ?_
  refine Ensures.spaces.bind fun _ _ => ?_
  refine (enclosed_ensures hline _ _).optional.bind fun label hlabel => ?_
  refine Ensures.spaces.bind fun _ _ => (mention_ensures hline).bind fun target htarget => ?_
  exact ending_ensures.bind fun _ _ => .pure ⟨hsource, htarget, hlabel⟩

theorem declaration_ensures (hline : '\n' ∉ line) :
    Ensures line declaration (Statement.Uses vocabulary) := by
  refine Ensures.word.bind fun id hid => (enclosed_ensures hline _ _).bind fun label hlabel => ?_
  refine ending_ensures.bind fun _ _ => .pure ⟨⟨hid, fun x hx => ?_⟩, rfl⟩
  rwa [← Option.mem_some.mp hx]

theorem statement_ensures (hline : '\n' ∉ line) :
    Ensures line statement (Statement.Uses vocabulary) :=
  (connection_ensures hline).orElse (declaration_ensures hline)

end Mermaid

/-! ### Graphviz -/

namespace Graphviz

/-- Labels of connections and nodes are any texts of a line but the empty one. -/
def vocabulary : Vocabulary where
  inline _ := False
  arrow x := x.toList ≠ [] ∧ '\n' ∉ x.toList
  own x := x.toList ≠ [] ∧ '\n' ∉ x.toList

theorem quoted_ensures : Ensures line quoted fun x => ∀ c ∈ x.toList, c ∈ line := by
  refine (Ensures.literal _).bind fun _ _ => (Ensures.span _).bind fun x hx => ?_
  exact (Ensures.literal _).bind fun _ _ => .pure fun c hc => (hx c hc).2

theorem bareValue_ensures : Ensures line bareValue fun x => ∀ c ∈ x.toList, c ∈ line :=
  (Ensures.span1 _).mono fun _ hx c hc => (hx.2 c hc).2

/-- What an attribute has after its key. -/
theorem value_ensures (key : String) :
    Ensures line (do
      spaces
      Reader.literal "="
      spaces
      let value ← Reader.orElse quoted bareValue
      return (key, value)) fun a => ∀ c ∈ a.2.toList, c ∈ line := by
  refine Ensures.spaces.bind fun _ _ => (Ensures.literal _).bind fun _ _ => ?_
  refine Ensures.spaces.bind fun _ _ => ?_
  exact (quoted_ensures.orElse bareValue_ensures).bind fun value hvalue => .pure hvalue

/-- What an attribute has after its value. -/
theorem separator_ensures {Q : String × String → Prop} (a : String × String) (ha : Q a) :
    Ensures line (do
      spaces
      let _ ← Reader.optional (.one fun c => c == ',' || c == ';')
      spaces
      return a) Q := by
  refine Ensures.spaces.bind fun _ _ => (Ensures.one _).optional.bind fun _ _ => ?_
  exact Ensures.spaces.bind fun _ _ => .pure ha

theorem listItem_ensures : Ensures line listItem fun a => ∀ c ∈ a.2.toList, c ∈ line :=
  (Ensures.word.bind fun key _ => value_ensures key).bind separator_ensures

theorem progresses_listItem : Progresses listItem :=
  (progresses_word.bind fun _ key => (value_ensures key).mono fun _ _ => trivial).bind
    fun _ a => separator_ensures a trivial

/-- The label of a list of attributes is the value of one of them and not empty. -/
theorem mem_of_labelOf {attributes : List (String × String)} {x : String}
    (h : labelOf attributes = some x) : ("label", x) ∈ attributes ∧ x.toList ≠ [] := by
  obtain ⟨a, ha, rfl⟩ := Option.map_eq_some_iff.mp h
  obtain ⟨hmem, hlabel⟩ := List.mem_filter.mp (List.mem_of_getLast? ha)
  rw [Bool.and_eq_true, beq_iff_eq, Bool.not_eq_true', String.isEmpty_eq_false_iff] at hlabel
  refine ⟨?_, fun hnil => hlabel.2 (String.toList_eq_nil_iff.mp hnil)⟩
  rwa [← hlabel.1]

theorem attributeList_ensures (hline : '\n' ∉ line) :
    Ensures line attributeList fun o => ∀ x ∈ o, x.toList ≠ [] ∧ '\n' ∉ x.toList := by
  refine (Ensures.literal _).bind fun _ _ => Ensures.spaces.bind fun _ _ => ?_
  refine (listItem_ensures.repeated progresses_listItem).bind fun attributes hall => ?_
  refine (Ensures.literal _).bind fun _ _ => .pure fun x hx => ?_
  obtain ⟨hmem, hne⟩ := mem_of_labelOf hx
  exact ⟨hne, fun hfeed => hline (hall _ hmem _ hfeed)⟩

theorem connection_ensures (hline : '\n' ∉ line) :
    Ensures line connection (Statement.Uses vocabulary) := by
  refine Ensures.word.bind fun source hsource => Ensures.spaces.bind fun _ _ => ?_
  refine (Ensures.literal _).bind fun _ _ => Ensures.spaces.bind fun _ _ => ?_
  refine Ensures.word.bind fun target htarget => ?_
  refine (Ensures.spaces.bind fun _ _ => attributeList_ensures hline).optional.bind
    fun label hlabel => ?_
  refine Ensures.endOfStatement.bind fun _ _ => ?_
  exact .pure ⟨Mention.uses_bare hsource, Mention.uses_bare htarget, forall_mem_join hlabel⟩

theorem nodeLabel_ensures (hline : '\n' ∉ line) :
    Ensures line nodeLabel (Statement.Uses vocabulary) := by
  refine Ensures.filterMap (Q := fun o => ∀ s ∈ o, Statement.Uses vocabulary s) ?_
    fun o ho s hs => ho s hs
  refine Ensures.word.bind fun id hid => Ensures.spaces.bind fun _ _ => ?_
  refine (attributeList_ensures hline).bind fun label hlabel => ?_
  refine Ensures.endOfStatement.bind fun _ _ => .pure fun s hs => ?_
  obtain ⟨x, hx, rfl⟩ := Option.map_eq_some_iff.mp hs
  exact ⟨hid, hlabel x hx⟩

theorem statement_ensures (hline : '\n' ∉ line) :
    Ensures line statement (Statement.Uses vocabulary) :=
  (connection_ensures hline).orElse (nodeLabel_ensures hline)

end Graphviz

/-! ### Connections with colon labels -/

/-- Labels after a colon start with no space and end in no blank. -/
def colonVocabulary : Vocabulary where
  inline _ := False
  arrow x := IsColonLabel x ∧ '\n' ∉ x.toList
  own _ := False

/-- A label takes the end of its line, and with it that no blank stands there. -/
theorem colonLabel_ensures (hline : '\n' ∉ line) (hend : line.reverse.takeWhile isBlank = []) :
    Ensures line colonLabel fun o => ∀ x ∈ o, IsColonLabel x ∧ '\n' ∉ x.toList := by
  refine Ensures.colonLabel.mono fun _ ho x hx => ?_
  obtain ⟨hne, hstart, hsuffix⟩ := ho x hx
  exact ⟨⟨hne, hstart, takeWhile_reverse_of_suffix hend hsuffix⟩,
    fun hfeed => hline (hsuffix.subset hfeed)⟩

theorem D2.statement_ensures (hline : '\n' ∉ line) (hend : line.reverse.takeWhile isBlank = []) :
    Ensures line D2.statement (Statement.Uses colonVocabulary) := by
  refine Ensures.word.bind fun source hsource => Ensures.spaces.bind fun _ _ => ?_
  refine (Ensures.literal _).bind fun _ _ => Ensures.spaces.bind fun _ _ => ?_
  refine Ensures.word.bind fun target htarget => ?_
  refine (colonLabel_ensures hline hend).optional.bind fun label hlabel => ?_
  refine Ensures.endOfStatement.bind fun _ _ => ?_
  exact .pure ⟨Mention.uses_bare hsource, Mention.uses_bare htarget, forall_mem_join hlabel⟩

theorem PlantUml.statement_ensures (hline : '\n' ∉ line)
    (hend : line.reverse.takeWhile isBlank = []) :
    Ensures line PlantUml.statement (Statement.Uses colonVocabulary) := by
  refine Ensures.word.bind fun source hsource => Ensures.spaces.bind fun _ _ => ?_
  refine ((Ensures.literal _).orElse (Ensures.literal _)).bind fun _ _ => ?_
  refine Ensures.spaces.bind fun _ _ => Ensures.word.bind fun target htarget => ?_
  refine (colonLabel_ensures hline hend).optional.bind fun label hlabel => ?_
  refine Ensures.endOfStatement.bind fun _ _ => ?_
  exact .pure ⟨Mention.uses_bare hsource, Mention.uses_bare htarget, forall_mem_join hlabel⟩

/-! ### All languages -/

/-- The vocabulary of a language. -/
def Engine.vocabulary : Engine → Vocabulary
  | .mermaid => Mermaid.vocabulary
  | .graphviz => Graphviz.vocabulary
  | .plantUml => colonVocabulary
  | .d2 => colonVocabulary

theorem Engine.statement_ensures (engine : Engine) (hline : '\n' ∉ line)
    (hend : line.reverse.takeWhile isBlank = []) :
    Ensures line engine.dialect.statement (Statement.Uses engine.vocabulary) := by
  cases engine with
  | mermaid => exact Mermaid.statement_ensures hline
  | plantUml => exact PlantUml.statement_ensures hline hend
  | graphviz => exact Graphviz.statement_ensures hline
  | d2 => exact D2.statement_ensures hline hend

namespace Dialect

variable {d : Dialect}

theorem readTrimmed_of_directive (h : d.isDirective line = true) : d.readTrimmed line = none := by
  rw [readTrimmed, h, Bool.or_true, if_pos rfl]

theorem readTrimmed_of_statement (hne : line ≠ []) (h : d.isDirective line = false) :
    d.readTrimmed line = d.statement.whole line := by
  rw [readTrimmed, h, Bool.or_false, if_neg (by simpa using hne)]

theorem readTrimmed_eq_some {s : Statement} :
    d.readTrimmed line = some s ↔
      line ≠ [] ∧ d.isDirective line = false ∧ d.statement.whole line = some s := by
  constructor
  · intro hs
    have hne : line ≠ [] := by
      rintro rfl
      exact absurd hs nofun
    have hdirective : d.isDirective line = false := by
      rw [← Bool.not_eq_true]
      intro h
      rw [readTrimmed_of_directive h] at hs
      exact absurd hs nofun
    exact ⟨hne, hdirective, readTrimmed_of_statement hne hdirective ▸ hs⟩
  · rintro ⟨hne, hdirective, hs⟩
    rw [readTrimmed_of_statement hne hdirective, hs]

end Dialect

theorem mem_statements {engine : Engine} {text : String} {s : Statement} :
    s ∈ statements engine text ↔
      ∃ line ∈ lines text.toList, engine.dialect.readTrimmed (trim line) = some s :=
  List.mem_filterMap

/-- Whatever the text, its statements use the vocabulary of its language. -/
theorem statements_uses (engine : Engine) (text : String) :
    ∀ s ∈ statements engine text, s.Uses engine.vocabulary := by
  intro s hs
  obtain ⟨line, hmem, hread⟩ := mem_statements.mp hs
  have hline : '\n' ∉ trim line := fun hfeed => not_mem_of_mem_lines hmem (mem_of_mem_trim hfeed)
  obtain ⟨-, -, hwhole⟩ := Dialect.readTrimmed_eq_some.mp hread
  exact (engine.statement_ensures hline (takeWhile_reverse_trim line)).whole hwhole

end BoxArrow
