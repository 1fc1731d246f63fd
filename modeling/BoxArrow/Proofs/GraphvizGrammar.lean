import BoxArrow.Proofs.Vocabulary

/-!
# The grammar of digraph lines

Which lines of a digraph are statements, and of which statement, said without readers: a part of a
line is a relation between the text at which it starts, what it says, and the text that is left
behind it. Readers commit themselves early, so that three things are to be shown. What is behind an
attribute begins another one or closes the list, so that no break ends too soon. A list that is
broken off leaves its bracket, which is no end of a statement. And a line that labels a node has no
arrow where a connection has one.

## Main definitions

* `BoxArrow.Graphviz.IsValue`, `BoxArrow.Graphviz.IsAssignment`, `BoxArrow.Graphviz.IsAttributes`,
  `BoxArrow.Graphviz.IsList` — attributes and their lists.
* `BoxArrow.Graphviz.IsLastLabel` — the label that a list of attributes gives.
* `BoxArrow.Graphviz.IsLine` — the lines that are statements.

## Main results

* `BoxArrow.Graphviz.value_eq_some`, `BoxArrow.Graphviz.assignment_eq_some`,
  `BoxArrow.Graphviz.rounds_listItem`, `BoxArrow.Graphviz.attributeList_eq_some` — readers accept
  what the grammar allows.
* `BoxArrow.Graphviz.whole_eq_some_iff` — a line is read as a statement exactly when it is a line of
  that statement.
* `BoxArrow.Graphviz.whole_statement_iff_isLine` — this for all lines, and repetitions come to their
  end.
-/

namespace BoxArrow.Graphviz

open Reader

variable {cs rest line : List Char} {s : Statement}

/-! ### Values -/

/-- The characters of values without quotes. -/
def isBare (c : Char) : Bool :=
  !isBlank c && c != ',' && c != ';' && c != ']'

/-- A value is the text between two quotes. Where there is no second quote to a first one, or none
at all, it is a run of bare characters that does not go on behind it. -/
inductive IsValue : List Char → String → List Char → Prop
  | quoted {value : String} {rest : List Char} (hvalue : '"' ∉ value.toList) :
      IsValue ('"' :: (value.toList ++ '"' :: rest)) value rest
  | bare {value : String} {rest : List Char}
      (hopen : ∀ more, value.toList ++ rest = '"' :: more → '"' ∉ more)
      (hne : value.toList ≠ []) (hvalue : ∀ c ∈ value.toList, isBare c = true)
      (hrest : rest.takeWhile isBare = []) : IsValue (value.toList ++ rest) value rest

theorem quoted_eq_some {value : String} :
    quoted cs = some (value, rest) ↔
      '"' ∉ value.toList ∧ cs = '"' :: (value.toList ++ '"' :: rest) := by
  simp only [quoted, bind_eq_some, literal_eq_some, span_eq_some, pure_eq_some]
  constructor
  · rintro ⟨-, _, rfl, _, _, ⟨rfl, htext, -⟩, -, _, rfl, rfl, rfl⟩
    exact ⟨fun hmem => by simpa using htext _ hmem, rfl⟩
  · rintro ⟨hvalue, rfl⟩
    refine ⟨(), _, rfl, value, '"' :: rest, ⟨rfl, fun c hc => ?_, rfl⟩, (), rest, rfl, rfl, rfl⟩
    rw [bne_iff_ne]
    rintro rfl
    exact hvalue hc

/-- A text is refused by the reader of quoted values when it has no quote at its start or no second
one. -/
theorem quoted_eq_none : quoted cs = none ↔ ∀ more, cs = '"' :: more → '"' ∉ more := by
  constructor
  · rintro h more rfl hquote
    obtain ⟨value, rest, rfl, hvalue⟩ := List.eq_append_cons_of_mem hquote
    have hread : quoted ('"' :: (value ++ '"' :: rest)) = some (String.ofList value, rest) :=
      quoted_eq_some.mpr (by rw [String.toList_ofList]; exact ⟨hvalue, rfl⟩)
    exact absurd (h.symm.trans hread) nofun
  · intro h
    rw [Option.eq_none_iff_forall_ne_some]
    rintro ⟨value, rest⟩ hread
    obtain ⟨-, hcs⟩ := quoted_eq_some.mp hread
    exact h _ hcs (List.mem_append_right _ List.mem_cons_self)

theorem bareValue_eq_some {value : String} :
    bareValue cs = some (value, rest) ↔
      value.toList ≠ [] ∧ cs = value.toList ++ rest ∧ (∀ c ∈ value.toList, isBare c = true) ∧
        rest.takeWhile isBare = [] :=
  span1_eq_some

theorem value_eq_some {value : String} :
    Reader.orElse quoted bareValue cs = some (value, rest) ↔ IsValue cs value rest := by
  rw [orElse_eq_some, quoted_eq_some, quoted_eq_none, bareValue_eq_some]
  constructor
  · rintro (⟨hvalue, rfl⟩ | ⟨hopen, hne, rfl, hvalue, hrest⟩)
    · exact .quoted hvalue
    · exact .bare hopen hne hvalue hrest
  · intro h
    cases h with
    | quoted hvalue => exact .inl ⟨hvalue, rfl⟩
    | bare hopen hne hvalue hrest => exact .inr ⟨hopen, hne, rfl, hvalue, hrest⟩

/-- No value starts with a space, so spaces in front of it are no part of it. -/
theorem IsValue.takeWhile_isSpace {value : String} (h : IsValue cs value rest) :
    cs.takeWhile isSpace = [] := by
  cases h with
  | quoted hvalue => rfl
  | bare hopen hne hvalue hrest =>
    refine takeWhile_append_eq_nil hne fun c hc => ?_
    have hbare := hvalue c hc
    rw [← Bool.not_eq_true]
    intro hspace
    rcases (by simpa [isSpace] using hspace : c = ' ' ∨ c = '\t') with rfl | rfl
    · exact absurd hbare (by decide)
    · exact absurd hbare (by decide)

/-! ### Attributes -/

/-- An attribute is a word, an equality sign and a value, with gaps between them. -/
inductive IsAssignment : List Char → String × String → List Char → Prop
  | intro {key value : String} {gap gap' text rest : List Char}
      (hkey : IsWordBefore key (gap ++ '=' :: (gap' ++ text))) (hgap : IsGap gap)
      (hgap' : IsGap gap') (hvalue : IsValue text value rest) :
      IsAssignment (key.toList ++ (gap ++ '=' :: (gap' ++ text))) (key, value) rest

theorem assignment_eq_some {a : String × String} :
    assignment cs = some (a, rest) ↔ IsAssignment cs a rest := by
  simp only [assignment, bind_eq_some, pure_eq_some]
  constructor
  · rintro ⟨key, _, hkey, _, mid, hspaces, _, mid', hequal, _, _, hspaces', value, _, hvalue, rfl,
      rfl⟩
    obtain ⟨hword, rfl, hstop⟩ := word_eq_some.mp hkey
    obtain ⟨gap, rfl, hgap, -⟩ := spaces_eq_some.mp hspaces
    obtain rfl : mid = '=' :: mid' := literal_eq_some.mp hequal
    obtain ⟨gap', rfl, hgap', -⟩ := spaces_eq_some.mp hspaces'
    exact .intro ⟨hword, hstop⟩ hgap hgap' (value_eq_some.mp hvalue)
  · intro h
    cases h with
    | @intro key value gap gap' text rest hkey hgap hgap' hvalue =>
      exact ⟨key, _, word_append hkey.1 hkey.2, (), _, spaces_append gap hgap rfl, (), _,
        literal_cons rfl _, (), text, spaces_append gap' hgap' hvalue.takeWhile_isSpace,
        value, rest, value_eq_some.mpr hvalue, rfl, rfl⟩

/-- Attributes one after the other, with a break behind each of them in which a comma or a semicolon
may stand. -/
inductive IsAttributes : List Char → List (String × String) → List Char → Prop
  | nil {rest : List Char} : IsAttributes rest [] rest
  | cons {cs text next rest : List Char} {a : String × String} {as : List (String × String)}
      (ha : IsAssignment cs a (text ++ next)) (htext : IsBreak [',', ';'] text)
      (has : IsAttributes next as rest) : IsAttributes cs (a :: as) rest

/-- What follows a break in a list neither goes on with spaces nor has another separator. -/
theorem IsAttributes.head {as : List (String × String)} (h : IsAttributes cs as (']' :: rest)) :
    ∀ c ∈ cs.head?, isSpace c = false ∧ c ∉ [',', ';'] := by
  cases h with
  | nil =>
    rintro c hc
    obtain rfl : ']' = c := by simpa using hc
    decide
  | cons ha htext has =>
    cases ha with
    | @intro key value gap gap' text rest hkey hgap hgap' hvalue =>
      intro c hc
      obtain ⟨d, ds, hd⟩ := List.exists_cons_of_ne_nil hkey.1.ne_nil
      obtain rfl : d = c := by simpa [hd] using hc
      have hmem : d ∈ key.toList := hd ▸ List.mem_cons_self
      refine ⟨hkey.1.isSpace d hmem, fun hmark => ?_⟩
      rcases (by simpa using hmark : d = ',' ∨ d = ';') with rfl | rfl
      · exact hkey.1.notMem rfl hmem
      · exact hkey.1.notMem rfl hmem

/-- An attribute is read with the break behind it, if what follows the break does not belong to
it. -/
theorem listItem_eq_some {a : String × String}
    (hrest : ∀ c ∈ rest.head?, isSpace c = false ∧ c ∉ [',', ';']) :
    listItem cs = some (a, rest) ↔
      ∃ text, IsAssignment cs a (text ++ rest) ∧ IsBreak [',', ';'] text := by
  have hmark (cs rest : List Char) :
      (∃ c, Reader.one (fun c => c == ',' || c == ';') cs = some (c, rest)) ↔
        ∃ c ∈ [',', ';'], cs = c :: rest := by
    simp [one_eq_some]
  have hbreak (mid : List Char) := @exists_spaces_optional_iff mid rest _ _ _ hmark
    (by simp [isSpace]) hrest
  simp only [listItem, bind_eq_some, pure_eq_some, assignment_eq_some]
  constructor
  · rintro ⟨_, mid, ha, ⟨⟩, mid₁, h₁, o, mid₂, h₂, ⟨⟩, mid₃, h₃, rfl, rfl⟩
    obtain ⟨text, htext, rfl⟩ := (hbreak mid).mp ⟨mid₁, o, mid₂, h₁, h₂, h₃⟩
    exact ⟨text, ha, htext⟩
  · rintro ⟨text, ha, htext⟩
    obtain ⟨mid₁, o, mid₂, h₁, h₂, h₃⟩ := (hbreak _).mpr ⟨text, htext, rfl⟩
    exact ⟨a, _, ha, (), mid₁, h₁, o, mid₂, h₂, (), rest, h₃, rfl, rfl⟩

/-- No attribute starts with the bracket that closes a list. -/
theorem listItem_bracket : listItem (']' :: rest) = none := by
  rw [listItem, bind_of_none]
  rw [assignment, bind_of_none (word_eq_none rfl)]

/-- Attributes are read one in a round up to the bracket that closes their list. -/
theorem rounds_listItem {as : List (String × String)} :
    Rounds listItem cs as (']' :: rest) ↔ IsAttributes cs as (']' :: rest) := by
  constructor
  · intro h
    generalize hend : ']' :: rest = ending at h
    induction h with
    | stop h => exact .nil
    | round h _ _ ih =>
      -- where the next text begins is known from the attributes that it holds
      have has := ih hend
      subst hend
      obtain ⟨text, ha, htext⟩ := (listItem_eq_some has.head).mp h
      exact .cons ha htext has
  · intro h
    generalize hend : ']' :: rest = ending at h
    induction h with
    | nil =>
      subst hend
      exact .stop listItem_bracket
    | cons ha htext has ih =>
      subst hend
      have hitem := (listItem_eq_some has.head).mpr ⟨_, ha, htext⟩
      exact .round hitem (progresses_listItem _ _ _ hitem) (ih rfl)

/-! ### Labels of lists -/

/-- An attribute gives a label when its key is `label` and its value is not empty. -/
def GivesLabel (a : String × String) : Prop :=
  a.1 = "label" ∧ a.2 ≠ ""

/-- The label of a list of attributes is given by the last attribute that gives one. -/
inductive IsLastLabel : List (String × String) → Option String → Prop
  | none {attributes : List (String × String)} (h : ∀ a ∈ attributes, ¬ GivesLabel a) :
      IsLastLabel attributes none
  | some {before after : List (String × String)} {a : String × String} (ha : GivesLabel a)
      (hafter : ∀ b ∈ after, ¬ GivesLabel b) : IsLastLabel (before ++ a :: after) (some a.2)

theorem labelOf_eq_iff {attributes : List (String × String)} {o : Option String} :
    labelOf attributes = o ↔ IsLastLabel attributes o := by
  have hgives (a : String × String) :
      (a.1 == "label" && !a.2.isEmpty) = true ↔ GivesLabel a := by
    simp [GivesLabel]
  rw [labelOf, List.getLast?_filter]
  constructor
  · rintro rfl
    cases hfind : attributes.reverse.find? fun a => a.1 == "label" && !a.2.isEmpty with
    | none =>
      refine .none fun a ha hlabel => ?_
      exact List.find?_eq_none.mp hfind a (List.mem_reverse.mpr ha) ((hgives a).mpr hlabel)
    | some a =>
      obtain ⟨ha, after, before, hsplit, hafter⟩ := List.find?_eq_some_iff_append.mp hfind
      have hattributes : attributes = before.reverse ++ a :: after.reverse := by
        simpa using congrArg List.reverse hsplit
      rw [hattributes]
      refine .some ((hgives a).mp ha) fun b hb hlabel => ?_
      have hnot := hafter b (List.mem_reverse.mp hb)
      rw [(hgives b).mpr hlabel] at hnot
      exact Bool.false_ne_true hnot
  · intro h
    cases h with
    | none h =>
      rw [List.find?_eq_none.mpr fun a ha hlabel =>
        h a (List.mem_reverse.mp ha) ((hgives a).mp hlabel)]
      rfl
    | @some before after a ha hafter =>
      have hfind : (before ++ a :: after).reverse.find? (fun a => a.1 == "label" && !a.2.isEmpty) =
          some a := by
        refine List.find?_eq_some_iff_append.mpr
          ⟨(hgives a).mpr ha, after.reverse, before.reverse, by simp, fun b hb => ?_⟩
        rw [Bool.not_eq_true', ← Bool.not_eq_true, hgives]
        exact hafter b (List.mem_reverse.mp hb)
      rw [hfind]
      rfl

/-- A list of attributes stands between brackets, with a gap behind the first one. -/
inductive IsList : List Char → List (String × String) → List Char → Prop
  | intro {gap items rest : List Char} {as : List (String × String)} (hgap : IsGap gap)
      (hitems : IsAttributes items as (']' :: rest)) : IsList ('[' :: (gap ++ items)) as rest

theorem attributeList_eq_some {o : Option String} :
    attributeList cs = some (o, rest) ↔ ∃ as, IsList cs as rest ∧ IsLastLabel as o := by
  simp only [attributeList, bind_eq_some, pure_eq_some, repeated_eq_some progresses_listItem]
  constructor
  · rintro ⟨_, mid, hopen, _, _, hspaces, as, ending, hitems, _, _, hclose, rfl, rfl⟩
    obtain rfl : cs = '[' :: mid := literal_eq_some.mp hopen
    obtain ⟨gap, rfl, hgap, -⟩ := spaces_eq_some.mp hspaces
    obtain rfl : ending = ']' :: rest := literal_eq_some.mp hclose
    exact ⟨as, .intro hgap (rounds_listItem.mp hitems), labelOf_eq_iff.mp rfl⟩
  · rintro ⟨as, hlist, hlabel⟩
    cases hlist with
    | @intro gap items _ _ hgap hitems =>
      have hstop : items.takeWhile isSpace = [] :=
        takeWhile_eq_nil_of_head? fun c hc => (hitems.head c hc).1
      exact ⟨(), _, literal_cons rfl _, (), items, spaces_append gap hgap hstop, as, _,
        rounds_listItem.mpr hitems, (), rest, literal_cons rfl _,
        (labelOf_eq_iff.mpr hlabel).symm, rfl⟩

/-! ### Lines -/

/-- What may follow the nodes of a connection: the end of the statement, and before it a list of
attributes, which gives the label if there is one. -/
inductive IsTail : List Char → Option String → Prop
  | plain {text : List Char} (htext : IsBreak [';'] text) : IsTail text none
  | list {gap text ending : List Char} {as : List (String × String)} {label : Option String}
      (hgap : IsGap gap) (hlist : IsList text as ending) (hlabel : IsLastLabel as label)
      (hending : IsBreak [';'] ending) : IsTail (gap ++ text) label

/-- A line is a connection of two words by an arrow, or a word with a list of attributes that gives
a label. -/
inductive IsLine : List Char → Statement → Prop
  | connection {source target : String} {gap gap' tail : List Char} {label : Option String}
      (hsource : IsWordBefore source (gap ++ '-' :: '>' :: (gap' ++ (target.toList ++ tail))))
      (hgap : IsGap gap) (hgap' : IsGap gap') (htarget : IsWordBefore target tail)
      (htail : IsTail tail label) :
      IsLine (source.toList ++ (gap ++ '-' :: '>' :: (gap' ++ (target.toList ++ tail))))
        (.connection (.bare source) (.bare target) label)
  | nodeLabel {id label : String} {gap text ending : List Char} {as : List (String × String)}
      (hid : IsWordBefore id (gap ++ text)) (hgap : IsGap gap) (hlist : IsList text as ending)
      (hlabel : IsLastLabel as (some label)) (hending : IsBreak [';'] ending) :
      IsLine (id.toList ++ (gap ++ text)) (.nodeLabel id label)

/-- A list starts with its bracket. -/
theorem IsList.exists_cons {as : List (String × String)} (h : IsList cs as rest) :
    ∃ more, cs = '[' :: more := by
  cases h with
  | intro hgap hitems => exact ⟨_, rfl⟩

theorem spaces_list {gap text : List Char} {as : List (String × String)} (hgap : IsGap gap)
    (hlist : IsList text as rest) : spaces (gap ++ text) = some ((), text) := by
  obtain ⟨more, rfl⟩ := hlist.exists_cons
  exact spaces_append gap hgap rfl

/-- What stands behind the second node is read as it is meant. A list that is not read leaves its
bracket, at which no statement ends. -/
theorem isTail_iff {label : Option String} :
    (∃ o mid, Reader.optional (do spaces; attributeList) cs = some (o, mid) ∧
        endOfStatement mid = some ((), []) ∧ o.join = label) ↔ IsTail cs label := by
  constructor
  · rintro ⟨o, mid, ho, hending, rfl⟩
    rw [endOfStatement_eq_some_nil] at hending
    rcases optional_eq_some.mp ho with ⟨l, rfl, hl⟩ | ⟨rfl, rfl, -⟩
    · obtain ⟨_, text, hspaces, hlist⟩ := bind_eq_some.mp hl
      obtain ⟨gap, rfl, hgap, -⟩ := spaces_eq_some.mp hspaces
      obtain ⟨as, hlist, hlabel⟩ := attributeList_eq_some.mp hlist
      exact .list hgap hlist hlabel hending
    · exact .plain hending
  · intro h
    cases h with
    | plain htext =>
      have hnone : (do spaces; attributeList : Reader (Option String)) cs = none := by
        -- a list would bring its bracket into the end of the statement
        rw [Option.eq_none_iff_forall_ne_some]
        rintro ⟨l, rest⟩ hl
        obtain ⟨_, text, hspaces, hlist⟩ := bind_eq_some.mp hl
        obtain ⟨gap, rfl, -⟩ := spaces_eq_some.mp hspaces
        obtain ⟨as, hlist, -⟩ := attributeList_eq_some.mp hlist
        obtain ⟨more, rfl⟩ := hlist.exists_cons
        exact absurd (htext.mem (List.mem_append_right _ List.mem_cons_self)) (by decide)
      exact ⟨none, cs, optional_of_none hnone, endOfStatement_eq_some_nil.mpr htext, rfl⟩
    | @list gap text ending as label hgap hlist hlabel hending =>
      have hread : (do spaces; attributeList : Reader (Option String)) (gap ++ text) =
          some (label, ending) := by
        rw [bind_of_some (spaces_list hgap hlist)]
        exact attributeList_eq_some.mpr ⟨as, hlist, hlabel⟩
      exact ⟨some label, ending, optional_of_some hread, endOfStatement_eq_some_nil.mpr hending,
        rfl⟩

theorem isLine_of_connection (h : connection line = some (s, [])) : IsLine line s := by
  simp only [connection, bind_eq_some, pure_eq_some] at h
  obtain ⟨source, _, hsource, _, text, hspaces, _, text', harrow, _, _, hspaces', target, tail,
    htarget, o, mid, ho, _, _, hending, rfl, rfl⟩ := h
  obtain ⟨hword, rfl, hstop⟩ := word_eq_some.mp hsource
  obtain ⟨gap, rfl, hgap, -⟩ := spaces_eq_some.mp hspaces
  obtain rfl : text = '-' :: '>' :: text' := literal_eq_some.mp harrow
  obtain ⟨gap', rfl, hgap', -⟩ := spaces_eq_some.mp hspaces'
  obtain ⟨hword', rfl, hstop'⟩ := word_eq_some.mp htarget
  exact .connection ⟨hword, hstop⟩ hgap hgap' ⟨hword', hstop'⟩
    (isTail_iff.mp ⟨o, mid, ho, hending, rfl⟩)

theorem isLine_of_nodeLabel (h : nodeLabel line = some (s, [])) : IsLine line s := by
  obtain ⟨_, h, rfl⟩ := filterMap_eq_some.mp h
  simp only [bind_eq_some, pure_eq_some] at h
  obtain ⟨id, _, hid, _, text, hspaces, o, ending, hlist, _, _, hending, hs, rfl⟩ := h
  obtain ⟨label, rfl, rfl⟩ := Option.map_eq_some_iff.mp hs.symm
  obtain ⟨hword, rfl, hstop⟩ := word_eq_some.mp hid
  obtain ⟨gap, rfl, hgap, -⟩ := spaces_eq_some.mp hspaces
  obtain ⟨as, hlist, hlabel⟩ := attributeList_eq_some.mp hlist
  exact .nodeLabel ⟨hword, hstop⟩ hgap hlist hlabel (endOfStatement_eq_some_nil.mp hending)

/-- A line of the grammar is read whole, as what it says. -/
theorem IsLine.statement (h : IsLine line s) : Graphviz.statement line = some (s, []) := by
  cases h with
  | @connection source target gap gap' tail label hsource hgap hgap' htarget htail =>
    have harrow (more : List Char) : Reader.literal "->" ('-' :: '>' :: more) = some ((), more) :=
      literal_append "->" more
    obtain ⟨o, mid, ho, hending, rfl⟩ := isTail_iff.mpr htail
    refine orElse_of_some ?_
    rw [Graphviz.connection, bind_of_some (word_append hsource.1 hsource.2),
      bind_of_some (spaces_append gap hgap rfl), bind_of_some (harrow _),
      bind_of_some (spaces_append gap' hgap'
        (htarget.1.takeWhile_append htarget.1.isSpace tail)),
      bind_of_some (word_append htarget.1 htarget.2), bind_of_some ho, bind_of_some hending]
    rfl
  | @nodeLabel id label gap text ending as hid hgap hlist hlabel hending =>
    have hnone : Graphviz.connection (id.toList ++ (gap ++ text)) = none := by
      -- the bracket stands where a connection has its arrow
      obtain ⟨more, rfl⟩ := hlist.exists_cons
      rw [Graphviz.connection, bind_of_some (word_append hid.1 hid.2),
        bind_of_some (spaces_append gap hgap rfl), bind_of_none (literal_eq_none (by simp))]
    rw [Graphviz.statement, orElse_of_none hnone, Graphviz.nodeLabel]
    refine filterMap_eq_some.mpr ⟨some (.nodeLabel id label), ?_, rfl⟩
    rw [bind_of_some (word_append hid.1 hid.2), bind_of_some (spaces_list hgap hlist),
      bind_of_some (attributeList_eq_some.mpr ⟨as, hlist, hlabel⟩),
      bind_of_some (endOfStatement_eq_some_nil.mpr hending)]
    rfl

/-- No line says two things. -/
theorem IsLine.unique {s' : Statement} (h : IsLine line s) (h' : IsLine line s') : s = s' :=
  (Prod.mk.inj (Option.some.inj (h.statement.symm.trans h'.statement))).1

theorem whole_eq_some_iff : statement.whole line = some s ↔ IsLine line s := by
  refine whole_eq_some.trans ⟨fun h => ?_, IsLine.statement⟩
  rcases orElse_eq_some.mp h with h | ⟨-, h⟩
  · exact isLine_of_connection h
  · exact isLine_of_nodeLabel h

/-- A line is read as a statement exactly when it is a line of that statement. Whatever the text,
the repetition in a list of attributes comes to its end, and every round takes a character at
least. -/
theorem whole_statement_iff_isLine :
    (∀ line s, statement.whole line = some s ↔ IsLine line s) ∧
      ∀ cs, ∃ attributes rest, listItem.repeated cs = some (attributes, rest) ∧
        Rounds listItem cs attributes rest :=
  ⟨fun _ _ => whole_eq_some_iff, fun cs => ⟨_, _, rfl, rounds_many progresses_listItem cs⟩⟩

/-- A quote that is not closed belongs to the value. -/
example : statement.whole "A -> B [label=\"x, color=red]".toList =
    some (.connection (.bare "A") (.bare "B") (some "\"x")) := by
  decide

end BoxArrow.Graphviz
