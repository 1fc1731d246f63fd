import BoxArrow.Dialect.Mermaid
import BoxArrow.Proofs.Lexemes

/-!
# The grammar of flowchart lines

Which lines of a flowchart are statements, and of which statement, said without readers: a part of a
line is a relation between the text at which it starts, what it says, and the text that is left
behind it.

Readers commit themselves early. A bracket behind a word is read as a label where it can be, a bar
behind an arrow likewise, and a declaration is looked for only where no arrow was found. No line is
lost to this. In the grammar neither a bracket follows a node without a label nor a bar an arrow
without one, and the label of a declaration is followed by the end of the statement, where no arrow
begins.

## Main definitions

* `BoxArrow.Mermaid.IsLabelled`, `BoxArrow.Mermaid.IsMention`, `BoxArrow.Mermaid.IsEnding` — the
  parts of a line.
* `BoxArrow.Mermaid.IsLine` — the lines that are statements.

## Main results

* `BoxArrow.Mermaid.mention_eq_some`, `BoxArrow.Mermaid.exists_spaces_pipeLabel_iff`,
  `BoxArrow.Mermaid.ending_eq_some` — readers accept what the grammar allows.
* `BoxArrow.Mermaid.whole_eq_some_iff` — a line is read as a statement exactly when it is a line of
  that statement.
* `BoxArrow.Mermaid.reads_exactly_lines` — the same, with the uniqueness of all that is read.
-/

namespace BoxArrow.Mermaid

open Reader

variable {cs rest line : List Char} {s : Statement}

/-! ### Labels that may be left out -/

/-- A label between two delimiters, or no label. -/
inductive IsLabelled (opening close : Char) : List Char → Option String → List Char → Prop
  | none {rest : List Char} : IsLabelled opening close rest none rest
  | some {label : String} {rest : List Char} (hlabel : IsEnclosed close label) :
      IsLabelled opening close (opening :: (label.toList ++ close :: rest)) (some label) rest

/-- A label is read where there is one, if what follows a missing one does not look like it. -/
theorem optional_enclosed_eq_some {opening close : Char} {label : Option String}
    (hrest : rest.head? ≠ some opening) :
    Reader.optional (enclosed opening close) cs = some (label, rest) ↔
      IsLabelled opening close cs label rest := by
  rw [optional_eq_some]
  constructor
  · rintro (⟨x, rfl, hx⟩ | ⟨rfl, rfl, -⟩)
    · obtain ⟨hlabel, rfl⟩ := enclosed_eq_some.mp hx
      exact .some hlabel
    · exact .none
  · intro h
    cases h with
    | none => exact .inr ⟨rfl, rfl, enclosed_eq_none hrest⟩
    | some hlabel => exact .inl ⟨_, rfl, enclosed_append hlabel⟩

/-! ### Nodes -/

/-- A node is a word that ends where it cannot go on, and behind it a label between brackets where
there is one. -/
inductive IsMention : List Char → Mention → List Char → Prop
  | intro {id : String} {label : Option String} {text rest : List Char}
      (hid : IsWordBefore id text) (hlabel : IsLabelled '[' ']' text label rest) :
      IsMention (id.toList ++ text) ⟨id, label⟩ rest

theorem mention_eq_some {m : Mention} (hrest : rest.head? ≠ some '[') :
    mention cs = some (m, rest) ↔ IsMention cs m rest := by
  simp only [mention, bracketLabel, bind_eq_some, pure_eq_some]
  constructor
  · rintro ⟨id, text, hid, label, _, hlabel, rfl, rfl⟩
    obtain ⟨hword, rfl, hstop⟩ := word_eq_some.mp hid
    exact .intro ⟨hword, hstop⟩ ((optional_enclosed_eq_some hrest).mp hlabel)
  · intro h
    cases h with
    | @intro id label text rest hid hlabel =>
      exact ⟨id, text, word_append hid.1 hid.2, label, rest,
        (optional_enclosed_eq_some hrest).mpr hlabel, rfl, rfl⟩

/-- A node starts with its word. -/
theorem IsMention.exists_word {m : Mention} (h : IsMention cs m rest) :
    ∃ text, IsWord m.id ∧ cs = m.id.toList ++ text := by
  cases h with
  | intro hid hlabel => exact ⟨_, hid.1, rfl⟩

theorem IsMention.takeWhile_isSpace {m : Mention} (h : IsMention cs m rest) :
    cs.takeWhile isSpace = [] := by
  obtain ⟨text, hid, rfl⟩ := h.exists_word
  exact hid.takeWhile_append hid.isSpace text

theorem IsMention.head?_ne {m : Mention} (h : IsMention cs m rest) {c : Char}
    (hc : isWordChar c = false) : cs.head? ≠ some c := by
  obtain ⟨text, hid, rfl⟩ := h.exists_word
  exact hid.head?_append_ne hc

/-! ### Labels of connections -/

/-- The label of a connection is read with the gaps around it, if what follows begins with neither a
space nor a bar. Where there is no label, the two gaps are one. -/
theorem exists_spaces_pipeLabel_iff {label : Option String}
    (hspace : rest.takeWhile isSpace = []) (hbar : rest.head? ≠ some '|') :
    (∃ mid mid', spaces cs = some ((), mid) ∧ Reader.optional pipeLabel mid = some (label, mid') ∧
        spaces mid' = some ((), rest)) ↔
      ∃ gap text gap', IsGap gap ∧ IsGap gap' ∧ IsLabelled '|' '|' text label (gap' ++ rest) ∧
        cs = gap ++ text := by
  constructor
  · rintro ⟨mid, mid', hspaces, hlabel, hspaces'⟩
    obtain ⟨gap, rfl, hgap, -⟩ := spaces_eq_some.mp hspaces
    obtain ⟨gap', rfl, hgap', -⟩ := spaces_eq_some.mp hspaces'
    have hhead := hgap'.head?_append_ne (by decide) hbar
    exact ⟨gap, mid, gap', hgap, hgap', (optional_enclosed_eq_some hhead).mp hlabel, rfl⟩
  · rintro ⟨gap, text, gap', hgap, hgap', hlabel, rfl⟩
    cases hlabel with
    | none =>
      refine ⟨rest, rest, ?_, optional_of_none (enclosed_eq_none hbar), spaces_of_none hspace⟩
      rw [← List.append_assoc]
      exact spaces_append _ (hgap.append hgap') hspace
    | @some x _ hx =>
      exact ⟨_, _, spaces_append gap hgap rfl, optional_of_some (enclosed_append hx),
        spaces_append gap' hgap' hspace⟩

/-! ### Ends of statements -/

/-- A statement ends with a break in which a semicolon may stand. A comment may follow up to the end
of the line. -/
inductive IsEnding : List Char → Prop
  | plain {text : List Char} (htext : IsBreak [';'] text) : IsEnding text
  | comment {text note : List Char} (htext : IsBreak [';'] text) :
      IsEnding (text ++ '%' :: '%' :: note)

/-- The comment behind the end of a statement. -/
theorem optional_comment_eq_some {o : Option Unit} :
    (Reader.optional (do
      Reader.literal "%%"
      let _ ← Reader.remainder : Reader Unit)) cs = some (o, []) ↔
      (o = some () ∧ ∃ note, cs = '%' :: '%' :: note) ∨ o = none ∧ cs = [] := by
  have hcomment (cs rest : List Char) : (do
      Reader.literal "%%"
      let _ ← Reader.remainder : Reader Unit) cs = some ((), rest) ↔
        (∃ note, cs = '%' :: '%' :: note) ∧ rest = [] := by
    simp only [bind_eq_some, literal_eq_some, remainder_eq_some, pure_eq_some, true_and]
    constructor
    · rintro ⟨_, _, rfl, note, _, ⟨rfl, rfl⟩, rfl⟩
      exact ⟨⟨note.toList, rfl⟩, rfl⟩
    · rintro ⟨⟨note, rfl⟩, rfl⟩
      exact ⟨(), note, rfl, String.ofList note, [], ⟨String.toList_ofList.symm, rfl⟩, rfl⟩
  rw [optional_eq_some]
  constructor
  · rintro (⟨_, rfl, hnote⟩ | ⟨rfl, rfl, -⟩)
    · exact .inl ⟨rfl, ((hcomment _ _).mp hnote).1⟩
    · exact .inr ⟨rfl, rfl⟩
  · rintro (⟨rfl, hnote⟩ | ⟨rfl, rfl⟩)
    · exact .inl ⟨(), rfl, (hcomment _ _).mpr ⟨hnote, rfl⟩⟩
    · exact .inr ⟨rfl, rfl, rfl⟩

theorem ending_eq_some : ending cs = some ((), []) ↔ IsEnding cs := by
  simp only [ending, bind_eq_some, pure_eq_some, true_and]
  constructor
  · rintro ⟨_, mid, hend, o, _, ho, rfl⟩
    rcases optional_comment_eq_some.mp ho with ⟨-, note, rfl⟩ | ⟨-, rfl⟩
    · obtain ⟨text, htext, rfl⟩ := (endOfStatement_eq_some (by simp [isSpace])).mp hend
      exact .comment htext
    · exact .plain (endOfStatement_eq_some_nil.mp hend)
  · intro h
    cases h with
    | plain htext =>
      exact ⟨(), [], endOfStatement_eq_some_nil.mpr htext, none, [],
        optional_comment_eq_some.mpr (.inr ⟨rfl, rfl⟩), rfl⟩
    | @comment text note htext =>
      exact ⟨(), '%' :: '%' :: note,
        (endOfStatement_eq_some (by simp [isSpace])).mpr ⟨text, htext, rfl⟩, some (), [],
        optional_comment_eq_some.mpr (.inl ⟨rfl, note, rfl⟩), rfl⟩

/-- What ends a statement begins with a space, a semicolon or a percent sign. -/
theorem IsEnding.head (h : IsEnding cs) : ∀ c ∈ cs.head?, isSpace c = true ∨ c = ';' ∨ c = '%' := by
  have hbreak {text : List Char} (htext : IsBreak [';'] text) :
      ∀ c ∈ text, isSpace c = true ∨ c = ';' ∨ c = '%' := by
    intro c hc
    rcases htext.mem hc with hspace | hmark
    · exact .inl hspace
    · exact .inr (.inl (List.mem_singleton.mp hmark))
  cases h with
  | plain htext => exact fun c hc => hbreak htext c (List.mem_of_head? hc)
  | @comment text note htext =>
    intro c hc
    cases text with
    | nil =>
      obtain rfl : '%' = c := by simpa using hc
      exact .inr (.inr rfl)
    | cons d text =>
      obtain rfl : d = c := by simpa using hc
      exact hbreak htext d List.mem_cons_self

theorem IsEnding.head?_ne (h : IsEnding cs) : cs.head? ≠ some '[' := by
  intro hhead
  exact absurd (h.head '[' hhead) (by decide)

/-- No arrow begins where a statement ends. -/
theorem not_isEnding_arrow {gap : List Char} (hgap : IsGap gap) : ¬ IsEnding (gap ++ '-' :: cs) := by
  have hspace {c : Char} (hc : c ∈ gap) (hne : isSpace c = false) : False :=
    Bool.false_ne_true (hne.symm.trans (hgap c hc))
  intro h
  generalize hline : gap ++ '-' :: cs = line at h
  cases h with
  | plain htext =>
    subst hline
    exact absurd (htext.mem (List.mem_append_right _ List.mem_cons_self)) (by decide)
  | @comment text note htext =>
    rcases List.append_eq_append_iff.mp hline with ⟨between, rfl, hrest⟩ | ⟨between, rfl, hrest⟩
    · cases between with
      | nil => exact absurd (List.cons.inj hrest).1 (by decide)
      | cons c between =>
        obtain rfl : '-' = c := (List.cons.inj hrest).1
        exact absurd (htext.mem (List.mem_append_right _ List.mem_cons_self)) (by decide)
    · cases between with
      | nil => exact absurd (List.cons.inj hrest).1 (by decide)
      | cons c between =>
        obtain rfl : '%' = c := (List.cons.inj hrest).1
        exact hspace (List.mem_append_right _ List.mem_cons_self) (by decide)

/-! ### Lines -/

/-- A line is a connection of two nodes by an arrow, which may have a label, or the declaration of a
node with its label. -/
inductive IsLine : List Char → Statement → Prop
  | connection {source target : Mention} {label : Option String}
      {line gap gap' gap'' text text' ending : List Char}
      (hsource : IsMention line source (gap ++ '-' :: '-' :: '>' :: (gap' ++ text)))
      (hgap : IsGap gap) (hgap' : IsGap gap')
      (hlabel : IsLabelled '|' '|' text label (gap'' ++ text')) (hgap'' : IsGap gap'')
      (htarget : IsMention text' target ending) (hending : IsEnding ending) :
      IsLine line (.connection source target label)
  | declaration {id label : String} {line ending : List Char}
      (hnode : IsMention line ⟨id, some label⟩ ending) (hending : IsEnding ending) :
      IsLine line (.declaration ⟨id, some label⟩)

/-- No bracket follows the source of an arrow. -/
theorem head?_arrow_ne {gap : List Char} (hgap : IsGap gap) :
    (gap ++ '-' :: '-' :: '>' :: cs).head? ≠ some '[' :=
  hgap.head?_append_ne (by decide) (by simp)

theorem isLine_of_connection (h : connection line = some (s, [])) : IsLine line s := by
  simp only [connection, bind_eq_some, pure_eq_some] at h
  obtain ⟨source, _, hsource, _, mid, hspaces, _, text, harrow, _, mid₁, h₁, label, mid₂, h₂, _,
    text', h₃, target, ending, htarget, _, _, hending, rfl, rfl⟩ := h
  obtain ⟨gap, rfl, hgap, -⟩ := spaces_eq_some.mp hspaces
  obtain rfl : mid = '-' :: '-' :: '>' :: text := literal_eq_some.mp harrow
  have hend := ending_eq_some.mp hending
  have htarget' := (mention_eq_some hend.head?_ne).mp htarget
  obtain ⟨gap', text₁, gap'', hgap', hgap'', hlabel, rfl⟩ :=
    (exists_spaces_pipeLabel_iff htarget'.takeWhile_isSpace (htarget'.head?_ne (by decide))).mp
      ⟨mid₁, mid₂, h₁, h₂, h₃⟩
  exact .connection ((mention_eq_some (head?_arrow_ne hgap)).mp hsource) hgap hgap' hlabel hgap''
    htarget' hend

theorem isLine_of_declaration (h : declaration line = some (s, [])) : IsLine line s := by
  simp only [declaration, bracketLabel, bind_eq_some, pure_eq_some] at h
  obtain ⟨id, text, hid, label, ending, hlabel, _, _, hending, rfl, rfl⟩ := h
  obtain ⟨hword, rfl, hstop⟩ := word_eq_some.mp hid
  obtain ⟨henclosed, rfl⟩ := enclosed_eq_some.mp hlabel
  exact .declaration (.intro ⟨hword, hstop⟩ (.some henclosed)) (ending_eq_some.mp hending)

/-- A line of the grammar is read whole, as what it says. -/
theorem IsLine.statement (h : IsLine line s) : Mermaid.statement line = some (s, []) := by
  cases h with
  | @connection source target label _ gap gap' gap'' text text' ending hsource hgap hgap' hlabel
      hgap'' htarget hending =>
    have harrow (more : List Char) :
        Reader.literal "-->" ('-' :: '-' :: '>' :: more) = some ((), more) :=
      literal_append "-->" more
    obtain ⟨mid, mid', h₁, h₂, h₃⟩ :=
      (exists_spaces_pipeLabel_iff htarget.takeWhile_isSpace (htarget.head?_ne (by decide))).mpr
        ⟨gap', text, gap'', hgap', hgap'', hlabel, rfl⟩
    refine orElse_of_some ?_
    rw [Mermaid.connection, bind_of_some ((mention_eq_some (head?_arrow_ne hgap)).mpr hsource),
      bind_of_some (spaces_append gap hgap rfl), bind_of_some (harrow _), bind_of_some h₁,
      bind_of_some h₂, bind_of_some h₃,
      bind_of_some ((mention_eq_some hending.head?_ne).mpr htarget),
      bind_of_some (ending_eq_some.mpr hending)]
    rfl
  | @declaration id label _ ending hnode hending =>
    have hnone : Mermaid.connection line = none := by
      rw [Option.eq_none_iff_forall_ne_some]
      rintro ⟨s, rest⟩ hs
      simp only [Mermaid.connection, bind_eq_some] at hs
      obtain ⟨m, _, hm, _, mid, hspaces, _, text, harrow, -⟩ := hs
      rw [(mention_eq_some hending.head?_ne).mpr hnode] at hm
      obtain ⟨rfl, rfl⟩ := Prod.mk.inj (Option.some.inj hm)
      -- an arrow would stand where the statement ends
      obtain ⟨gap, rfl, hgap, -⟩ := spaces_eq_some.mp hspaces
      obtain rfl : mid = '-' :: '-' :: '>' :: text := literal_eq_some.mp harrow
      exact not_isEnding_arrow hgap hending
    cases hnode with
    | intro hid hlabel =>
      cases hlabel with
      | some hlabel =>
        rw [Mermaid.statement, orElse_of_none hnone, Mermaid.declaration,
          bind_of_some (word_append hid.1 hid.2), bracketLabel,
          bind_of_some (enclosed_append hlabel), bind_of_some (ending_eq_some.mpr hending)]
        rfl

theorem whole_eq_some_iff : statement.whole line = some s ↔ IsLine line s := by
  rw [whole_eq_some]
  constructor
  · intro h
    rcases orElse_eq_some.mp h with h | ⟨-, h⟩
    · exact isLine_of_connection h
    · exact isLine_of_declaration h
  · exact IsLine.statement

/-- No line says two things. -/
theorem IsLine.unique {s' : Statement} (h : IsLine line s) (h' : IsLine line s') : s = s' :=
  (Prod.mk.inj (Option.some.inj (h.statement.symm.trans h'.statement))).1

/-- A line is read as a statement exactly when it is a line of that statement. It is a line of one
statement at most, so that everything that is read of it is determined by the line, and none is both
a connection and a declaration. -/
theorem reads_exactly_lines (line : List Char) :
    (∀ s, statement.whole line = some s ↔ IsLine line s) ∧
      (∀ s s', IsLine line s → IsLine line s' → s = s') ∧
      ∀ source target label node,
        ¬ (IsLine line (.connection source target label) ∧ IsLine line (.declaration node)) := by
  refine ⟨fun s => whole_eq_some_iff, fun s s' h h' => h.unique h', ?_⟩
  rintro source target label node ⟨hconnection, hdeclaration⟩
  exact absurd (hconnection.unique hdeclaration) nofun

/-- Arrows, bars and comments in a label between brackets belong to the label. -/
example : statement.whole "A[x --> B|%%;] -->  |y]| B[[z];%% ]".toList =
    some (.connection ⟨"A", some "x --> B|%%;"⟩ ⟨"B", some "[z"⟩ (some "y]")) := by
  decide

end BoxArrow.Mermaid
