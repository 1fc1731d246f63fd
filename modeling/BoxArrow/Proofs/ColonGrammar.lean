import BoxArrow.Dialect.D2
import BoxArrow.Dialect.PlantUml
import BoxArrow.Proofs.Lexemes

/-!
# The grammar of arrows with colon labels

Two languages put the label of an arrow behind a colon, and differ only in the arrows that they
know. Their grammar is one grammar with the arrows as a parameter: two words with an arrow between
them, and behind the second word either a colon with the rest of the line or the end of the
statement. A colon is no end of a statement, so that at most one of the two can be there, and a
semicolon behind a colon belongs to the label.

One of the two languages has a short and a long arrow, the other the short one only. Hyphens stand
in no word and in no gap, so that the first one of a line is that of its arrow. Shortening the long
arrow leads from the lines of the one language to the lines of the other, and changes nothing that
is read.

## Main definitions

* `BoxArrow.arrowStatement` — reading an arrow, with the reader of arrowheads as a parameter.
* `BoxArrow.IsColonTail`, `BoxArrow.IsArrowLine` — the lines that are statements.
* `BoxArrow.shortenArrow` — a line with the short arrow in the place of the long one.

## Main results

* `BoxArrow.isColonTail_iff`, `BoxArrow.whole_arrowStatement_iff` — readers accept what the grammar
  allows.
* `BoxArrow.D2.whole_eq_some_iff`, `BoxArrow.PlantUml.whole_eq_some_iff` — the two languages.
* `BoxArrow.PlantUml.whole_eq_whole_shortenArrow` — the one language in terms of the other.
* `BoxArrow.reads_exactly_arrowLines` — which lines are statements in both.
-/

namespace BoxArrow

open Reader

variable {cs rest line : List Char} {s : Statement} {arrows : List String}

/-! ### The grammar -/

/-- What may follow the nodes of an arrow: a colon behind a gap with any text, which is the label but
for the spaces at its start, or the end of the statement. -/
inductive IsColonTail : List Char → Option String → Prop
  | label {gap text : List Char} (hgap : IsGap gap) :
      IsColonTail (gap ++ ':' :: text) (labelOfText (text.dropWhile isSpace))
  | plain {text : List Char} (htext : IsBreak [';'] text) : IsColonTail text none

/-- A line is one of the arrows between two words with gaps around it, and a label where there is
one. -/
inductive IsArrowLine (arrows : List String) : List Char → Statement → Prop
  | intro {source target arrow : String} {gap gap' tail : List Char} {label : Option String}
      (hsource : IsWordBefore source
        (gap ++ (arrow.toList ++ (gap' ++ (target.toList ++ tail)))))
      (hgap : IsGap gap) (harrow : arrow ∈ arrows) (hgap' : IsGap gap')
      (htarget : IsWordBefore target tail) (htail : IsColonTail tail label) :
      IsArrowLine arrows
        (source.toList ++ (gap ++ (arrow.toList ++ (gap' ++ (target.toList ++ tail)))))
        (.connection (.bare source) (.bare target) label)

/-! ### Readers of arrows -/

/-- Reads an arrow between two nodes, where `arrow` reads what stands between them. -/
def arrowStatement (arrow : Reader Unit) : Reader Statement := do
  let source ← word
  spaces
  arrow
  spaces
  let target ← word
  let label ← Reader.optional colonLabel
  endOfStatement
  return .connection (.bare source) (.bare target) label.join

theorem D2.statement_eq_arrowStatement :
    D2.statement = arrowStatement (.literal "->") :=
  rfl

theorem PlantUml.statement_eq_arrowStatement :
    PlantUml.statement = arrowStatement (Reader.orElse (.literal "->") (.literal "-->")) :=
  rfl

/-- What stands behind the second node is read as it is meant: a colon is found where there is one,
and takes the rest of the line with it. -/
theorem isColonTail_iff {label : Option String} :
    (∃ o mid, Reader.optional colonLabel cs = some (o, mid) ∧
        endOfStatement mid = some ((), []) ∧ o.join = label) ↔ IsColonTail cs label := by
  constructor
  · rintro ⟨o, mid, ho, hending, rfl⟩
    rcases optional_eq_some.mp ho with ⟨l, rfl, hl⟩ | ⟨rfl, rfl, -⟩
    · obtain ⟨gap, text, rfl, hgap, rfl, -⟩ := colonLabel_eq_some.mp hl
      exact .label hgap
    · exact .plain (endOfStatement_eq_some_nil.mp hending)
  · intro h
    cases h with
    | @label gap text hgap =>
      exact ⟨some _, [], optional_of_some (colonLabel_eq_some.mpr ⟨gap, text, rfl, hgap, rfl, rfl⟩),
        rfl, rfl⟩
    | plain htext =>
      have hnone : colonLabel cs = none := by
        -- a label would bring its colon into the end of the statement
        rw [Option.eq_none_iff_forall_ne_some]
        rintro ⟨l, rest⟩ hl
        obtain ⟨gap, text, rfl, -⟩ := colonLabel_eq_some.mp hl
        exact absurd (htext.mem (List.mem_append_right _ List.mem_cons_self)) (by decide)
      exact ⟨none, cs, optional_of_none hnone, endOfStatement_eq_some_nil.mpr htext, rfl⟩

/-- A line is read as a statement exactly when it is a line of that statement, for a reader of
certain arrows that begin with a hyphen. -/
theorem whole_arrowStatement_iff {arrow : Reader Unit}
    (harrow : ∀ cs rest, arrow cs = some ((), rest) ↔ ∃ a ∈ arrows, cs = a.toList ++ rest)
    (hhyphen : ∀ a ∈ arrows, ∃ more, a.toList = '-' :: more) :
    (arrowStatement arrow).whole line = some s ↔ IsArrowLine arrows line s := by
  rw [whole_eq_some]
  constructor
  · intro h
    simp only [arrowStatement, bind_eq_some, pure_eq_some] at h
    obtain ⟨source, _, hsource, _, text, hspaces, _, text', ha, _, _, hspaces', target, tail,
      htarget, o, mid, ho, _, _, hending, rfl, rfl⟩ := h
    obtain ⟨hword, rfl, hstop⟩ := word_eq_some.mp hsource
    obtain ⟨gap, rfl, hgap, -⟩ := spaces_eq_some.mp hspaces
    obtain ⟨a, hmem, rfl⟩ := (harrow _ _).mp ha
    obtain ⟨gap', rfl, hgap', -⟩ := spaces_eq_some.mp hspaces'
    obtain ⟨hword', rfl, hstop'⟩ := word_eq_some.mp htarget
    exact .intro ⟨hword, hstop⟩ hgap hmem hgap' ⟨hword', hstop'⟩
      (isColonTail_iff.mp ⟨o, mid, ho, hending, rfl⟩)
  · intro h
    cases h with
    | @intro source target a gap gap' tail label hsource hgap hmem hgap' htarget htail =>
      have hstop : (a.toList ++ (gap' ++ (target.toList ++ tail))).takeWhile isSpace = [] := by
        obtain ⟨more, hmore⟩ := hhyphen a hmem
        rw [hmore]
        rfl
      obtain ⟨o, mid, ho, hending, rfl⟩ := isColonTail_iff.mpr htail
      rw [arrowStatement, bind_of_some (word_append hsource.1 hsource.2),
        bind_of_some (spaces_append gap hgap hstop),
        bind_of_some ((harrow _ _).mpr ⟨a, hmem, rfl⟩),
        bind_of_some (spaces_append gap' hgap'
          (htarget.1.takeWhile_append htarget.1.isSpace tail)),
        bind_of_some (word_append htarget.1 htarget.2), bind_of_some ho, bind_of_some hending]
      rfl

/-! ### The two languages -/

theorem D2.exists_hyphen : ∀ a ∈ ["->"], ∃ more, a.toList = '-' :: more := by
  intro a ha
  obtain rfl := List.mem_singleton.mp ha
  exact ⟨['>'], rfl⟩

theorem D2.whole_eq_some_iff :
    D2.statement.whole line = some s ↔ IsArrowLine ["->"] line s := by
  have harrow (cs rest : List Char) :
      Reader.literal "->" cs = some ((), rest) ↔ ∃ a ∈ ["->"], cs = a.toList ++ rest := by
    simp only [literal_eq_some, List.mem_singleton, exists_eq_left]
  rw [D2.statement_eq_arrowStatement]
  exact whole_arrowStatement_iff harrow D2.exists_hyphen

theorem PlantUml.exists_hyphen : ∀ a ∈ ["->", "-->"], ∃ more, a.toList = '-' :: more := by
  intro a ha
  rcases List.mem_pair.mp ha with rfl | rfl
  · exact ⟨['>'], rfl⟩
  · exact ⟨['-', '>'], rfl⟩

theorem PlantUml.whole_eq_some_iff :
    PlantUml.statement.whole line = some s ↔ IsArrowLine ["->", "-->"] line s := by
  have harrow (cs rest : List Char) :
      Reader.orElse (.literal "->") (.literal "-->") cs = some ((), rest) ↔
        ∃ a ∈ ["->", "-->"], cs = a.toList ++ rest := by
    rw [orElse_eq_some]
    constructor
    · rintro (h | ⟨-, h⟩)
      · exact ⟨"->", List.mem_pair.mpr (.inl rfl), literal_eq_some.mp h⟩
      · exact ⟨"-->", List.mem_pair.mpr (.inr rfl), literal_eq_some.mp h⟩
    · rintro ⟨a, ha, rfl⟩
      rcases List.mem_pair.mp ha with rfl | rfl
      · exact .inl (literal_append _ _)
      · -- the short arrow is no beginning of the long one
        exact .inr ⟨rfl, literal_append _ _⟩
  rw [PlantUml.statement_eq_arrowStatement]
  exact whole_arrowStatement_iff harrow PlantUml.exists_hyphen

/-! ### Long arrows and short ones -/

/-- The line with the short arrow where its first hyphen begins the long one. -/
def shortenArrow (line : List Char) : List Char :=
  let arrow := line.dropWhile (· != '-')
  line.takeWhile (· != '-') ++ if "-->".toList.isPrefixOf arrow then arrow.tail else arrow

/-- The first hyphen of a text stands behind a part without hyphens. -/
theorem takeWhile_append_hyphen {w : List Char} (hw : '-' ∉ w)
    (hrest : rest.takeWhile (· != '-') = []) :
    (w ++ rest).takeWhile (· != '-') = w ∧ (w ++ rest).dropWhile (· != '-') = rest := by
  refine takeWhile_eq_and_dropWhile_eq.mpr ⟨rfl, fun c hc => ?_, hrest⟩
  rw [bne_iff_ne]
  rintro rfl
  exact hw hc

theorem append_hyphen_inj {w w' rest' : List Char} (hw : '-' ∉ w) (hw' : '-' ∉ w')
    (hrest : rest.takeWhile (· != '-') = []) (hrest' : rest'.takeWhile (· != '-') = [])
    (h : w ++ rest = w' ++ rest') : w = w' ∧ rest = rest' := by
  obtain ⟨htake, hdrop⟩ := takeWhile_append_hyphen hw hrest
  obtain ⟨htake', hdrop'⟩ := takeWhile_append_hyphen hw' hrest'
  rw [h] at htake hdrop
  exact ⟨htake.symm.trans htake', hdrop.symm.trans hdrop'⟩

/-- The lines that have the short arrow behind a part without hyphens once they are shortened. -/
theorem shortenArrow_eq_iff {w : List Char} (hw : '-' ∉ w) :
    shortenArrow line = w ++ ("->".toList ++ rest) ↔
      ∃ a ∈ ["->", "-->"], line = w ++ (a.toList ++ rest) := by
  constructor
  · intro h
    obtain ⟨hline, hbefore, harrow⟩ : line = line.takeWhile (· != '-') ++ line.dropWhile (· != '-') ∧
        (∀ c ∈ line.takeWhile (· != '-'), (c != '-') = true) ∧
        (line.dropWhile (· != '-')).takeWhile (· != '-') = [] :=
      takeWhile_eq_and_dropWhile_eq.mp ⟨rfl, rfl⟩
    simp only [shortenArrow] at h
    generalize line.takeWhile (· != '-') = before at h hline hbefore
    generalize line.dropWhile (· != '-') = arrow at h hline harrow
    have hbefore' : '-' ∉ before := fun hmem => by simpa using hbefore '-' hmem
    split_ifs at h with hlong
    · obtain ⟨more, rfl⟩ := List.isPrefixOf_iff_prefix.mp hlong
      obtain ⟨rfl, hmore⟩ := append_hyphen_inj hbefore' hw rfl rfl h
      obtain rfl : more = rest := by simpa using hmore
      exact ⟨"-->", List.mem_pair.mpr (.inr rfl), hline⟩
    · obtain ⟨rfl, rfl⟩ := append_hyphen_inj hbefore' hw harrow rfl h
      exact ⟨"->", List.mem_pair.mpr (.inl rfl), hline⟩
  · rintro ⟨a, ha, rfl⟩
    rcases List.mem_pair.mp ha with rfl | rfl
    · have hstop : ("->".toList ++ rest).takeWhile (· != '-') = [] := rfl
      obtain ⟨hbefore, harrow⟩ := takeWhile_append_hyphen hw hstop
      rw [shortenArrow, hbefore, harrow]
      rfl
    · have hstop : ("-->".toList ++ rest).takeWhile (· != '-') = [] := rfl
      obtain ⟨hbefore, harrow⟩ := takeWhile_append_hyphen hw hstop
      rw [shortenArrow, hbefore, harrow]
      rfl

/-- Hyphens stand neither in words nor in gaps. -/
theorem hyphen_notMem {source : String} {gap : List Char} (hsource : IsWord source)
    (hgap : IsGap gap) : '-' ∉ source.toList ++ gap := by
  rw [List.mem_append]
  rintro (hmem | hmem)
  · exact hsource.notMem rfl hmem
  · exact absurd (hgap '-' hmem) (by decide)

/-- A word goes on neither in a gap nor at a character that is none of words. -/
theorem takeWhile_gap_cons {gap : List Char} (hgap : IsGap gap) {d : Char}
    (hd : isWordChar d = false) : (gap ++ d :: cs).takeWhile isWordChar = [] := by
  cases gap with
  | nil => exact List.takeWhile_cons_of_neg (Bool.eq_false_iff.mp hd)
  | cons c gap =>
    refine List.takeWhile_cons_of_neg fun hword => ?_
    exact Bool.false_ne_true ((isSpace_of_isWordChar hword).symm.trans (hgap c List.mem_cons_self))

/-- It does not matter which of the arrows a line has: the line with the short arrow in the place of
its own says the same. -/
theorem isArrowLine_iff_exists (hhyphen : ∀ a ∈ arrows, ∃ more, a.toList = '-' :: more) :
    IsArrowLine arrows line s ↔
      ∃ w, ∃ a ∈ arrows, ∃ rest, '-' ∉ w ∧ line = w ++ (a.toList ++ rest) ∧
        IsArrowLine ["->"] (w ++ ("->".toList ++ rest)) s := by
  constructor
  · intro h
    cases h with
    | @intro source target a gap gap' tail label hsource hgap ha hgap' htarget htail =>
      refine ⟨source.toList ++ gap, a, ha, gap' ++ (target.toList ++ tail),
        hyphen_notMem hsource.1 hgap, by rw [List.append_assoc], ?_⟩
      rw [List.append_assoc]
      exact .intro ⟨hsource.1, takeWhile_gap_cons hgap rfl⟩ hgap (List.mem_singleton_self _) hgap'
        htarget htail
  · rintro ⟨w, a, ha, rest, hw, rfl, h⟩
    generalize hline : w ++ ("->".toList ++ rest) = line' at h
    cases h with
    | @intro source target arrow gap gap' tail label hsource hgap harrow hgap' htarget htail =>
      obtain rfl := List.mem_singleton.mp harrow
      rw [← List.append_assoc source.toList] at hline
      obtain ⟨rfl, hrest⟩ := append_hyphen_inj hw (hyphen_notMem hsource.1 hgap) rfl rfl hline
      obtain rfl := List.append_cancel_left hrest
      obtain ⟨more, hmore⟩ := hhyphen a ha
      rw [List.append_assoc]
      refine .intro ⟨hsource.1, ?_⟩ hgap ha hgap' htarget htail
      rw [hmore]
      exact takeWhile_gap_cons hgap rfl

/-- A line of the language with both arrows is read as its shortened line is in the language with the
short arrow alone. -/
theorem PlantUml.whole_eq_whole_shortenArrow (line : List Char) :
    PlantUml.statement.whole line = D2.statement.whole (shortenArrow line) := by
  ext s
  rw [PlantUml.whole_eq_some_iff, D2.whole_eq_some_iff,
    isArrowLine_iff_exists PlantUml.exists_hyphen, isArrowLine_iff_exists D2.exists_hyphen]
  constructor
  · rintro ⟨w, a, ha, rest, hw, hline, hs⟩
    exact ⟨w, "->", List.mem_singleton_self _, rest, hw,
      (shortenArrow_eq_iff hw).mpr ⟨a, ha, hline⟩, hs⟩
  · rintro ⟨w, a, ha, rest, hw, hline, hs⟩
    obtain rfl := List.mem_singleton.mp ha
    obtain ⟨a, ha, hline⟩ := (shortenArrow_eq_iff hw).mp hline
    exact ⟨w, a, ha, rest, hw, hline, hs⟩

/-! ### Which lines are statements -/

/-- A line of arrows says one thing only. -/
theorem IsArrowLine.unique {s' : Statement} (h : IsArrowLine ["->", "-->"] line s)
    (h' : IsArrowLine ["->", "-->"] line s') : s = s' :=
  Option.some.inj
    ((PlantUml.whole_eq_some_iff.mpr h).symm.trans (PlantUml.whole_eq_some_iff.mpr h'))

/-- In both languages a line is read as a statement exactly when it is a line of that statement, with
the short arrow in the one and with either arrow in the other. It is a line of one statement at most,
so that both nodes and the label are determined by the line. A line of the second language is read
as its shortened line is in the first one. -/
theorem reads_exactly_arrowLines (line : List Char) :
    (∀ s, D2.statement.whole line = some s ↔ IsArrowLine ["->"] line s) ∧
      (∀ s, PlantUml.statement.whole line = some s ↔ IsArrowLine ["->", "-->"] line s) ∧
      (∀ s s', IsArrowLine ["->", "-->"] line s → IsArrowLine ["->", "-->"] line s' → s = s') ∧
      PlantUml.statement.whole line = D2.statement.whole (shortenArrow line) :=
  ⟨fun _ => D2.whole_eq_some_iff, fun _ => PlantUml.whole_eq_some_iff,
    fun _ _ h h' => h.unique h', PlantUml.whole_eq_whole_shortenArrow line⟩

/-- Arrows and semicolons behind the colon belong to the label. -/
example : PlantUml.statement.whole "a-->b \t:  x --> y; ".toList =
    some (.connection (.bare "a") (.bare "b") (some "x --> y; ")) := by
  decide

end BoxArrow
