import BoxArrow.Proofs.ColonGrammar
import BoxArrow.Proofs.GraphvizGrammar
import BoxArrow.Proofs.MermaidGrammar

/-!
# The layout of a text

What a text describes depends on the statements of its lines alone. So it does not matter how lines
end, which blanks stand at their two ends, and which lines stand between them that say nothing:
blank lines, directives, and lines outside of the grammar of their language. A line outside of the
grammar leaves nothing behind, even where it begins like a statement, because a line is read whole
or not at all.

## Main definitions

* `BoxArrow.Engine.IsLine` — the grammar of each language.
* `BoxArrow.Engine.IsNoise` — the lines that say nothing.
* `BoxArrow.Padded`, `BoxArrow.Relaid` — lines that are laid out in another way.
* `BoxArrow.crlf` — a text with the other kind of line ends.

## Main results

* `BoxArrow.Engine.isNoise_iff` — a line says nothing exactly when no statement is read of it.
* `BoxArrow.trim_of_padded` — blanks at the ends of a line are trimmed off.
* `BoxArrow.Relaid.filterMap_readLine` — the statements of lines that are laid out in another way.
* `BoxArrow.parse_ignores_layout` — texts that are laid out in another way have the same graph.
-/

namespace BoxArrow

open Reader

variable {engine : Engine} {line line' cs : List Char} {ls ls' : List (List Char)} {s : Statement}

/-! ### Lines that say nothing -/

/-- The lines of a language with the statements that they are. -/
def Engine.IsLine : Engine → List Char → Statement → Prop
  | .mermaid => Mermaid.IsLine
  | .plantUml => IsArrowLine ["->", "-->"]
  | .graphviz => Graphviz.IsLine
  | .d2 => IsArrowLine ["->"]

theorem Engine.whole_eq_some_iff :
    engine.dialect.statement.whole line = some s ↔ engine.IsLine line s := by
  cases engine with
  | mermaid => exact Mermaid.whole_eq_some_iff
  | plantUml => exact PlantUml.whole_eq_some_iff
  | graphviz => exact Graphviz.whole_eq_some_iff
  | d2 => exact D2.whole_eq_some_iff

/-- A line says nothing when it is blank, when it is a directive once it is trimmed, or when it is
then no line of the language. -/
def Engine.IsNoise (engine : Engine) (line : List Char) : Prop :=
  (∀ c ∈ line, isBlank c = true) ∨ engine.dialect.isDirective (trim line) = true ∨
    ∀ s, ¬ engine.IsLine (trim line) s

theorem Engine.isNoise_iff : engine.IsNoise line ↔ engine.dialect.readLine line = none := by
  rw [IsNoise, ← trim_eq_nil, Option.eq_none_iff_forall_ne_some, Dialect.readLine]
  constructor
  · rintro hnoise s hs
    obtain ⟨hne, hdirective, hwhole⟩ := Dialect.readTrimmed_eq_some.mp hs
    rcases hnoise with hblank | hdirective' | hnone
    · exact hne hblank
    · exact Bool.false_ne_true (hdirective.symm.trans hdirective')
    · exact hnone s (whole_eq_some_iff.mp hwhole)
  · intro h
    by_cases hblank : trim line = []
    · exact .inl hblank
    by_cases hdirective : engine.dialect.isDirective (trim line) = true
    · exact .inr (.inl hdirective)
    refine .inr (.inr fun s hs => h s (Dialect.readTrimmed_eq_some.mpr ⟨hblank, ?_, ?_⟩))
    · exact Bool.eq_false_iff.mpr hdirective
    · exact whole_eq_some_iff.mpr hs

instance : Decidable (engine.IsNoise line) :=
  decidable_of_iff _ Engine.isNoise_iff.symm

/-! ### Blanks at the ends of lines -/

/-- A line with blanks added at its two ends. -/
def Padded (line line' : List Char) : Prop :=
  ∃ pre post, (∀ c ∈ pre, isBlank c = true) ∧ (∀ c ∈ post, isBlank c = true) ∧
    line' = pre ++ line ++ post

theorem trimStart_append_of_blank {pre : List Char} (h : ∀ c ∈ pre, isBlank c = true) :
    trimStart (pre ++ cs) = trimStart cs :=
  List.dropWhile_append_of_pos h

theorem trimEnd_append_of_blank {post : List Char} (h : ∀ c ∈ post, isBlank c = true) :
    trimEnd (cs ++ post) = trimEnd cs := by
  rw [trimEnd, List.reverse_append,
    List.dropWhile_append_of_pos fun c hc => h c (List.mem_reverse.mp hc), trimEnd]

theorem trim_of_padded (h : Padded line line') : trim line' = trim line := by
  obtain ⟨pre, post, hpre, hpost, rfl⟩ := h
  rw [List.append_assoc, trim, trimStart_append_of_blank hpre, trim]
  by_cases hblank : trimStart line = []
  · -- the blanks behind a blank line are at its start as well
    have hline : ∀ c ∈ line, isBlank c = true := List.dropWhile_eq_nil_iff.mp hblank
    have hall : trimStart post = [] := List.dropWhile_eq_nil_iff.mpr hpost
    rw [trimStart_append_of_blank hline, hall, hblank]
  · have hcut : trimStart (line ++ post) = trimStart line ++ post := by
      rw [trimStart, List.dropWhile_append, if_neg]
      · rfl
      · rwa [List.isEmpty_iff]
    rw [hcut, trimEnd_append_of_blank hpost]

/-! ### Lines laid out in another way -/

/-- Lines that are laid out in another way: blanks are added at the ends of lines, and lines that say
nothing are inserted and deleted anywhere. -/
inductive Relaid (engine : Engine) : List (List Char) → List (List Char) → Prop
  | nil : Relaid engine [] []
  | pad {line line' : List Char} {ls ls' : List (List Char)} (hline : Padded line line')
      (h : Relaid engine ls ls') : Relaid engine (line :: ls) (line' :: ls')
  | insert {line : List Char} {ls ls' : List (List Char)} (hline : engine.IsNoise line)
      (h : Relaid engine ls ls') : Relaid engine ls (line :: ls')
  | delete {line : List Char} {ls ls' : List (List Char)} (hline : engine.IsNoise line)
      (h : Relaid engine ls ls') : Relaid engine (line :: ls) ls'

theorem readLine_of_padded (h : Padded line line') (d : Dialect) :
    d.readLine line' = d.readLine line := by
  rw [Dialect.readLine, trim_of_padded h, Dialect.readLine]

/-- The same statements are read of lines that are laid out in another way. -/
theorem Relaid.filterMap_readLine (h : Relaid engine ls ls') :
    ls'.filterMap engine.dialect.readLine = ls.filterMap engine.dialect.readLine := by
  induction h with
  | nil => rfl
  | pad hline _ ih => rw [List.filterMap_cons, List.filterMap_cons, readLine_of_padded hline, ih]
  | insert hline _ ih => rw [List.filterMap_cons_none (Engine.isNoise_iff.mp hline), ih]
  | delete hline _ ih => rw [List.filterMap_cons_none (Engine.isNoise_iff.mp hline), ih]

theorem Relaid.of_forall₂ (h : List.Forall₂ Padded ls ls') : Relaid engine ls ls' := by
  induction h with
  | nil => exact .nil
  | cons hline _ ih => exact .pad hline ih

theorem Relaid.statements_eq {text text' : String}
    (h : Relaid engine (lines text.toList) (lines text'.toList)) :
    statements engine text' = statements engine text :=
  h.filterMap_readLine

/-! ### Line ends -/

/-- The text with a carriage return before every line feed. -/
def crlf (text : String) : String :=
  String.ofList (text.toList.flatMap fun c => if c = '\n' then ['\r', '\n'] else [c])

/-- A carriage return is a blank at the end of its line. -/
theorem forall₂_lines_crlf (cs : List Char) :
    List.Forall₂ (fun line line' => ∃ post, (∀ c ∈ post, isBlank c = true) ∧ line' = line ++ post)
      (lines cs) (lines (cs.flatMap fun c => if c = '\n' then ['\r', '\n'] else [c])) := by
  induction cs with
  | nil => exact .cons ⟨[], nofun, rfl⟩ .nil
  | cons c cs ih =>
    rw [List.flatMap_cons, lines_cons]
    by_cases hc : c = '\n'
    · subst hc
      exact .cons ⟨['\r'], by simp [isBlank], rfl⟩ ih
    · rw [if_neg (by simpa using hc), if_neg hc, List.singleton_append, lines_cons,
        if_neg (by simpa using hc)]
      generalize lines cs = ls, lines (cs.flatMap _) = ls' at ih ⊢
      cases ih with
      | nil => exact .nil
      | cons hline h =>
        obtain ⟨post, hpost, rfl⟩ := hline
        exact .cons ⟨post, hpost, rfl⟩ h

theorem padded_lines_crlf (text : String) :
    List.Forall₂ Padded (lines text.toList) (lines (crlf text).toList) := by
  rw [crlf, String.toList_ofList]
  refine (forall₂_lines_crlf text.toList).imp fun line line' hline => ?_
  obtain ⟨post, hpost, rfl⟩ := hline
  exact ⟨[], post, nofun, hpost, rfl⟩

/-! ### Texts -/

/-- The graph of a text does not depend on its layout. It stays the same when every line feed gets a
carriage return before it, and it is the same for every text whose lines are those of the first one
but for blanks at their ends and for lines that say nothing, of which any number may be inserted and
deleted anywhere. -/
theorem parse_ignores_layout (engine : Engine) (text : String) :
    parse engine (crlf text) = parse engine text ∧
      ∀ text', Relaid engine (lines text.toList) (lines text'.toList) →
        parse engine text' = parse engine text := by
  have hparse (text' : String) (h : Relaid engine (lines text.toList) (lines text'.toList)) :
      parse engine text' = parse engine text := by
    rw [parse, h.statements_eq, parse]
  exact ⟨hparse _ (.of_forall₂ (padded_lines_crlf text)), hparse⟩

/-- The line `a --> c &` is rejected only at its last character, and still `c` is no node. -/
theorem parse_ignores_layout_rejected :
    Relaid .mermaid (lines "a --> b".toList) (lines "%% note\n\ta --> b \n\na --> c &".toList) ∧
      parse .mermaid "%% note\n\ta --> b \n\na --> c &" = parse .mermaid "a --> b" := by
  have hlines : lines "a --> b".toList = ["a --> b".toList] := by decide
  have hlines' : lines "%% note\n\ta --> b \n\na --> c &".toList =
      ["%% note".toList, ['\t'] ++ "a --> b".toList ++ [' '], [], "a --> c &".toList] := by
    decide
  have hrelaid : Relaid .mermaid (lines "a --> b".toList)
      (lines "%% note\n\ta --> b \n\na --> c &".toList) := by
    rw [hlines, hlines']
    refine .insert (by decide +kernel) (.pad ⟨['\t'], [' '], ?_, ?_, rfl⟩ ?_)
    · simp [isBlank]
    · simp [isBlank]
    · exact .insert (by decide +kernel) (.insert (by decide +kernel) .nil)
  exact ⟨hrelaid, (parse_ignores_layout .mermaid _).2 _ hrelaid⟩

end BoxArrow
