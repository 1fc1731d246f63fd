import BoxArrow.Dialect.Statement
import BoxArrow.Proofs.Lines

/-!
# Words, spaces and labels in a line

The lexemes that the languages share, each with the texts it accepts and with the text it leaves
when a written line is read again. Identifiers are ASCII, so whatever is to be known about one of
their characters can be checked for all of them.

## Main definitions

* `BoxArrow.IsWord`, `BoxArrow.IsWordBefore` — the texts that are identifiers.
* `BoxArrow.IsGap`, `BoxArrow.IsBreak` — spaces and tabs, and what may stand among them.
* `BoxArrow.IsEnclosed` — the texts that can stand between two delimiters.
* `BoxArrow.IsColonLabel` — the texts that can be the label behind a colon.

## Main results

* `BoxArrow.forall_isWordChar` — a property of identifier characters, checked on the ASCII ones.
* `BoxArrow.word_eq_some`, `BoxArrow.word_append`, `BoxArrow.spaces_eq_some`,
  `BoxArrow.spaces_append`.
* `BoxArrow.endOfStatement_eq_some` — what may end a statement.
* `BoxArrow.enclosed_eq_some`, `BoxArrow.enclosed_append`.
* `BoxArrow.colonLabel_eq_some`, `BoxArrow.colonLabel_append` — what is left of a label behind a
  colon.
-/

namespace BoxArrow

open Reader

variable {cs rest : List Char}

/-! ### Characters of identifiers -/

theorem toNat_lt_of_isWordChar {c : Char} (h : isWordChar c = true) : c.toNat < 123 := by
  delta isWordChar Char.isAlphanum Char.isAlpha Char.isUpper Char.isLower Char.isDigit at h
  simp only [Bool.or_eq_true, Bool.and_eq_true, decide_eq_true_eq, beq_iff_eq, ge_iff_le,
    UInt32.le_iff_toNat_le, Char.toNat_val, Char.reduceVal, UInt32.reduceToNat] at h
  rcases h with ((h | h) | h) | rfl
  · omega
  · omega
  · omega
  · decide

/-- What is to be known about a character of an identifier can be checked on the ASCII ones. -/
theorem forall_isWordChar {P : Char → Prop}
    (h : ∀ n < 123, isWordChar (Char.ofNat n) = true → P (Char.ofNat n)) {c : Char}
    (hc : isWordChar c = true) : P c := by
  have hn := h c.toNat (toNat_lt_of_isWordChar hc)
  rw [Char.ofNat_toNat] at hn
  exact hn hc

theorem isBlank_of_isWordChar {c : Char} (h : isWordChar c = true) : isBlank c = false :=
  forall_isWordChar (P := fun c => isBlank c = false) (by decide) h

theorem isBlank_of_isDigit {c : Char} (h : c.isDigit = true) : isBlank c = false :=
  isBlank_of_isWordChar (by simp [isWordChar, Char.isAlphanum, h])

theorem isSpace_of_isWordChar {c : Char} (h : isWordChar c = true) : isSpace c = false :=
  forall_isWordChar (P := fun c => isSpace c = false) (by decide) h

/-! ### Digits of numbers -/

theorem isDigit_toDigits (n : Nat) : ∀ c ∈ Nat.toDigits 10 n, c.isDigit = true :=
  fun _ hc => Nat.isDigit_of_mem_toDigits (by decide) (by decide) hc

theorem isDigit_replicate_zero (n : Nat) : ∀ c ∈ List.replicate n '0', c.isDigit = true := by
  intro c hc
  rw [List.eq_of_mem_replicate hc]
  rfl

theorem isBlank_of_isSpace {c : Char} (h : isSpace c = true) : isBlank c = true := by
  rcases Bool.or_eq_true_iff.mp h with h | h <;> rw [beq_iff_eq.mp h] <;> rfl

/-! ### Words -/

/-- A text is a word when it is not empty and all its characters are those of identifiers. -/
def IsWord (w : String) : Prop :=
  w.toList ≠ [] ∧ ∀ c ∈ w.toList, isWordChar c = true

instance (w : String) : Decidable (IsWord w) :=
  decidable_of_iff (w.toList ≠ [] ∧ w.toList.all isWordChar = true) (by
    rw [IsWord, List.all_eq_true])

namespace IsWord

variable {w : String}

theorem ne_nil (h : IsWord w) : w.toList ≠ [] := h.1

theorem isBlank (h : IsWord w) : ∀ c ∈ w.toList, BoxArrow.isBlank c = false :=
  fun c hc => isBlank_of_isWordChar (h.2 c hc)

theorem isSpace (h : IsWord w) : ∀ c ∈ w.toList, BoxArrow.isSpace c = false :=
  fun c hc => isSpace_of_isWordChar (h.2 c hc)

/-- A character that is none of identifiers does not occur in a word. -/
theorem notMem (h : IsWord w) {c : Char} (hc : isWordChar c = false) : c ∉ w.toList :=
  fun hmem => Bool.false_ne_true (hc.symm.trans (h.2 c hmem))

/-- A text that begins with a word begins outside of every class without identifier characters. -/
theorem takeWhile_append (h : IsWord w) {p : Char → Bool}
    (hp : ∀ c ∈ w.toList, p c = false) (rest : List Char) :
    (w.toList ++ rest).takeWhile p = [] :=
  takeWhile_append_eq_nil h.ne_nil hp

/-- A word is not the start of a text that begins otherwise. -/
theorem not_prefix (h : IsWord w) {c : Char} {l : List Char} (hc : isWordChar c = false) :
    ¬ c :: l <+: w.toList ++ rest := by
  obtain ⟨d, ds, hd⟩ := List.exists_cons_of_ne_nil h.ne_nil
  rw [hd, List.cons_append, List.cons_prefix_cons]
  rintro ⟨rfl, -⟩
  exact h.notMem hc (hd ▸ List.mem_cons_self)

theorem head?_append_ne (h : IsWord w) {c : Char} (hc : isWordChar c = false) :
    (w.toList ++ rest).head? ≠ some c := by
  intro hhead
  obtain ⟨l, hl⟩ := List.head?_eq_some_iff.mp hhead
  have hfirst : [c] <+: w.toList ++ rest := ⟨l, hl.symm⟩
  exact h.not_prefix hc hfirst

end IsWord

/-- A word stands before `rest` when it is a word that does not go on there. -/
def IsWordBefore (w : String) (rest : List Char) : Prop :=
  IsWord w ∧ rest.takeWhile isWordChar = []

theorem word_eq_some {w : String} :
    word cs = some (w, rest) ↔
      IsWord w ∧ cs = w.toList ++ rest ∧ rest.takeWhile isWordChar = [] := by
  rw [word, span1_eq_some, IsWord]
  constructor
  · rintro ⟨hne, hcs, hw, hrest⟩
    exact ⟨⟨hne, hw⟩, hcs, hrest⟩
  · rintro ⟨⟨hne, hw⟩, hcs, hrest⟩
    exact ⟨hne, hcs, hw, hrest⟩

theorem word_append {w : String} (hw : IsWord w) (hrest : rest.takeWhile isWordChar = []) :
    word (w.toList ++ rest) = some (w, rest) :=
  word_eq_some.mpr ⟨hw, rfl, hrest⟩

theorem word_eq_none (h : cs.takeWhile isWordChar = []) : word cs = none :=
  span1_eq_none h

theorem progresses_word : Progresses word := by
  intro cs w rest h
  obtain ⟨hw, rfl, -⟩ := word_eq_some.mp h
  have hpos := List.length_pos_iff.mpr hw.ne_nil
  rw [List.length_append]
  omega

/-! ### Spaces and the end of a statement -/

/-- A gap is any number of spaces and tabs. -/
def IsGap (gap : List Char) : Prop :=
  ∀ c ∈ gap, isSpace c = true

theorem IsGap.append {gap gap' : List Char} (h : IsGap gap) (h' : IsGap gap') :
    IsGap (gap ++ gap') :=
  List.forall_mem_append.mpr ⟨h, h'⟩

theorem IsGap.notMem {gap : List Char} (h : IsGap gap) {c : Char} (hc : isSpace c = false) :
    c ∉ gap :=
  fun hmem => Bool.false_ne_true (hc.symm.trans (h c hmem))

theorem IsGap.head?_append_ne {gap : List Char} (h : IsGap gap) {c : Char}
    (hc : isSpace c = false) (hrest : rest.head? ≠ some c) : (gap ++ rest).head? ≠ some c := by
  cases gap with
  | nil => exact hrest
  | cons d gap =>
    rw [List.cons_append, List.head?_cons, ne_eq, Option.some.injEq]
    rintro rfl
    exact Bool.false_ne_true (hc.symm.trans (h d List.mem_cons_self))

theorem spaces_eq_some {u : Unit} :
    spaces cs = some (u, rest) ↔
      ∃ gap : List Char, cs = gap ++ rest ∧ IsGap gap ∧ rest.takeWhile isSpace = [] := by
  rw [spaces, bind_eq_some]
  constructor
  · rintro ⟨w, mid, hw, hmid⟩
    obtain ⟨-, rfl⟩ := pure_eq_some.mp hmid
    exact ⟨w.toList, span_eq_some.mp hw⟩
  · rintro ⟨gap, hgap⟩
    refine ⟨String.ofList gap, rest, span_eq_some.mpr ?_, pure_eq_some.mpr ⟨rfl, rfl⟩⟩
    rwa [String.toList_ofList]

theorem spaces_append (gap : List Char) (hgap : IsGap gap)
    (hrest : rest.takeWhile isSpace = []) : spaces (gap ++ rest) = some ((), rest) :=
  spaces_eq_some.mpr ⟨gap, rfl, hgap, hrest⟩

theorem spaces_of_none (hrest : rest.takeWhile isSpace = []) : spaces rest = some ((), rest) :=
  spaces_append [] nofun hrest

theorem spaces_of_one (hrest : rest.takeWhile isSpace = []) :
    spaces (' ' :: rest) = some ((), rest) :=
  spaces_append [' '] (by simp [IsGap, isSpace]) hrest

/-- A semicolon ends the statement and the line. -/
theorem endOfStatement_semicolon : endOfStatement [';'] = some ((), []) := rfl

/-- A break is a gap in which one of certain marks may stand. -/
inductive IsBreak (marks : List Char) : List Char → Prop
  | gap {gap : List Char} (hgap : IsGap gap) : IsBreak marks gap
  | mark {gap gap' : List Char} {c : Char} (hgap : IsGap gap) (hc : c ∈ marks)
      (hgap' : IsGap gap') : IsBreak marks (gap ++ c :: gap')

theorem IsBreak.mem {marks text : List Char} (h : IsBreak marks text) {c : Char} (hc : c ∈ text) :
    isSpace c = true ∨ c ∈ marks := by
  cases h with
  | gap hgap => exact .inl (hgap c hc)
  | mark hgap hmark hgap' =>
    rcases List.mem_append.mp hc with hc | hc
    · exact .inl (hgap c hc)
    · rcases List.mem_cons.mp hc with rfl | hc
      · exact .inr hmark
      · exact .inl (hgap' c hc)

/-- A break is read as spaces around an optional mark, and all of it is read when the text behind it
starts with neither. -/
theorem exists_spaces_optional_iff {α : Type} {r : Reader α} {marks : List Char}
    (hr : ∀ cs rest, (∃ a, r cs = some (a, rest)) ↔ ∃ c ∈ marks, cs = c :: rest)
    (hmarks : ∀ c ∈ marks, isSpace c = false)
    (hrest : ∀ c ∈ rest.head?, isSpace c = false ∧ c ∉ marks) :
    (∃ mid o mid', spaces cs = some ((), mid) ∧ Reader.optional r mid = some (o, mid') ∧
        spaces mid' = some ((), rest)) ↔
      ∃ text, IsBreak marks text ∧ cs = text ++ rest := by
  have hstop : rest.takeWhile isSpace = [] := takeWhile_eq_nil_of_head? fun c hc => (hrest c hc).1
  constructor
  · rintro ⟨mid, o, mid', hspaces, hoption, hspaces'⟩
    obtain ⟨gap, rfl, hgap, -⟩ := spaces_eq_some.mp hspaces
    obtain ⟨gap', rfl, hgap', -⟩ := spaces_eq_some.mp hspaces'
    rcases optional_eq_some.mp hoption with ⟨a, -, ha⟩ | ⟨-, rfl, -⟩
    · obtain ⟨c, hc, rfl⟩ := (hr _ _).mp ⟨a, ha⟩
      exact ⟨gap ++ c :: gap', .mark hgap hc hgap', by simp⟩
    · exact ⟨gap ++ gap', .gap (IsGap.append hgap hgap'), by simp⟩
  · rintro ⟨text, htext, rfl⟩
    cases htext with
    | gap hgap =>
      have hnone : r rest = none := by
        rw [Option.eq_none_iff_forall_ne_some]
        rintro ⟨a, rest'⟩ ha
        obtain ⟨c, hc, rfl⟩ := (hr _ _).mp ⟨a, ha⟩
        exact (hrest c rfl).2 hc
      exact ⟨rest, none, rest, spaces_append _ hgap hstop, optional_of_none hnone,
        spaces_of_none hstop⟩
    | @mark gap gap' c hgap hc hgap' =>
      obtain ⟨a, ha⟩ := (hr (c :: (gap' ++ rest)) _).mpr ⟨c, hc, rfl⟩
      rw [List.append_assoc, List.cons_append]
      exact ⟨c :: (gap' ++ rest), some a, gap' ++ rest,
        spaces_append gap hgap (List.takeWhile_cons_of_neg (by simp [hmarks c hc])),
        optional_of_some ha, spaces_append gap' hgap' hstop⟩

/-- What may end a statement is a break in which a semicolon may stand. -/
theorem endOfStatement_eq_some {u : Unit}
    (hrest : ∀ c ∈ rest.head?, isSpace c = false ∧ c ≠ ';') :
    endOfStatement cs = some (u, rest) ↔ ∃ text, IsBreak [';'] text ∧ cs = text ++ rest := by
  have hsemicolon (cs rest : List Char) :
      (∃ a, Reader.literal ";" cs = some (a, rest)) ↔ ∃ c ∈ [';'], cs = c :: rest := by
    simp [literal_eq_some]
  rw [← exists_spaces_optional_iff hsemicolon (by simp [isSpace]) (by simpa using hrest)]
  simp only [endOfStatement, bind_eq_some]
  constructor
  · rintro ⟨⟨⟩, mid, h₁, o, mid', h₂, h₃⟩
    exact ⟨mid, o, mid', h₁, h₂, h₃⟩
  · rintro ⟨mid, o, mid', h₁, h₂, h₃⟩
    exact ⟨(), mid, h₁, o, mid', h₂, h₃⟩

theorem endOfStatement_eq_some_nil : endOfStatement cs = some ((), []) ↔ IsBreak [';'] cs := by
  rw [endOfStatement_eq_some (by simp)]
  simp

/-! ### Labels between delimiters -/

/-- A text can stand before the delimiter `close` when it is not empty and does not hold it. -/
def IsEnclosed (close : Char) (t : String) : Prop :=
  t.toList ≠ [] ∧ close ∉ t.toList

instance (close : Char) (t : String) : Decidable (IsEnclosed close t) :=
  inferInstanceAs (Decidable (_ ∧ _))

theorem IsWord.isEnclosed {w : String} (h : IsWord w) {close : Char}
    (hclose : isWordChar close = false) : IsEnclosed close w :=
  ⟨h.ne_nil, h.notMem hclose⟩

theorem enclosed_eq_some {opening close : Char} {t : String} :
    enclosed opening close cs = some (t, rest) ↔
      IsEnclosed close t ∧ cs = opening :: (t.toList ++ close :: rest) := by
  simp only [enclosed, bind_eq_some, literal_eq_some, span1_eq_some, pure_eq_some,
    String.toList_singleton, List.singleton_append, IsEnclosed]
  constructor
  · rintro ⟨-, _, rfl, _, _, ⟨hne, rfl, ht, -⟩, -, _, rfl, rfl, rfl⟩
    refine ⟨⟨hne, fun hmem => ?_⟩, rfl⟩
    simpa using ht close hmem
  · rintro ⟨⟨hne, hclose⟩, rfl⟩
    refine ⟨(), _, rfl, t, close :: rest, ⟨hne, rfl, fun c hc => ?_, ?_⟩, (), rest, rfl, rfl, rfl⟩
    · rw [bne_iff_ne]
      rintro rfl
      exact hclose hc
    · exact List.takeWhile_cons_of_neg (by simp)

theorem enclosed_append {opening close : Char} {t : String} (ht : IsEnclosed close t) :
    enclosed opening close (opening :: (t.toList ++ close :: rest)) = some (t, rest) :=
  enclosed_eq_some.mpr ⟨ht, rfl⟩

theorem enclosed_eq_none {opening close : Char} (h : cs.head? ≠ some opening) :
    enclosed opening close cs = none := by
  cases hr : enclosed opening close cs with
  | none => rfl
  | some found =>
    obtain ⟨t, rest⟩ := found
    rw [enclosed_eq_some] at hr
    exact absurd (hr.2 ▸ rfl) h

/-! ### Labels behind a colon -/

/-- A text as a label, where the empty one counts as none. -/
def labelOfText (cs : List Char) : Option String :=
  if cs.isEmpty then none else some (String.ofList cs)

/-- A text can be the label behind a colon of a trimmed line when it is not empty, does not start
with a space and does not end in a blank. -/
def IsColonLabel (t : String) : Prop :=
  t.toList ≠ [] ∧ t.toList.takeWhile isSpace = [] ∧ t.toList.reverse.takeWhile isBlank = []

theorem labelOfText_eq_some {t : String} : labelOfText cs = some t ↔ cs ≠ [] ∧ t.toList = cs := by
  rw [labelOfText]
  split_ifs with h
  · exact iff_of_false nofun fun hne => hne.1 (List.isEmpty_iff.mp h)
  · rw [Option.some.injEq, ← String.toList_inj, String.toList_ofList, eq_comm]
    exact ⟨fun heq => ⟨fun hnil => h (List.isEmpty_iff.mpr hnil), heq⟩, fun heq => heq.2⟩

/-- Spaces in front of a text are skipped up to the first other character. -/
theorem spaces_dropWhile (cs : List Char) : spaces cs = some ((), cs.dropWhile isSpace) := by
  rw [spaces_eq_some]
  exact ⟨cs.takeWhile isSpace, takeWhile_eq_and_dropWhile_eq.mp ⟨rfl, rfl⟩⟩

/-- A label behind a colon is all that follows but the spaces at its start. Spaces may stand before
the colon. -/
theorem colonLabel_eq_some {o : Option String} :
    colonLabel cs = some (o, rest) ↔
      ∃ gap tail : List Char, cs = gap ++ ':' :: tail ∧ IsGap gap ∧
        o = labelOfText (tail.dropWhile isSpace) ∧ rest = [] := by
  have hlabel (tail : List Char) :
      (do
        spaces
        let text ← Reader.remainder
        return if text.isEmpty then none else some text : Reader (Option String)) tail =
          some (labelOfText (tail.dropWhile isSpace), []) := by
    have hremainder : remainder (tail.dropWhile isSpace) =
        some (String.ofList (tail.dropWhile isSpace), []) := rfl
    have hempty : (String.ofList (tail.dropWhile isSpace)).isEmpty =
        (tail.dropWhile isSpace).isEmpty := by
      rw [Bool.eq_iff_iff, String.isEmpty_iff, List.isEmpty_iff, String.ofList_eq_empty_iff]
    rw [bind_of_some (spaces_dropWhile tail), bind_of_some hremainder, hempty]
    rfl
  rw [colonLabel, bind_eq_some]
  constructor
  · rintro ⟨_, mid, hspaces, hmid⟩
    obtain ⟨gap, hcs, hgap, -⟩ := spaces_eq_some.mp hspaces
    obtain ⟨_, tail, hcolon, htail⟩ := bind_eq_some.mp hmid
    obtain ⟨rfl, rfl⟩ := Prod.mk.inj (Option.some.inj ((hlabel tail).symm.trans htail))
    rw [literal_eq_some.mp hcolon] at hcs
    exact ⟨gap, tail, hcs, hgap, rfl, rfl⟩
  · rintro ⟨gap, tail, rfl, hgap, rfl, rfl⟩
    refine ⟨(), ':' :: tail, spaces_append gap hgap rfl, ?_⟩
    rw [bind_of_some (literal_cons (by decide) _), hlabel]

theorem colonLabel_append (tail : List Char) :
    colonLabel (':' :: tail) = some (labelOfText (tail.dropWhile isSpace), []) :=
  colonLabel_eq_some.mpr ⟨[], tail, rfl, nofun, rfl, rfl⟩

/-! ### What the lexemes promise -/

namespace Reader.Ensures

variable {line : List Char}

theorem word : Ensures line BoxArrow.word IsWord :=
  (span1 _).mono fun _ hw => ⟨hw.1, fun c hc => (hw.2 c hc).1⟩

theorem spaces : Ensures line BoxArrow.spaces fun _ => True :=
  (span _).bind fun _ _ => .pure trivial

theorem enclosed (opening close : Char) :
    Ensures line (BoxArrow.enclosed opening close) fun t =>
      IsEnclosed close t ∧ ∀ c ∈ t.toList, c ∈ line := by
  refine (literal _).bind fun _ _ => (span1 _).bind fun t ht => (literal _).bind fun _ _ => ?_
  refine .pure ⟨⟨ht.1, fun hmem => ?_⟩, fun c hc => (ht.2 c hc).2⟩
  simpa using (ht.2 close hmem).1

theorem endOfStatement : Ensures line BoxArrow.endOfStatement fun _ => True :=
  spaces.bind fun _ _ => (literal _).optional.bind fun _ _ => spaces

theorem colonLabel :
    Ensures line BoxArrow.colonLabel fun o => ∀ x ∈ o,
      x.toList ≠ [] ∧ x.toList.takeWhile isSpace = [] ∧ x.toList <:+ line := by
  intro cs hcs o rest h
  obtain ⟨gap, tail, rfl, -, rfl, rfl⟩ := colonLabel_eq_some.mp h
  refine ⟨fun x hx => ?_, List.nil_suffix⟩
  obtain ⟨hne, hx⟩ := labelOfText_eq_some.mp hx
  have htail : tail.dropWhile isSpace <:+ gap ++ ':' :: tail :=
    (List.dropWhile_suffix _).trans ((List.suffix_cons _ _).trans (List.suffix_append _ _))
  rw [hx]
  exact ⟨hne, (takeWhile_eq_and_dropWhile_eq.mp ⟨rfl, rfl⟩).2.2, htail.trans hcs⟩

end Reader.Ensures

end BoxArrow
