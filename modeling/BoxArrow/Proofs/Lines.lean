import BoxArrow.Text.Blank
import BoxArrow.Proofs.Reading

/-!
# Lines that were written and lines that are read

A text is read line by line, and of a line only what stands between its outer blanks counts. This
file says what is read of a text that was put together from lines, what the first word of a line is,
and that trimming takes off blanks at the two ends only.

## Main results

* `BoxArrow.lines_unlines`, `BoxArrow.lines_unlines_append` — the lines of a text that was written
  line by line, and of one that was written text by text.
* `BoxArrow.not_mem_of_mem_lines` — no line holds a line feed.
* `BoxArrow.mem_of_mem_lines`, `BoxArrow.length_lines_le` — lines are pieces of their text.
* `BoxArrow.trim_indented` — indented lines.
* `BoxArrow.trimEnd_append`, `BoxArrow.takeWhile_reverse_trim` — the end of a trimmed text.
* `BoxArrow.firstWord_append_of_blank`, `BoxArrow.prefix_firstWord` — first words.
-/

namespace BoxArrow

variable {cs rest w : List Char}

/-! ### Line feeds -/

theorem lines_cons (c : Char) (cs : List Char) :
    lines (c :: cs) =
      if c == '\n' then [] :: lines cs else (lines cs).modifyHead (c :: ·) :=
  List.splitOn_cons_eq_if_modifyHead ..

/-- A text with one character more has an empty line more, or the character on its first line. -/
theorem mem_lines_cons {c : Char} {line : List Char} (h : line ∈ lines (c :: cs)) :
    line ∈ lines cs ∨ line = [] ∨ c ≠ '\n' ∧ ∃ first ∈ lines cs, line = c :: first := by
  obtain ⟨first, others, hcs⟩ := List.exists_cons_of_ne_nil (List.splitOn_ne_nil '\n' cs)
  have hlines : lines cs = first :: others := hcs
  rw [lines_cons, hlines] at h
  rw [hlines]
  split_ifs at h with hc
  · rcases List.mem_cons.mp h with rfl | h
    · exact .inr (.inl rfl)
    · exact .inl h
  · rcases List.mem_cons.mp h with rfl | h
    · exact .inr (.inr ⟨fun heq => hc (beq_iff_eq.mpr heq), first, List.mem_cons_self, rfl⟩)
    · exact .inl (List.mem_cons_of_mem _ h)

theorem not_mem_of_mem_lines {line : List Char} (h : line ∈ lines cs) : '\n' ∉ line := by
  induction cs generalizing line with
  | nil =>
    obtain rfl : line = [] := by simpa [lines] using h
    exact List.not_mem_nil
  | cons c cs ih =>
    rcases mem_lines_cons h with h | rfl | ⟨hc, first, hfirst, rfl⟩
    · exact ih h
    · exact List.not_mem_nil
    · exact List.not_mem_cons_of_ne_of_not_mem hc.symm (ih hfirst)

/-- What stands on a line stands in the text. -/
theorem mem_of_mem_lines {line : List Char} (h : line ∈ lines cs) {c : Char} (hc : c ∈ line) :
    c ∈ cs := by
  induction cs generalizing line with
  | nil =>
    obtain rfl : line = [] := by simpa [lines] using h
    exact hc
  | cons d cs ih =>
    rcases mem_lines_cons h with h | rfl | ⟨-, first, hfirst, rfl⟩
    · exact List.mem_cons_of_mem _ (ih h hc)
    · exact absurd hc List.not_mem_nil
    · rcases List.mem_cons.mp hc with rfl | hc
      · exact List.mem_cons_self
      · exact List.mem_cons_of_mem _ (ih hfirst hc)

/-- There is at most one line more than there are characters. -/
theorem length_lines_le (cs : List Char) : (lines cs).length ≤ cs.length + 1 := by
  induction cs with
  | nil => simp [lines]
  | cons c cs ih =>
    rw [lines_cons]
    split_ifs
    · exact Nat.succ_le_succ ih
    · rw [List.length_modifyHead, List.length_cons]
      omega

theorem lines_of_newline_notMem (h : '\n' ∉ cs) : lines cs = [cs] :=
  List.splitOn_eq_singleton h

/-- A text written text by text is read in the lines of each, whatever follows it. -/
theorem lines_unlines_append (ls : List String) (tail : List Char) :
    lines ((unlines ls).toList ++ tail) = (ls.flatMap fun l => lines l.toList) ++ lines tail := by
  induction ls with
  | nil => rfl
  | cons l ls ih =>
    have hcons : (unlines (l :: ls)).toList = l.toList ++ '\n' :: (unlines ls).toList := by
      simp [unlines, String.toList_join]
    rw [hcons, List.append_assoc, List.cons_append, lines, List.splitOn_append_cons_self,
      List.flatMap_cons, List.append_assoc, ← ih, lines, lines]

/-- A text written line by line is read in these lines, whatever follows it. -/
theorem lines_unlines (ls : List String) (tail : List Char) (h : ∀ l ∈ ls, '\n' ∉ l.toList) :
    lines ((unlines ls).toList ++ tail) = ls.map String.toList ++ lines tail := by
  have hlines : (ls.flatMap fun l => lines l.toList) = ls.flatMap fun l => [l.toList] :=
    List.flatMap_congr fun l hl => lines_of_newline_notMem (h l hl)
  rw [lines_unlines_append, hlines, List.map_eq_flatMap]

/-! ### Outer blanks -/

/-- A text does not start with a class when its first part is not empty and outside of it. -/
theorem takeWhile_append_eq_nil {p : Char → Bool} (hne : w ≠ []) (hw : ∀ c ∈ w, p c = false) :
    (w ++ rest).takeWhile p = [] := by
  cases w with
  | nil => exact absurd rfl hne
  | cons c w => rw [List.cons_append, List.takeWhile_cons_of_neg (by simp [hw c])]

/-- A text does not start with a class when its first character is outside of it. -/
theorem takeWhile_eq_nil_of_head? {p : Char → Bool} (h : ∀ c ∈ cs.head?, p c = false) :
    cs.takeWhile p = [] := by
  cases cs with
  | nil => rfl
  | cons c cs => exact List.takeWhile_cons_of_neg (by simp [h c rfl])

theorem dropWhile_eq_self {p : Char → Bool} (h : cs.takeWhile p = []) : cs.dropWhile p = cs := by
  simpa only [h, List.nil_append] using List.takeWhile_append_dropWhile (p := p) (l := cs)

theorem trimStart_eq_self (h : cs.takeWhile isBlank = []) : trimStart cs = cs :=
  dropWhile_eq_self h

theorem trimEnd_eq_self (h : cs.reverse.takeWhile isBlank = []) : trimEnd cs = cs := by
  rw [trimEnd, dropWhile_eq_self h, List.reverse_reverse]

/-- Trimming the end of a text does not reach beyond a part that ends in no blank. -/
theorem trimEnd_append (h : w.reverse.takeWhile isBlank = []) :
    trimEnd (w ++ rest) = w ++ trimEnd rest := by
  rw [trimEnd, List.reverse_append, List.dropWhile_append, dropWhile_eq_self h]
  split_ifs with hrest
  · rw [trimEnd, List.isEmpty_iff.mp hrest, List.reverse_reverse, List.reverse_nil, List.append_nil]
  · rw [List.reverse_append, List.reverse_reverse, trimEnd]

/-- What is left after trimming ends in no blank. -/
theorem takeWhile_reverse_trimEnd (cs : List Char) :
    (trimEnd cs).reverse.takeWhile isBlank = [] := by
  rw [trimEnd, List.reverse_reverse]
  exact (Reader.takeWhile_eq_and_dropWhile_eq.mp ⟨rfl, rfl⟩).2.2

theorem takeWhile_reverse_trim (cs : List Char) : (trim cs).reverse.takeWhile isBlank = [] :=
  takeWhile_reverse_trimEnd (trimStart cs)

/-- A text that ends in no blank ends in none when its beginning is left out. -/
theorem takeWhile_reverse_of_suffix (h : cs.reverse.takeWhile isBlank = []) (hw : w <:+ cs) :
    w.reverse.takeWhile isBlank = [] := by
  obtain ⟨gone, rfl⟩ := hw
  rw [List.reverse_append] at h
  cases hw : w.reverse with
  | nil => rfl
  | cons c l =>
    rw [hw, List.cons_append, List.takeWhile_eq_nil_iff] at h
    exact List.takeWhile_cons_of_neg (h (Nat.zero_lt_succ _))

/-- Two spaces in front of a line that has no blanks at its ends are taken off. -/
theorem trim_indented (hstart : cs.takeWhile isBlank = [])
    (hend : cs.reverse.takeWhile isBlank = []) : trim (' ' :: ' ' :: cs) = cs := by
  have hindent : trimStart (' ' :: ' ' :: cs) = trimStart cs := rfl
  rw [trim, hindent, trimStart_eq_self hstart, trimEnd_eq_self hend]

theorem mem_of_mem_trim {c : Char} (h : c ∈ trim cs) : c ∈ cs := by
  rw [trim, trimEnd, List.mem_reverse] at h
  have hstart := (List.dropWhile_sublist _).subset h
  rw [List.mem_reverse] at hstart
  exact (List.dropWhile_sublist _).subset hstart

/-- Nothing is left of blanks alone. -/
theorem trim_eq_nil : trim cs = [] ↔ ∀ c ∈ cs, isBlank c = true := by
  rw [trim, trimEnd, trimStart, List.reverse_eq_nil_iff, List.dropWhile_eq_nil_iff]
  simp only [List.mem_reverse]
  constructor
  · intro h c hc
    rw [← List.takeWhile_append_dropWhile (p := isBlank) (l := cs)] at hc
    rcases List.mem_append.mp hc with hc | hc
    · exact List.mem_takeWhile_imp hc
    · exact h c hc
  · exact fun h c hc => h c ((List.dropWhile_sublist _).subset hc)

/-! ### First words -/

theorem firstWord_eq_takeWhile (h : cs.takeWhile isBlank = []) :
    firstWord cs = cs.takeWhile fun c => !isBlank c := by
  rw [firstWord, trimStart_eq_self h]

/-- Text without blanks that a blank follows is the first word. -/
theorem firstWord_append_of_blank (hne : w ≠ []) (hw : ∀ c ∈ w, isBlank c = false) {c : Char}
    (hc : isBlank c = true) : firstWord (w ++ c :: rest) = w := by
  rw [firstWord_eq_takeWhile (takeWhile_append_eq_nil hne hw),
    List.takeWhile_append_of_pos fun c hc => by simp [hw c hc],
    List.takeWhile_cons_of_neg (by simp [hc]), List.append_nil]

/-- Text without blanks at the start of a line is the start of its first word. -/
theorem prefix_firstWord (hne : w ≠ []) (hw : ∀ c ∈ w, isBlank c = false) :
    w <+: firstWord (w ++ rest) := by
  rw [firstWord_eq_takeWhile (takeWhile_append_eq_nil hne hw),
    List.takeWhile_append_of_pos fun c hc => by simp [hw c hc]]
  exact List.prefix_append _ _

end BoxArrow
