import BoxArrow.Proofs.ArrowsAlone
import BoxArrow.Proofs.TextLayout

/-!
# Messages between nodes that are called anything

A sequence diagram names nodes by their labels, which may be any text, while the reader of a message
wants words. A message between other names is passed over, unless the names happen to read as
something else, and there are exactly two ways for that.

The written arrow may be the arrow of the message. Blanks in front of the first name go with the
indentation, and spaces behind it belong to the arrow. What is behind the arrow may have spaces in
front, and goes on behind its first word with a semicolon, with a colon, or with blanks at the end of
the line. Or the first name is a message itself, with a colon, and all that is written behind it is
the label of this message.

A name with no blanks at its ends and with neither a colon nor a semicolon takes part in none of
this. Among such names only words are read.

## Main definitions

* `BoxArrow.PlantUml.message?` — the arrow that is read of the line of an edge.
* `BoxArrow.PlantUml.IsMessage` — the arrows that the line of an edge may be read as.
* `BoxArrow.PlantUml.IsPlain` — the names that are read as they are or not at all.

## Main results

* `BoxArrow.PlantUml.isArrowLine_trim_iff` — how names that are any text can be read.
* `BoxArrow.PlantUml.IsMessage.names_eq` — what is read between plain names.
* `BoxArrow.PlantUml.parse_generate_eq_messages` — what comes back of a graph with any labels.
-/

namespace BoxArrow

open Reader

variable {cs rest before after w : List Char} {c : Char}

/-! ### Texts cut at a mark -/

/-- A part in front without the mark is in front of the mark. -/
theorem append_eq_append_cons (h : w ++ rest = before ++ c :: after) (hw : c ∉ w) :
    ∃ mid, before = w ++ mid ∧ rest = mid ++ c :: after := by
  rcases List.append_eq_append_iff.mp h with ⟨mid, hbefore, hrest⟩ | ⟨mid, rfl, hafter⟩
  · exact ⟨mid, hbefore, hrest⟩
  · cases mid with
    | nil => exact ⟨[], by simp, by simpa using hafter.symm⟩
    | cons d mid =>
      obtain ⟨rfl, -⟩ := List.cons.inj hafter
      exact absurd (List.mem_append_right _ List.mem_cons_self) hw

/-- Two texts that end in one character are equal without it. -/
theorem append_singleton_inj {d : Char} (h : before ++ [c] = after ++ [d]) :
    before = after ∧ c = d := by
  obtain ⟨hinit, hlast⟩ := List.append_inj' h rfl
  exact ⟨hinit, List.singleton_inj.mp hlast⟩

theorem trimEnd_cons_of_ne (h : trimEnd cs ≠ []) : trimEnd (c :: cs) = c :: trimEnd cs := by
  have hne : cs.reverse.dropWhile isBlank ≠ [] := fun hnil => h (by rw [trimEnd, hnil]; rfl)
  rw [trimEnd, List.reverse_cons, List.dropWhile_append, if_neg (by rwa [List.isEmpty_iff]),
    List.reverse_append]
  rfl

theorem trimEnd_cons_of_nil (hc : isBlank c = true) (h : trimEnd cs = []) :
    trimEnd (c :: cs) = [] := by
  have hnil : cs.reverse.dropWhile isBlank = [] := List.reverse_eq_nil_iff.mp h
  rw [trimEnd, List.reverse_cons, List.dropWhile_append, hnil, List.isEmpty_nil, if_pos rfl,
    List.dropWhile_cons_of_pos hc]
  rfl

/-- A gap at an end where there is no blank is empty. -/
theorem IsGap.eq_nil {gap : List Char} (hgap : IsGap gap) (hend : gap.takeWhile isBlank = []) :
    gap = [] := by
  cases gap with
  | nil => rfl
  | cons c gap =>
    have hblank : isBlank c = true := isBlank_of_isSpace (hgap c List.mem_cons_self)
    rw [List.takeWhile_cons_of_pos hblank] at hend
    exact absurd hend (List.cons_ne_nil _ _)

/-- A text with no blank at its ends is what it has between gaps. -/
theorem eq_of_gaps {b gap gap' : List Char} (hgap : IsGap gap)
    (hgap' : IsGap gap') (hcs : cs = gap ++ (b ++ gap'))
    (hstart : cs.takeWhile isBlank = []) (hend : cs.reverse.takeWhile isBlank = []) :
    cs = b := by
  have hleft : gap.takeWhile isBlank = [] := by
    rw [hcs] at hstart
    cases gap with
    | nil => rfl
    | cons c gap =>
      rw [List.cons_append, List.takeWhile_cons_of_pos
        (isBlank_of_isSpace (hgap c List.mem_cons_self))] at hstart
      exact absurd hstart (List.cons_ne_nil _ _)
  have hright : gap'.reverse.takeWhile isBlank = [] :=
    takeWhile_reverse_of_suffix hend ⟨gap ++ b, by rw [hcs, List.append_assoc]⟩
  obtain rfl := hgap.eq_nil hleft
  have hnil : gap'.reverse = [] := IsGap.eq_nil (fun c hc => hgap' c (List.mem_reverse.mp hc)) hright
  rw [hcs, List.reverse_eq_nil_iff.mp hnil, List.nil_append, List.append_nil]

namespace PlantUml

variable {g : Graph} {e : Edge} {source target : String} {label : Option String} {s : Statement}
  {a : Arrow}

/-! ### Lines of messages -/

/-- What is in front of an arrow is not trimmed at the end of the line. -/
theorem trimEnd_append_arrow (front rest : List Char) :
    trimEnd (front ++ ' ' :: ("->".toList ++ rest)) =
      front ++ ' ' :: ("->".toList ++ trimEnd rest) := by
  have hend : (front ++ ' ' :: "->".toList).reverse.takeWhile isBlank = [] := by
    rw [List.reverse_append]
    rfl
  have hsplit (more : List Char) : front ++ ' ' :: ("->".toList ++ more) =
      (front ++ ' ' :: "->".toList) ++ more := by
    rw [List.append_assoc, List.cons_append]
  rw [hsplit, hsplit]
  exact trimEnd_append hend

/-- A message once its line is trimmed, with a first name that is not blank. -/
theorem trim_arrowLine_of_ne (h : trimStart source.toList ≠ []) :
    trim (arrowLine source target label) =
      trimStart source.toList ++ ' ' ::
        ("->".toList ++ trimEnd (' ' :: (target.toList ++ colonEnding label))) := by
  have hstart : trimStart (arrowLine source target label) =
      trimStart source.toList ++ ' ' ::
        ("->".toList ++ ' ' :: (target.toList ++ colonEnding label)) := by
    rw [arrowLine, trimStart, List.dropWhile_append, if_neg (by rwa [List.isEmpty_iff])]
    rfl
  rw [trim, hstart, trimEnd_append_arrow]

/-- With a first name that is blank the line begins with its arrow. -/
theorem head?_trim_arrowLine_of_eq (h : trimStart source.toList = []) :
    (trim (arrowLine source target label)).head? = some '-' := by
  have hstart : trimStart (arrowLine source target label) =
      "->".toList ++ ' ' :: (target.toList ++ colonEnding label) := by
    rw [arrowLine, trimStart_append_of_blank (List.dropWhile_eq_nil_iff.mp h)]
    rfl
  have hend : "->".toList.reverse.takeWhile isBlank = [] := by decide
  rw [trim, hstart, trimEnd_append hend]
  rfl

/-- The arrows that a message between two names may be read as. The written arrow stands between the
words that are read, or the first name is a message with a colon itself. -/
inductive IsMessage (source target : String) (label : Option String) : Arrow → Prop
  | between {a b : String} {gap gap' tail : List Char} {o : Option String} (ha : IsWord a)
      (hgap : IsGap gap) (hsource : trimStart source.toList = a.toList ++ gap) (hgap' : IsGap gap')
      (hb : IsWordBefore b tail) (htail : IsColonTail tail o)
      (htarget : trimEnd (target.toList ++ colonEnding label) = gap' ++ (b.toList ++ tail)) :
      IsMessage source target label ⟨a, b, o⟩
  | within {a b arrow : String} {gap gap' gap'' text : List Char} (ha : IsWord a) (hgap : IsGap gap)
      (harrow : arrow ∈ ["->", "-->"]) (hgap' : IsGap gap') (hb : IsWord b) (hgap'' : IsGap gap'')
      (hsource : trimStart source.toList = a.toList ++ (gap ++ (arrow.toList ++
        (gap' ++ (b.toList ++ (gap'' ++ ':' :: text)))))) :
      IsMessage source target label ⟨a, b, labelOfText ((trimEnd (text ++ ' ' :: ("->".toList ++
        ' ' :: (target.toList ++ colonEnding label)))).dropWhile isSpace)⟩

/-- What is behind the written arrow, where that is the arrow of the message. -/
theorem IsMessage.of_between {a b arrow : String} {gap gap' tail : List Char} {o : Option String}
    (ha : IsWord a) (hgap : IsGap gap) (harrow : arrow ∈ ["->", "-->"]) (hgap' : IsGap gap')
    (hb : IsWordBefore b tail) (htail : IsColonTail tail o)
    (hfront : trimStart source.toList ++ [' '] = a.toList ++ gap)
    (hback : arrow.toList ++ (gap' ++ (b.toList ++ tail)) =
      "->".toList ++ trimEnd (' ' :: (target.toList ++ colonEnding label))) :
    IsMessage source target label ⟨a, b, o⟩ := by
  rcases gap.eq_nil_or_concat' with rfl | ⟨gap, c, rfl⟩
  · -- the space before the arrow is in no word
    have hspace : ' ' ∈ a.toList := by
      rw [List.append_nil] at hfront
      exact hfront ▸ List.mem_append_right _ List.mem_cons_self
    exact absurd hspace (ha.notMem rfl)
  rw [← List.append_assoc] at hfront
  obtain ⟨hsource, -⟩ := append_singleton_inj hfront
  have hrest : gap' ++ (b.toList ++ tail) =
      trimEnd (' ' :: (target.toList ++ colonEnding label)) := by
    rcases List.mem_pair.mp harrow with rfl | rfl
    · exact List.append_cancel_left hback
    · exact absurd hback (by simp)
  by_cases hnil : trimEnd (target.toList ++ colonEnding label) = []
  · rw [trimEnd_cons_of_nil rfl hnil] at hrest
    exact absurd hrest (by simp [hb.1.ne_nil])
  rw [trimEnd_cons_of_ne hnil] at hrest
  cases gap' with
  | nil =>
    exact absurd (congrArg List.head? hrest) (hb.1.head?_append_ne rfl)
  | cons d gap' =>
    obtain ⟨rfl, htarget⟩ := List.cons.inj hrest
    exact .between ha (List.forall_mem_append.mp hgap).1 hsource (List.forall_mem_cons.mp hgap').2
      hb htail htarget.symm

/-- What is in front of the written arrow, where another one is the arrow of the message. -/
theorem IsMessage.of_within {a b arrow : String} {gap gap' tail mid : List Char}
    {o : Option String} (ha : IsWord a) (hgap : IsGap gap) (harrow : arrow ∈ ["->", "-->"])
    (hgap' : IsGap gap') (hb : IsWordBefore b tail) (htail : IsColonTail tail o)
    (hfront : trimStart source.toList = (a.toList ++ gap) ++ mid)
    (hback : arrow.toList ++ (gap' ++ (b.toList ++ tail)) =
      mid ++ ' ' :: ("->".toList ++ trimEnd (' ' :: (target.toList ++ colonEnding label)))) :
    IsMessage source target label ⟨a, b, o⟩ := by
  have hspace : ' ' ∉ arrow.toList := by
    rcases List.mem_pair.mp harrow with rfl | rfl <;> decide
  have hhyphen : '-' ∉ gap' ++ b.toList := by
    rw [List.mem_append]
    exact not_or.mpr ⟨hgap'.notMem rfl, hb.1.notMem rfl⟩
  obtain ⟨mid, rfl, hrest⟩ := append_eq_append_cons hback hspace
  cases htail with
  | plain htext =>
    -- the hyphen of the written arrow would end the statement
    have hmem : '-' ∈ gap' ++ (b.toList ++ tail) := by
      rw [hrest]
      simp
    rw [← List.append_assoc, List.mem_append, or_iff_right hhyphen] at hmem
    exact absurd (htext.mem hmem) (by decide)
  | @label gap'' text hgap'' =>
    have hsplit : (gap' ++ (b.toList ++ (gap'' ++ [':']))) ++ text =
        (mid ++ [' ']) ++ '-' :: ('>' :: trimEnd (' ' :: (target.toList ++ colonEnding label))) := by
      simpa using hrest
    have hmark : '-' ∉ gap' ++ (b.toList ++ (gap'' ++ [':'])) := by
      have htail : '-' ∉ gap'' ++ [':'] := by
        rw [List.mem_append]
        exact not_or.mpr ⟨hgap''.notMem rfl, by decide⟩
      rw [← List.append_assoc, List.mem_append]
      exact not_or.mpr ⟨hhyphen, htail⟩
    obtain ⟨text', hmid, rfl⟩ := append_eq_append_cons hsplit hmark
    rcases text'.eq_nil_or_concat' with rfl | ⟨text', c, rfl⟩
    · have hends : mid ++ [' '] = (gap' ++ (b.toList ++ gap'')) ++ [':'] := by simpa using hmid
      exact absurd (append_singleton_inj hends).2 (by decide)
    · rw [← List.append_assoc] at hmid
      obtain ⟨rfl, rfl⟩ := append_singleton_inj hmid
      have hlabel : (text' ++ [' ']) ++
          '-' :: '>' :: trimEnd (' ' :: (target.toList ++ colonEnding label)) =
            trimEnd (text' ++ ' ' :: ("->".toList ++
              ' ' :: (target.toList ++ colonEnding label))) := by
        rw [trimEnd_append_arrow]
        simp
      rw [hlabel]
      exact .within ha hgap harrow hgap' hb.1 hgap'' (by simpa using hfront)

/-- An arrow that the trimmed line is read as is one that the names allow. -/
theorem exists_isMessage_of_isArrowLine
    (h : IsArrowLine ["->", "-->"] (trim (arrowLine source target label)) s) :
    ∃ a, IsMessage source target label a ∧ s = a.statement := by
  generalize hline : trim (arrowLine source target label) = line at h
  cases h with
  | @intro a b arrow gap gap' tail o ha hgap harrow hgap' hb htail =>
    refine ⟨⟨a, b, o⟩, ?_, rfl⟩
    by_cases hblank : trimStart source.toList = []
    · have hhead : (trim (arrowLine source target label)).head? = some '-' :=
        head?_trim_arrowLine_of_eq hblank
      rw [hline] at hhead
      exact absurd hhead (ha.1.head?_append_ne rfl)
    rw [trim_arrowLine_of_ne hblank] at hline
    have hsplit : (a.toList ++ gap) ++ (arrow.toList ++ (gap' ++ (b.toList ++ tail))) =
        (trimStart source.toList ++ [' ']) ++
          '-' :: ('>' :: trimEnd (' ' :: (target.toList ++ colonEnding label))) := by
      simpa using hline.symm
    obtain ⟨mid, hfront, hback⟩ :=
      append_eq_append_cons hsplit (hyphen_notMem ha.1 hgap)
    rcases mid.eq_nil_or_concat' with rfl | ⟨mid, c, rfl⟩
    · rw [List.append_nil] at hfront
      exact .of_between ha.1 hgap harrow hgap' hb htail hfront hback
    · rw [← List.append_assoc] at hfront
      obtain ⟨hsource, rfl⟩ := append_singleton_inj hfront
      exact .of_within ha.1 hgap harrow hgap' hb htail hsource (by simpa using hback)

/-- The trimmed line is read as each arrow that the names allow. -/
theorem IsMessage.isArrowLine (h : IsMessage source target label a) :
    IsArrowLine ["->", "-->"] (trim (arrowLine source target label)) a.statement := by
  cases h with
  | @between a b gap gap' tail o ha hgap hsource hgap' hb htail htarget =>
    have hne : trimEnd (target.toList ++ colonEnding label) ≠ [] := by
      simp [htarget, hb.1.ne_nil]
    have hline : trim (arrowLine source target label) =
        a.toList ++ ((gap ++ [' ']) ++ ("->".toList ++
          ((' ' :: gap') ++ (b.toList ++ tail)))) := by
      rw [trim_arrowLine_of_ne (by simp [hsource, ha.ne_nil]), hsource, trimEnd_cons_of_ne hne,
        htarget]
      simp
    have hgaps : IsGap (gap ++ [' ']) := hgap.append (List.forall_mem_singleton.mpr rfl)
    rw [hline]
    exact .intro ⟨ha, takeWhile_gap_cons hgaps rfl⟩ hgaps List.mem_cons_self
      (List.forall_mem_cons.mpr ⟨rfl, hgap'⟩) hb htail
  | @within a b arrow gap gap' gap'' text ha hgap harrow hgap' hb hgap'' hsource =>
    have hline : trim (arrowLine source target label) =
        a.toList ++ (gap ++ (arrow.toList ++ (gap' ++ (b.toList ++ (gap'' ++
          ':' :: trimEnd (text ++ ' ' :: ("->".toList ++
            ' ' :: (target.toList ++ colonEnding label)))))))) := by
      rw [trim_arrowLine_of_ne (by simp [hsource, ha.ne_nil]), hsource, trimEnd_append_arrow]
      simp
    obtain ⟨more, hmore⟩ := exists_hyphen arrow harrow
    have hstop : (gap ++ (arrow.toList ++ (gap' ++ (b.toList ++ (gap'' ++ ':' :: trimEnd (text ++
        ' ' :: ("->".toList ++ ' ' :: (target.toList ++ colonEnding label)))))))).takeWhile
          isWordChar = [] := by
      rw [hmore]
      exact takeWhile_gap_cons hgap rfl
    rw [hline]
    exact .intro ⟨ha, hstop⟩ hgap harrow hgap' ⟨hb, takeWhile_gap_cons hgap'' rfl⟩ (.label hgap'')

/-- A trimmed message is a line of an arrow in the two ways that its names allow. -/
theorem isArrowLine_trim_iff :
    IsArrowLine ["->", "-->"] (trim (arrowLine source target label)) s ↔
      ∃ a, IsMessage source target label a ∧ s = a.statement := by
  constructor
  · exact exists_isMessage_of_isArrowLine
  · rintro ⟨a, h, rfl⟩
    exact h.isArrowLine

/-! ### Plain names -/

/-- A name is plain when it has no blank at its ends, and neither a colon nor a semicolon. -/
def IsPlain (name : String) : Prop :=
  name.toList.takeWhile isBlank = [] ∧ name.toList.reverse.takeWhile isBlank = [] ∧
    ':' ∉ name.toList ∧ ';' ∉ name.toList

instance (name : String) : Decidable (IsPlain name) := by
  unfold IsPlain
  infer_instance

/-- What follows a plain name leaves it alone, where it is a word once its gaps are taken off. -/
theorem IsMessage.target_eq {b : String} {gap tail : List Char} {o : Option String}
    (hplain : IsPlain target) (hgap : IsGap gap) (hb : IsWordBefore b tail)
    (htail : IsColonTail tail o)
    (htarget : trimEnd (target.toList ++ colonEnding label) = gap ++ (b.toList ++ tail)) :
    target.toList = b.toList := by
  obtain ⟨hstart, hend, hcolon, hsemicolon⟩ := hplain
  cases label with
  | none =>
    rw [colonEnding, List.append_nil, trimEnd_eq_self hend] at htarget
    cases htail with
    | label => exact absurd (htarget ▸ by simp) hcolon
    | plain htext =>
      cases htext with
      | gap hgap' => exact eq_of_gaps hgap hgap' htarget hstart hend
      | mark _ hmark =>
        obtain rfl := List.mem_singleton.mp hmark
        exact absurd (htarget ▸ by simp) hsemicolon
  | some x =>
    rw [trimEnd_append hend, trimEnd_colonEnding_some] at htarget
    cases htail with
    | plain htext =>
      have hmem : ':' ∈ gap ++ (b.toList ++ tail) := htarget ▸ by simp
      rw [List.mem_append, List.mem_append] at hmem
      rcases hmem with hmem | hmem | hmem
      · exact absurd hmem (hgap.notMem rfl)
      · exact absurd hmem (hb.1.notMem rfl)
      · exact absurd (htext.mem hmem) (by decide)
    | @label gap' text hgap' =>
      have hsplit : target.toList ++ ':' :: trimEnd (' ' :: x.toList) =
          (gap ++ (b.toList ++ gap')) ++ ':' :: text := by
        simpa using htarget
      obtain ⟨mid, hmid, hrest⟩ := append_eq_append_cons hsplit hcolon
      cases mid with
      | nil => exact eq_of_gaps hgap hgap' (by simpa using hmid.symm) hstart hend
      | cons c mid =>
        obtain ⟨rfl, -⟩ := List.cons.inj hrest
        have hmem : ':' ∈ gap ++ (b.toList ++ gap') := hmid ▸ by simp
        rw [List.mem_append, List.mem_append] at hmem
        rcases hmem with hmem | hmem | hmem
        · exact absurd hmem (hgap.notMem rfl)
        · exact absurd hmem (hb.1.notMem rfl)
        · exact absurd hmem (hgap'.notMem rfl)

/-- A message between plain names is read between these names, which are then words. -/
theorem IsMessage.names_eq (h : IsMessage source target label a) (hsource : IsPlain source)
    (htarget : IsPlain target) :
    a.source = source ∧ a.target = target ∧ IsWord source ∧ IsWord target := by
  cases h with
  | @between a b gap gap' tail o ha hgap hleft hgap' hb htail hright =>
    obtain ⟨hstart, hend, -, -⟩ := hsource
    rw [trimStart_eq_self hstart] at hleft
    have hnone : IsGap [] := nofun
    have hleft' := eq_of_gaps hnone hgap hleft hstart hend
    have hright' := IsMessage.target_eq htarget hgap' hb htail hright
    obtain rfl := String.toList_inj.mp hleft'
    obtain rfl := String.toList_inj.mp hright'
    exact ⟨rfl, rfl, ha, hb.1⟩
  | within _ _ _ _ _ _ hleft =>
    rw [trimStart_eq_self hsource.1] at hleft
    exact absurd (hleft ▸ by simp) hsource.2.2.1

/-! ### Whole diagrams -/

/-- The arrow that is read of the line of an edge. -/
def message? (g : Graph) (e : Edge) : Option Arrow :=
  (Engine.plantUml.dialect.readLine (edgeLine g e).toList).bind (·.arrow?)

/-- A line that begins with a word is no directive. -/
theorem isDirective_eq_false_of_isArrowLine {arrows : List String} {line : List Char}
    (h : IsArrowLine arrows line s) : line ≠ [] ∧ isDirective line = false := by
  cases h with
  | intro hsource =>
    obtain ⟨hword, -⟩ := hsource
    refine ⟨by simp [hword.ne_nil], ?_⟩
    rw [isDirective, Bool.or_eq_false_iff, ← Bool.not_eq_true, ← Bool.not_eq_true,
      List.isPrefixOf_iff_prefix, List.isPrefixOf_iff_prefix]
    exact ⟨hword.not_prefix (by decide), hword.not_prefix (by decide)⟩

/-- The line of an edge is read as the arrows that its names allow. -/
theorem readLine_edgeLine_eq_some :
    Engine.plantUml.dialect.readLine (edgeLine g e).toList = some s ↔
      ∃ a, IsMessage (displayName g e.source) (displayName g e.target) e.label a ∧
        s = a.statement := by
  rw [edgeLine_toList, Dialect.readLine, Dialect.readTrimmed_eq_some, ← isArrowLine_trim_iff]
  constructor
  · rintro ⟨-, -, hwhole⟩
    exact whole_eq_some_iff.mp hwhole
  · intro h
    obtain ⟨hne, hdirective⟩ := isDirective_eq_false_of_isArrowLine h
    exact ⟨hne, hdirective, whole_eq_some_iff.mpr h⟩

theorem message?_eq_some :
    message? g e = some a ↔
      IsMessage (displayName g e.source) (displayName g e.target) e.label a := by
  rw [message?, Option.bind_eq_some_iff]
  constructor
  · rintro ⟨s, hs, ha⟩
    obtain ⟨b, hb, rfl⟩ := readLine_edgeLine_eq_some.mp hs
    exact Option.some.inj ha ▸ hb
  · exact fun h => ⟨_, readLine_edgeLine_eq_some.mpr ⟨a, h, rfl⟩, rfl⟩

theorem readLine_edgeLine_eq_map (g : Graph) (e : Edge) :
    Engine.plantUml.dialect.readLine (edgeLine g e).toList = (message? g e).map (·.statement) := by
  ext s
  rw [readLine_edgeLine_eq_some, Option.map_eq_some_iff]
  constructor
  · rintro ⟨a, ha, rfl⟩
    exact ⟨a, message?_eq_some.mpr ha, rfl⟩
  · rintro ⟨a, ha, rfl⟩
    exact ⟨a, message?_eq_some.mp ha, rfl⟩

/-- A valid graph whose labels are any text without line feeds is read back from PlantUML as the
messages that are read of the lines of its edges, and a line that is passed over brings in nothing.
The line of an edge is read exactly as the labels of its ends allow it. Between plain labels that are
not both words it is passed over. -/
theorem parse_generate_eq_messages (hg : g.Valid) (hnode : ∀ n ∈ g.nodes, '\n' ∉ n.label.toList)
    (hedge : ∀ e ∈ g.edges, ∀ x ∈ e.label, '\n' ∉ x.toList) :
    parse .plantUml (generate .plantUml g) =
        ⟨(arrowIds (g.edges.filterMap (message? g))).mapIdx fun i x =>
            Node.fresh x x (Position.gridSlot i),
          Graph.edgesOf (g.edges.filterMap (message? g))⟩ ∧
      (∀ n ∈ g.nodes, displayName g n.id = n.label) ∧
      ∀ e ∈ g.edges,
        Engine.plantUml.dialect.readLine (edgeLine g e).toList =
            (message? g e).map (·.statement) ∧
          (∀ a, message? g e = some a ↔
            IsMessage (displayName g e.source) (displayName g e.target) e.label a) ∧
          (IsPlain (displayName g e.source) → IsPlain (displayName g e.target) →
            ¬ (IsWord (displayName g e.source) ∧ IsWord (displayName g e.target)) →
              message? g e = none) := by
  have hname (id : String) (hid : id ∈ g.nodeIds) : '\n' ∉ (displayName g id).toList := by
    obtain ⟨n, hn, rfl⟩ := List.mem_map.mp hid
    exact displayName_id hg hn ▸ hnode n hn
  have hstatements : statements .plantUml (write g) =
      (g.edges.filterMap (message? g)).map (·.statement) := by
    rw [statements_write_lines (fun e he => ⟨hname _ (hg.2 e he).1, hname _ (hg.2 e he).2⟩) hedge,
      List.map_filterMap]
    exact List.filterMap_congr fun e _ => readLine_edgeLine_eq_map g e
  refine ⟨parse_of_statements_eq_arrows hstatements, fun n hn => displayName_id hg hn,
    fun e _ => ⟨readLine_edgeLine_eq_map g e, fun a => message?_eq_some, ?_⟩⟩
  intro hsource htarget hwords
  rw [Option.eq_none_iff_forall_ne_some]
  intro a ha
  obtain ⟨-, -, hwords'⟩ := (message?_eq_some.mp ha).names_eq hsource htarget
  exact hwords hwords'

/-- A graph with labels that are no words: blanks and a semicolon at their ends, a space within, and
a message with a colon. -/
def loose : Graph where
  nodes :=
    [Node.fresh "a" "\u00a0A " (Position.gridSlot 0), Node.fresh "b" "B;" (Position.gridSlot 1),
      Node.fresh "c" "two words" (Position.gridSlot 2),
      Node.fresh "d" "x --> y: z" (Position.gridSlot 3)]
  edges :=
    [Edge.between "a" "b" none, Edge.between "b" "a" none, Edge.between "c" "c" (some "lost"),
      Edge.between "d" "c" none]

theorem parse_generate_loose :
    loose.Valid ∧ (∀ n ∈ loose.nodes, '\n' ∉ n.label.toList) ∧
      (∀ e ∈ loose.edges, ∀ x ∈ e.label, '\n' ∉ x.toList) ∧
      parse .plantUml (generate .plantUml loose) =
        ⟨[Node.fresh "A" "A" (Position.gridSlot 0), Node.fresh "B" "B" (Position.gridSlot 1),
            Node.fresh "x" "x" (Position.gridSlot 2), Node.fresh "y" "y" (Position.gridSlot 3)],
          [Edge.between "A" "B" none, Edge.between "x" "y" (some "z -> two words")]⟩ :=
  ⟨by decide, by decide, by decide,
    (parse_generate_eq_messages (by decide) (by decide) (by decide)).1.trans (by decide +kernel)⟩

/-- An edge to a node whose label ends in a semicolon. -/
def ended : Graph where
  nodes := [Node.fresh "a" "a" (Position.gridSlot 0), Node.fresh "b" "b;" (Position.gridSlot 1)]
  edges := [Edge.between "a" "b" none]

/-- A semicolon behind a name is read as the end of the statement, and the message as one between
names without it. -/
theorem readLine_edgeLine_semicolon :
    ended.Valid ∧ (∀ n ∈ ended.nodes, '\n' ∉ n.label.toList) ∧
      ∃ e ∈ ended.edges, ¬ IsWord (displayName ended e.target) ∧
        edgeLine ended e = "a -> b;" ∧
        Engine.plantUml.dialect.readLine (edgeLine ended e).toList =
          some (.connection (.bare "a") (.bare "b") none) ∧
        (parse .plantUml (generate .plantUml ended)).nodeIds = ["a", "b"] ∧
        (parse .plantUml (generate .plantUml ended)).ends = [("a", "b")] :=
  ⟨by decide, by decide, Edge.between "a" "b" none, List.mem_singleton_self _, by decide,
    by decide, by decide, by decide +kernel, by decide +kernel⟩

end PlantUml

end BoxArrow
