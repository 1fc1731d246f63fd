import BoxArrow.Text.Reader
import Mathlib.Data.List.Forall2
import Mathlib.Data.List.TakeWhile

/-!
# What readers accept

For every way of building a reader, this file says on which texts it gives a value and what the
value and the rest then are. The statements are equivalences, so that one lemma serves both to
take apart a text that was read and to show that a written text is read.

A run of characters is described by the run, its class and the fact that the rest does not go on
with that class, written `rest.takeWhile p = []`.

## Main results

* `BoxArrow.Reader.bind_eq_some`, `BoxArrow.Reader.bind_of_some` — sequencing.
* `BoxArrow.Reader.span_eq_some`, `BoxArrow.Reader.span1_eq_some`,
  `BoxArrow.Reader.literal_eq_some`, `BoxArrow.Reader.one_eq_some` — runs of characters, fixed texts
  and single characters.
* `BoxArrow.Reader.orElse_eq_some`, `BoxArrow.Reader.optional_eq_some` — choices.
* `BoxArrow.Reader.many_of_some`, `BoxArrow.Reader.many_of_none` — repetition of a reader that
  always takes something, free of the bound on the number of rounds.
* `BoxArrow.Reader.Rounds`, `BoxArrow.Reader.repeated_eq_some` — the rounds of such a repetition.
* `BoxArrow.Reader.many_flatMap` — repetition on a list that was written entry after entry.
* `BoxArrow.Reader.StopsBefore` — readers that never look into the rest of a text, so that what
  they read of a text by itself they read of it before that rest.
* `BoxArrow.Reader.Ensures` — what holds of every value that is read anywhere in a line, with a rule
  for every way of building a reader.
-/

namespace BoxArrow.Reader

variable {α β : Type} {cs rest : List Char}

/-! ### Sequencing -/

theorem bind_eq_some {r : Reader α} {f : α → Reader β} {b : β} :
    (r >>= f) cs = some (b, rest) ↔
      ∃ a mid, r cs = some (a, mid) ∧ f a mid = some (b, rest) := by
  change r.andThen f cs = some (b, rest) ↔ _
  rw [andThen]
  cases r cs with
  | none => exact iff_of_false nofun nofun
  | some found =>
    obtain ⟨a, mid⟩ := found
    constructor
    · exact fun h => ⟨a, mid, rfl, h⟩
    · rintro ⟨_, _, ⟨⟩, h⟩
      exact h

theorem bind_of_some {r : Reader α} {a : α} {mid : List Char} (h : r cs = some (a, mid))
    (f : α → Reader β) : (r >>= f) cs = f a mid := by
  change r.andThen f cs = f a mid
  rw [andThen, h]

theorem bind_of_none {r : Reader α} (h : r cs = none) (f : α → Reader β) :
    (r >>= f) cs = none := by
  change r.andThen f cs = none
  rw [andThen, h]

theorem pure_eq_some {a b : α} :
    (pure a : Reader α) cs = some (b, rest) ↔ b = a ∧ rest = cs := by
  change some (a, cs) = some (b, rest) ↔ _
  rw [Option.some.injEq, Prod.mk.injEq, eq_comm, eq_comm (a := cs)]

theorem whole_eq_some {r : Reader α} {a : α} : r.whole cs = some a ↔ r cs = some (a, []) := by
  rw [whole]
  split
  · next b h => simp [h]
  · next h =>
    refine iff_of_false (by simp) fun ha => ?_
    exact h a ha

/-! ### Runs of characters and fixed texts -/

/-- A text is cut at the end of its first run of a class: the run holds the class only, and the
rest does not go on with it. -/
theorem takeWhile_eq_and_dropWhile_eq {p : Char → Bool} {w : List Char} :
    cs.takeWhile p = w ∧ cs.dropWhile p = rest ↔
      cs = w ++ rest ∧ (∀ c ∈ w, p c = true) ∧ rest.takeWhile p = [] := by
  constructor
  · rintro ⟨rfl, rfl⟩
    refine ⟨List.takeWhile_append_dropWhile.symm, fun c hc => List.mem_takeWhile_imp hc, ?_⟩
    rw [List.takeWhile_eq_nil_iff]
    intro h hp
    exact List.dropWhile_get_zero_not p cs h hp
  · rintro ⟨rfl, hw, hrest⟩
    have hdrop : rest.dropWhile p = rest := by
      simpa only [hrest, List.nil_append] using
        List.takeWhile_append_dropWhile (p := p) (l := rest)
    rw [List.takeWhile_append_of_pos hw, List.dropWhile_append_of_pos hw, hrest, hdrop,
      List.append_nil]
    exact ⟨rfl, rfl⟩

/-- The first run of a class ends where a rest begins that does not go on with it. -/
theorem takeWhile_append_of_nil {p : Char → Bool} (h : rest.takeWhile p = []) (cs : List Char) :
    (cs ++ rest).takeWhile p = cs.takeWhile p ∧
      (cs ++ rest).dropWhile p = cs.dropWhile p ++ rest := by
  induction cs with
  | nil => exact takeWhile_eq_and_dropWhile_eq.mpr ⟨rfl, nofun, h⟩
  | cons c cs ih =>
    rw [List.cons_append, List.takeWhile_cons, List.dropWhile_cons, List.takeWhile_cons,
      List.dropWhile_cons, ih.1, ih.2]
    split_ifs <;> exact ⟨rfl, rfl⟩

theorem span_eq_some {p : Char → Bool} {w : String} :
    span p cs = some (w, rest) ↔
      cs = w.toList ++ rest ∧ (∀ c ∈ w.toList, p c = true) ∧ rest.takeWhile p = [] := by
  rw [← takeWhile_eq_and_dropWhile_eq, span, Option.some.injEq, Prod.mk.injEq,
    ← String.toList_inj, String.toList_ofList]

theorem span1_eq_some {p : Char → Bool} {w : String} :
    span1 p cs = some (w, rest) ↔
      w.toList ≠ [] ∧ cs = w.toList ++ rest ∧ (∀ c ∈ w.toList, p c = true) ∧
        rest.takeWhile p = [] := by
  rw [← takeWhile_eq_and_dropWhile_eq, span1]
  split
  · next h =>
    refine iff_of_false (by simp) ?_
    rintro ⟨hw, htake, -⟩
    exact hw (htake.symm.trans h)
  · next h =>
    rw [Option.some.injEq, Prod.mk.injEq, ← String.toList_inj, String.toList_ofList]
    constructor
    · rintro ⟨hw, hrest⟩
      refine ⟨?_, hw, hrest⟩
      rw [← hw]
      exact h
    · rintro ⟨-, hw, hrest⟩
      exact ⟨hw, hrest⟩

/-- A text that starts outside of a class has no run of it. -/
theorem span1_eq_none {p : Char → Bool} (h : cs.takeWhile p = []) : span1 p cs = none := by
  rw [span1, h]

theorem isPrefixOf?_eq_some (s : List Char) :
    s.isPrefixOf? cs = some rest ↔ cs = s ++ rest := by
  induction s generalizing cs with
  | nil => exact Option.some_inj
  | cons c s ih =>
    cases cs with
    | nil => exact iff_of_false nofun nofun
    | cons d cs =>
      change (if c == d then s.isPrefixOf? cs else none) = some rest ↔ _
      rw [List.cons_append, List.cons.injEq]
      by_cases hcd : c = d
      · rw [if_pos (beq_iff_eq.mpr hcd), ih]
        exact ⟨fun h => ⟨hcd.symm, h⟩, fun h => h.2⟩
      · rw [if_neg fun h => hcd (beq_iff_eq.mp h)]
        exact iff_of_false nofun fun h => hcd h.1.symm

theorem literal_eq_some {s : String} {u : Unit} :
    literal s cs = some (u, rest) ↔ cs = s.toList ++ rest := by
  rw [← isPrefixOf?_eq_some, literal]
  cases List.isPrefixOf? s.toList cs <;> simp

theorem literal_append (s : String) (rest : List Char) :
    literal s (s.toList ++ rest) = some ((), rest) :=
  literal_eq_some.mpr rfl

/-- A text of one character at the start of a line. -/
theorem literal_cons {s : String} {c : Char} (h : s.toList = [c]) (rest : List Char) :
    literal s (c :: rest) = some ((), rest) :=
  literal_eq_some.mpr (by rw [h, List.singleton_append])

theorem literal_eq_none {s : String} (h : ¬ s.toList <+: cs) : literal s cs = none := by
  cases hr : literal s cs with
  | none => rfl
  | some found =>
    obtain ⟨u, rest⟩ := found
    exact absurd ⟨rest, (literal_eq_some.mp hr).symm⟩ h

/-- A text whose first character is not the one that a fixed text begins with. -/
theorem literal_cons_of_ne {s : String} {c d : Char} {cs' : List Char} (hs : s.toList = c :: cs')
    (hne : d ≠ c) (cs : List Char) : literal s (d :: cs) = none := by
  refine literal_eq_none fun h => hne ?_
  rw [hs, List.cons_prefix_cons] at h
  exact h.1.symm

theorem remainder_eq_some {w : String} :
    remainder cs = some (w, rest) ↔ cs = w.toList ∧ rest = [] := by
  rw [remainder, Option.some.injEq, Prod.mk.injEq, ← String.toList_inj, String.toList_ofList,
    eq_comm (a := rest)]

theorem one_eq_some {p : Char → Bool} {c : Char} :
    one p cs = some (c, rest) ↔ p c = true ∧ cs = c :: rest := by
  cases cs with
  | nil => simp [one]
  | cons d cs =>
    rw [one, List.cons.injEq]
    split_ifs with hd
    · rw [Option.some.injEq, Prod.mk.injEq]
      constructor
      · rintro ⟨rfl, rfl⟩
        exact ⟨hd, rfl, rfl⟩
      · exact And.right
    · refine iff_of_false nofun ?_
      rintro ⟨hc, rfl, -⟩
      exact hd hc

/-! ### Choices -/

theorem orElse_eq_some {r s : Reader α} {a : α} :
    orElse r s cs = some (a, rest) ↔
      r cs = some (a, rest) ∨ r cs = none ∧ s cs = some (a, rest) := by
  rw [orElse]
  cases r cs <;> simp

theorem orElse_of_some {r s : Reader α} {found : α × List Char} (h : r cs = some found) :
    orElse r s cs = some found := by
  rw [orElse, h]

theorem orElse_of_none {r s : Reader α} (h : r cs = none) : orElse r s cs = s cs := by
  rw [orElse, h]

theorem optional_eq_some {r : Reader α} {o : Option α} :
    optional r cs = some (o, rest) ↔
      (∃ a, o = some a ∧ r cs = some (a, rest)) ∨ o = none ∧ rest = cs ∧ r cs = none := by
  rw [optional]
  cases r cs with
  | none => simp [eq_comm]
  | some found =>
    obtain ⟨a, mid⟩ := found
    constructor
    · rintro ⟨⟩
      exact .inl ⟨a, rfl, rfl⟩
    · rintro (⟨_, rfl, ⟨⟩⟩ | ⟨-, -, ⟨⟩⟩)
      rfl

theorem optional_of_some {r : Reader α} {a : α} (h : r cs = some (a, rest)) :
    optional r cs = some (some a, rest) :=
  optional_eq_some.mpr (.inl ⟨a, rfl, h⟩)

theorem optional_of_none {r : Reader α} (h : r cs = none) : optional r cs = some (none, cs) :=
  optional_eq_some.mpr (.inr ⟨rfl, rfl, h⟩)

theorem filterMap_eq_some {r : Reader α} {f : α → Option β} {b : β} :
    filterMap f r cs = some (b, rest) ↔ ∃ a, r cs = some (a, rest) ∧ f a = some b := by
  rw [filterMap]
  cases r cs with
  | none => simp
  | some found =>
    obtain ⟨a, mid⟩ := found
    constructor
    · intro h
      obtain ⟨c, hc, ⟨⟩⟩ := Option.map_eq_some_iff.mp h
      exact ⟨a, rfl, hc⟩
    · rintro ⟨_, ⟨⟩, h⟩
      exact Option.map_eq_some_iff.mpr ⟨b, h, rfl⟩

theorem filterMap_of_none {r : Reader α} (h : r cs = none) (f : α → Option β) :
    filterMap f r cs = none := by
  rw [filterMap, h]

/-! ### Repetition -/

/-- A reader that takes at least one character whenever it gives a value. -/
def Progresses (r : Reader α) : Prop :=
  ∀ cs a rest, r cs = some (a, rest) → rest.length < cs.length

variable {r : Reader α}

theorem manyOnto_of_none (h : r cs = none) (rounds : List Char) (got : List α) :
    manyOnto r rounds got cs = (got.reverse, cs) := by
  cases rounds with
  | nil => rfl
  | cons c rounds => rw [manyOnto, h]

/-- The values read so far only go in front of the further ones. -/
theorem manyOnto_eq_append (rounds : List Char) (got : List α) (cs : List Char) :
    manyOnto r rounds got cs =
      (got.reverse ++ (manyOnto r rounds [] cs).1, (manyOnto r rounds [] cs).2) := by
  induction rounds generalizing got cs with
  | nil => simp [manyOnto]
  | cons c rounds ih =>
    cases h : r cs with
    | none => simp [manyOnto, h]
    | some found =>
      obtain ⟨a, rest⟩ := found
      simp only [manyOnto, h]
      rw [ih (a :: got) rest, ih [a] rest]
      simp

/-- With progress it does not matter how many rounds more than characters there are. -/
theorem manyOnto_rounds_congr (hr : Progresses r) (rounds rounds' : List Char) (got : List α)
    (cs : List Char) (h : cs.length ≤ rounds.length) (h' : cs.length ≤ rounds'.length) :
    manyOnto r rounds got cs = manyOnto r rounds' got cs := by
  induction rounds generalizing rounds' got cs with
  | nil =>
    have hnone : r cs = none := by
      cases hcs : r cs with
      | none => rfl
      | some found => exact absurd (hr cs found.1 found.2 hcs) (by simp_all)
    rw [manyOnto_of_none hnone, manyOnto_of_none hnone]
  | cons c rounds ih =>
    cases hcs : r cs with
    | none => rw [manyOnto_of_none hcs, manyOnto_of_none hcs]
    | some found =>
      obtain ⟨a, rest⟩ := found
      have hlt := hr cs a rest hcs
      cases rounds' with
      | nil => exact absurd hlt (by simp_all)
      | cons c' rounds' =>
        rw [List.length_cons] at h h'
        simp only [manyOnto, hcs]
        exact ih rounds' (a :: got) rest (by omega) (by omega)

theorem many_of_none (h : r cs = none) : many r cs = ([], cs) :=
  manyOnto_of_none h cs []

theorem many_of_some (hr : Progresses r) {a : α} (h : r cs = some (a, rest)) :
    many r cs = (a :: (many r rest).1, (many r rest).2) := by
  have hlt := hr cs a rest h
  cases cs with
  | nil => exact absurd hlt (Nat.not_lt_zero _)
  | cons c cs =>
    rw [List.length_cons] at hlt
    simp only [many, manyOnto, h]
    rw [manyOnto_eq_append, manyOnto_rounds_congr hr cs rest [] rest (by omega) le_rfl]
    rfl

/-- Repetition on a text, one value at a time. -/
theorem many_induction (hr : Progresses r) {P : List Char → List α × List Char → Prop}
    (none : ∀ cs, r cs = none → P cs ([], cs))
    (some : ∀ cs a rest, r cs = some (a, rest) → P rest (many r rest) →
      P cs (a :: (many r rest).1, (many r rest).2)) (cs : List Char) : P cs (many r cs) := by
  cases h : r cs with
  | none =>
    rw [many_of_none h]
    exact none cs h
  | some found =>
    obtain ⟨a, rest⟩ := found
    rw [many_of_some hr h]
    exact some cs a rest h (many_induction hr none some rest)
termination_by cs.length
decreasing_by exact hr cs a rest h

/-- A text read in rounds, each of which takes at least one character, up to a rest at which there
is nothing more to read. -/
inductive Rounds (r : Reader α) : List Char → List α → List Char → Prop
  | stop {cs : List Char} (h : r cs = none) : Rounds r cs [] cs
  | round {cs mid rest : List Char} {a : α} {as : List α} (h : r cs = some (a, mid))
      (hmid : mid.length < cs.length) (hrest : Rounds r mid as rest) : Rounds r cs (a :: as) rest

/-- A repetition runs through its rounds to their end, whatever the text. -/
theorem rounds_many (hr : Progresses r) (cs : List Char) :
    Rounds r cs (many r cs).1 (many r cs).2 :=
  many_induction hr (P := fun cs found => Rounds r cs found.1 found.2)
    (fun _ h => .stop h) (fun cs a rest h ih => .round h (hr cs a rest h) ih) cs

theorem repeated_eq_some (hr : Progresses r) {as : List α} :
    r.repeated cs = some (as, rest) ↔ Rounds r cs as rest := by
  rw [repeated, Option.some.injEq]
  constructor
  · intro h
    have hrounds := rounds_many hr cs
    rwa [h] at hrounds
  · intro h
    induction h with
    | stop h => exact many_of_none h
    | round h _ _ ih => rw [many_of_some hr h, ih]

/-! ### Repetition on a written list -/

section Written

variable {write : β → List Char} {P : List Char → Prop} {bs : List β} {as : List α}

theorem manyOnto_flatMap
    (hread : List.Forall₂ (fun b a => ∀ rest, P rest → r (write b ++ rest) = some (a, rest)) bs as)
    (hwrite : ∀ b rest, P (write b ++ rest)) (hne : ∀ b, write b ≠ []) (hrest : P rest)
    (hend : r rest = none) (rounds : List Char) (got : List α)
    (hrounds : (bs.flatMap write).length ≤ rounds.length) :
    manyOnto r rounds got (bs.flatMap write ++ rest) = (got.reverse ++ as, rest) := by
  induction hread generalizing rounds got with
  | nil => rw [List.flatMap_nil, List.nil_append, manyOnto_of_none hend, List.append_nil]
  | @cons b a bs as hb _ ih =>
    have hnext : P (bs.flatMap write ++ rest) := by
      cases bs with
      | nil => exact hrest
      | cons b' bs =>
        rw [List.flatMap_cons, List.append_assoc]
        exact hwrite b' _
    have hpos := List.length_pos_of_ne_nil (hne b)
    rw [List.flatMap_cons, List.length_append] at hrounds
    cases rounds with
    | nil => exact absurd hrounds (by rw [List.length_nil]; omega)
    | cons c rounds =>
      rw [List.length_cons] at hrounds
      simp only [List.flatMap_cons, List.append_assoc, manyOnto, hb _ hnext]
      rw [ih rounds (a :: got) (by omega), List.reverse_cons, List.append_assoc,
        List.singleton_append]

theorem many_flatMap
    (hread : List.Forall₂ (fun b a => ∀ rest, P rest → r (write b ++ rest) = some (a, rest)) bs as)
    (hwrite : ∀ b rest, P (write b ++ rest)) (hne : ∀ b, write b ≠ []) (hrest : P rest)
    (hend : r rest = none) : many r (bs.flatMap write ++ rest) = (as, rest) :=
  manyOnto_flatMap hread hwrite hne hrest hend _ [] (by rw [List.length_append]; omega)

end Written

/-! ### Readers that do not look ahead -/

/-- A reader that never looks into `rest`, whatever stands before it. -/
def StopsBefore (rest : List Char) (r : Reader α) : Prop :=
  ∀ cs, r (cs ++ rest) = (r cs).map fun found => (found.1, found.2 ++ rest)

namespace StopsBefore

theorem append (h : StopsBefore rest r) {a : α} (hr : r cs = some (a, [])) :
    r (cs ++ rest) = some (a, rest) := by
  rw [h, hr]
  rfl

protected theorem pure (a : α) : StopsBefore rest (pure a) :=
  fun _ => rfl

protected theorem bind {f : α → Reader β} (hr : StopsBefore rest r)
    (hf : ∀ a, StopsBefore rest (f a)) : StopsBefore rest (r >>= f) := by
  intro cs
  cases h : r cs with
  | none =>
    have hrest : r (cs ++ rest) = none := by rw [hr, h]; rfl
    rw [bind_of_none h, bind_of_none hrest]
    rfl
  | some found =>
    obtain ⟨a, mid⟩ := found
    have hrest : r (cs ++ rest) = some (a, mid ++ rest) := by rw [hr, h]; rfl
    rw [bind_of_some h, bind_of_some hrest, hf]

theorem span1 {p : Char → Bool} (h : rest.takeWhile p = []) :
    StopsBefore rest (Reader.span1 p) := by
  intro cs
  obtain ⟨htake, hdrop⟩ := takeWhile_append_of_nil h cs
  rw [Reader.span1, Reader.span1, htake, hdrop]
  cases cs.takeWhile p <;> rfl

theorem one {p : Char → Bool} (h : rest.takeWhile p = []) : StopsBefore rest (Reader.one p) := by
  intro cs
  cases cs with
  | nil =>
    cases rest with
    | nil => rfl
    | cons c rest =>
      have hc : p c = false := by simpa [List.takeWhile_cons] using h
      simp [Reader.one, hc]
  | cons c cs =>
    simp only [List.cons_append, Reader.one]
    split_ifs <;> rfl

/-- A fixed text of one character. -/
theorem literal {s : String} {c : Char} (hs : s.toList = [c])
    (h : rest.takeWhile (· == c) = []) : StopsBefore rest (Reader.literal s) := by
  intro cs
  have hone (cs : List Char) :
      Reader.literal s cs = (Reader.one (· == c) cs).map fun found => ((), found.2) := by
    rw [Reader.literal, hs]
    cases cs with
    | nil => rfl
    | cons d cs =>
      simp only [List.isPrefixOf?, Reader.one]
      by_cases hd : d = c
      · simp [hd]
      · simp [hd, Ne.symm hd]
  rw [hone, hone, one h]
  cases Reader.one (· == c) cs <;> rfl

theorem optional (hr : StopsBefore rest r) : StopsBefore rest (Reader.optional r) := by
  intro cs
  rw [Reader.optional, Reader.optional, hr]
  cases r cs <;> rfl

theorem filterMap {f : α → Option β} (hr : StopsBefore rest r) :
    StopsBefore rest (Reader.filterMap f r) := by
  intro cs
  rw [Reader.filterMap, Reader.filterMap, hr]
  cases r cs with
  | none => rfl
  | some found =>
    change Option.map _ (f found.1) = Option.map _ (Option.map _ (f found.1))
    rw [Option.map_map]
    rfl

end StopsBefore

/-! ### What readers promise -/

/-- Wherever in `line` it starts, the reader gives only values with `Q` and stays in `line`. -/
def Ensures (line : List Char) (r : Reader α) (Q : α → Prop) : Prop :=
  ∀ ⦃cs⦄, cs <:+ line → ∀ ⦃a rest⦄, r cs = some (a, rest) → Q a ∧ rest <:+ line

namespace Ensures

variable {line : List Char} {Q : α → Prop} {R : β → Prop}

theorem mono (h : Ensures line r Q) {Q' : α → Prop} (hQ : ∀ a, Q a → Q' a) : Ensures line r Q' :=
  fun _ hcs _ _ hr => ⟨hQ _ (h hcs hr).1, (h hcs hr).2⟩

theorem whole (h : Ensures line r Q) {a : α} (ha : r.whole line = some a) : Q a :=
  (h List.suffix_rfl (whole_eq_some.mp ha)).1

protected theorem pure {a : α} (ha : Q a) : Ensures line (pure a) Q := by
  intro cs hcs b rest h
  obtain ⟨rfl, rfl⟩ := pure_eq_some.mp h
  exact ⟨ha, hcs⟩

protected theorem bind {f : α → Reader β} (hr : Ensures line r Q)
    (hf : ∀ a, Q a → Ensures line (f a) R) : Ensures line (r >>= f) R := by
  intro cs hcs b rest h
  obtain ⟨a, mid, ha, hb⟩ := bind_eq_some.mp h
  obtain ⟨hQ, hmid⟩ := hr hcs ha
  exact hf a hQ hmid hb

theorem span (p : Char → Bool) :
    Ensures line (Reader.span p) fun w => ∀ c ∈ w.toList, p c = true ∧ c ∈ line := by
  intro cs hcs w rest h
  obtain ⟨rfl, hw, -⟩ := span_eq_some.mp h
  refine ⟨fun c hc => ⟨hw c hc, hcs.subset (List.mem_append_left _ hc)⟩, ?_⟩
  exact (List.suffix_append _ _).trans hcs

theorem span1 (p : Char → Bool) :
    Ensures line (Reader.span1 p) fun w =>
      w.toList ≠ [] ∧ ∀ c ∈ w.toList, p c = true ∧ c ∈ line := by
  intro cs hcs w rest h
  obtain ⟨hne, rfl, hw, -⟩ := span1_eq_some.mp h
  refine ⟨⟨hne, fun c hc => ⟨hw c hc, hcs.subset (List.mem_append_left _ hc)⟩⟩, ?_⟩
  exact (List.suffix_append _ _).trans hcs

theorem literal (s : String) : Ensures line (Reader.literal s) fun _ => True := by
  intro cs hcs u rest h
  obtain rfl := literal_eq_some.mp h
  exact ⟨trivial, (List.suffix_append _ _).trans hcs⟩

theorem remainder : Ensures line Reader.remainder fun w => w.toList <:+ line := by
  intro cs hcs w rest h
  obtain ⟨rfl, rfl⟩ := remainder_eq_some.mp h
  exact ⟨hcs, List.nil_suffix⟩

theorem one (p : Char → Bool) : Ensures line (Reader.one p) fun c => p c = true := by
  intro cs hcs c rest h
  obtain ⟨hc, rfl⟩ := one_eq_some.mp h
  exact ⟨hc, (List.suffix_cons _ _).trans hcs⟩

theorem orElse {s : Reader α} (hr : Ensures line r Q) (hs : Ensures line s Q) :
    Ensures line (Reader.orElse r s) Q := by
  intro cs hcs a rest h
  rcases orElse_eq_some.mp h with h | ⟨-, h⟩
  · exact hr hcs h
  · exact hs hcs h

theorem optional (hr : Ensures line r Q) :
    Ensures line (Reader.optional r) fun o => ∀ a ∈ o, Q a := by
  intro cs hcs o rest h
  rcases optional_eq_some.mp h with ⟨a, rfl, ha⟩ | ⟨rfl, rfl, -⟩
  · obtain ⟨hQ, hrest⟩ := hr hcs ha
    refine ⟨fun b hb => ?_, hrest⟩
    rwa [← Option.mem_some.mp hb]
  · exact ⟨nofun, hcs⟩

theorem filterMap {f : α → Option β} (hr : Ensures line r Q)
    (hf : ∀ a, Q a → ∀ b, f a = some b → R b) : Ensures line (Reader.filterMap f r) R := by
  intro cs hcs b rest h
  obtain ⟨a, ha, hb⟩ := filterMap_eq_some.mp h
  obtain ⟨hQ, hrest⟩ := hr hcs ha
  exact ⟨hf a hQ b hb, hrest⟩

theorem repeated (hr : Ensures line r Q) (hp : Progresses r) :
    Ensures line (Reader.repeated r) fun as => ∀ a ∈ as, Q a := by
  intro cs hcs as rest h
  have hmany : (∀ a ∈ (many r cs).1, Q a) ∧ (many r cs).2 <:+ line := by
    revert hcs
    refine many_induction hp (P := fun cs found =>
      cs <:+ line → (∀ a ∈ found.1, Q a) ∧ found.2 <:+ line) ?_ ?_ cs
    · exact fun cs _ hcs => ⟨nofun, hcs⟩
    · intro cs a rest ha ih hcs
      obtain ⟨hQ, hrest⟩ := hr hcs ha
      obtain ⟨hall, hend⟩ := ih hrest
      exact ⟨List.forall_mem_cons.mpr ⟨hQ, hall⟩, hend⟩
  rw [Reader.repeated, Option.some.injEq] at h
  rwa [h] at hmany

end Ensures

/-- What takes a character first takes one in all, when the rest gives nothing back. -/
theorem Progresses.bind {f : α → Reader β} (hr : Progresses r)
    (hf : ∀ line a, Ensures line (f a) fun _ => True) : Progresses (r >>= f) := by
  intro cs b rest h
  obtain ⟨a, mid, ha, hb⟩ := bind_eq_some.mp h
  have hmid := hr cs a mid ha
  have hrest := (hf mid a List.suffix_rfl hb).2.length_le
  omega

end BoxArrow.Reader
