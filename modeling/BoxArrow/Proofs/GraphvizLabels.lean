import BoxArrow.Proofs.GraphvizGrammar

/-!
# Labels between quotes

A label of a digraph is written between quotes as it is. When it holds a quote itself, the reader
takes the label to end there, and what stands behind it is read as further attributes or not at all.
Whatever is read, it is not the label that was written: the attributes behind the first one leave
too little room for it.

## Main definitions

* `BoxArrow.Graphviz.labelText` — a label as it is written.
* `BoxArrow.Graphviz.readBack` — what is read where a label was written.

## Main results

* `BoxArrow.Graphviz.length_of_mem_many` — every attribute of a list fits in the text of the list.
* `BoxArrow.Graphviz.readBack_eq_self_iff` — the labels that are read as they were written.
-/

namespace BoxArrow.Graphviz

open Reader

variable {cs rest : List Char} {x : String}

/-! ### Attributes -/

/-- An attribute takes the characters of its key, of its value and of an equality sign. -/
theorem length_assignment {a : String × String} (h : assignment cs = some (a, rest)) :
    a.1.toList.length + 1 + a.2.toList.length + rest.length ≤ cs.length := by
  cases assignment_eq_some.mp h with
  | @intro key value gap gap' text rest hkey hgap hgap' hvalue =>
    have hlength : value.toList.length + rest.length ≤ text.length := by
      cases hvalue with
      | quoted hvalue =>
        simp only [List.length_cons, List.length_append]
        omega
      | bare hopen hne hvalue hrest => rw [List.length_append]
    simp only [List.length_append, List.length_cons]
    omega

theorem length_listItem {a : String × String} (h : listItem cs = some (a, rest)) :
    a.1.toList.length + 1 + a.2.toList.length + rest.length ≤ cs.length := by
  obtain ⟨b, mid, hb, hrest⟩ := bind_eq_some.mp h
  obtain ⟨rfl, hsuffix⟩ := separator_ensures (Q := (· = b)) b rfl List.suffix_rfl hrest
  have hlength := length_assignment hb
  have hle := hsuffix.length_le
  omega

/-- Every attribute of a list fits in the text of the list. -/
theorem length_of_mem_many {a : String × String} (h : a ∈ (many listItem cs).1) :
    a.1.toList.length + 1 + a.2.toList.length ≤ cs.length := by
  revert h
  refine many_induction progresses_listItem (P := fun cs found =>
    a ∈ found.1 → a.1.toList.length + 1 + a.2.toList.length ≤ cs.length) ?_ ?_ cs
  · exact fun cs _ h => absurd h List.not_mem_nil
  · intro cs b rest hb ih h
    have hlength := length_listItem hb
    rcases List.mem_cons.mp h with rfl | h
    · omega
    · have := ih h
      omega

/-- A label attribute with the quoted value `p` is read up to the next quote. -/
theorem assignment_label {p : List Char} (hp : '"' ∉ p) :
    assignment ("label=\"".toList ++ (p ++ '"' :: rest)) =
      some (("label", String.ofList p), rest) := by
  have hvalue : IsValue ('"' :: (p ++ '"' :: rest)) (String.ofList p) rest := by
    rw [← value_eq_some]
    exact orElse_of_some (quoted_eq_some.mpr (by rw [String.toList_ofList]; exact ⟨hp, rfl⟩))
  exact assignment_eq_some.mpr
    (@IsAssignment.intro "label" _ [] [] _ rest ⟨by decide, rfl⟩ nofun nofun hvalue)

/-! ### What is read where a label was written -/

/-- A label as it is written. -/
def labelText (x : String) : List Char :=
  '[' :: ("label=\"".toList ++ (x.toList ++ ['"', ']']))

/-- What is read where a label was written: maybe no list of attributes at all, and maybe one that
gives another label or none. -/
def readBack (x : String) : Option (Option String) :=
  Reader.whole (do
    let label ← attributeList
    endOfStatement
    return label) (labelText x ++ [';'])

/-- A label without quotes is read as it was written. -/
theorem attributeList_labelText (hne : x.toList ≠ []) (hx : '"' ∉ x.toList) :
    attributeList (labelText x ++ rest) = some (some x, rest) := by
  have ha : IsAssignment ("label=\"".toList ++ (x.toList ++ '"' :: ([] ++ ']' :: rest)))
      ("label", x) ([] ++ ']' :: rest) := by
    rw [← assignment_eq_some, assignment_label hx, String.ofList_toList]
  have hlabel : GivesLabel ("label", x) := ⟨rfl, fun hnil => hne (String.toList_eq_nil_iff.mpr hnil)⟩
  have htext : labelText x ++ rest =
      '[' :: ([] ++ ("label=\"".toList ++ (x.toList ++ '"' :: ([] ++ ']' :: rest)))) := by
    simp [labelText]
  rw [htext]
  exact attributeList_eq_some.mpr ⟨[("label", x)], .intro nofun (.cons ha (.gap nofun) .nil),
    @IsLastLabel.some [] [] _ hlabel nofun⟩

/-- A label with a quote is not read as it was written. Its part before the quote is shorter, and
the text behind the quote is too short for another attribute with the label. -/
theorem attributeList_labelText_ne (hx : '"' ∈ x.toList) {o : Option String}
    (h : attributeList (labelText x ++ [';']) = some (o, rest)) : o ≠ some x := by
  obtain ⟨p, q, hpq, hp⟩ := List.eq_append_cons_of_mem hx
  have htext : labelText x ++ [';'] =
      '[' :: ("label=\"".toList ++ (p ++ '"' :: (q ++ ['"', ']', ';']))) := by
    simp [labelText, hpq]
  rw [htext, attributeList, bind_of_some (literal_cons (by decide) _),
    bind_of_some (spaces_of_none rfl)] at h
  obtain ⟨attributes, mid, hlist, hclose⟩ := bind_eq_some.mp h
  obtain ⟨_, _, -, hpure⟩ := bind_eq_some.mp hclose
  obtain ⟨rfl, -⟩ := pure_eq_some.mp hpure
  rw [Reader.repeated, Option.some.injEq] at hlist
  intro hlabel
  have hmem : ("label", x) ∈ (many listItem ("label=\"".toList ++
      (p ++ '"' :: (q ++ ['"', ']', ';'])))).1 := by
    rw [hlist]
    exact (mem_of_labelOf hlabel).1
  cases hitem : listItem ("label=\"".toList ++ (p ++ '"' :: (q ++ ['"', ']', ';']))) with
  | none =>
    rw [many_of_none hitem] at hmem
    exact List.not_mem_nil hmem
  | some found =>
    obtain ⟨a, r⟩ := found
    rw [many_of_some progresses_listItem hitem] at hmem
    rw [listItem, bind_of_some (assignment_label hp)] at hitem
    obtain ⟨rfl, hsuffix⟩ := separator_ensures (Q := (· = ("label", String.ofList p))) _ rfl
      List.suffix_rfl hitem
    rcases List.mem_cons.mp hmem with heq | hmem
    · -- the first attribute ends at the quote
      have hxp : x.toList = p := by
        rw [(Prod.mk.inj heq).2, String.toList_ofList]
      exact hp (hxp ▸ hx)
    · -- the others have no more room than the text behind the quote
      have hroom := length_of_mem_many hmem
      have hle := hsuffix.length_le
      have hkey : "label".toList.length = 5 := rfl
      simp only [hpq, hkey, List.length_append, List.length_cons, List.length_nil] at hroom hle
      omega

/-- The labels that are read as they were written are those without quotes. -/
theorem readBack_eq_self_iff (hne : x.toList ≠ []) :
    readBack x = some (some x) ↔ '"' ∉ x.toList := by
  rw [readBack, whole_eq_some]
  constructor
  · intro h hx
    obtain ⟨o, mid, hlist, hend⟩ := bind_eq_some.mp h
    obtain ⟨_, _, -, hpure⟩ := bind_eq_some.mp hend
    exact attributeList_labelText_ne hx hlist (pure_eq_some.mp hpure).1.symm
  · intro hx
    rw [bind_of_some (attributeList_labelText hne hx), bind_of_some endOfStatement_semicolon]
    rfl

theorem readBack_eq_some {o : Option String} :
    readBack x = some o ↔
      ∃ mid, attributeList (labelText x ++ [';']) = some (o, mid) ∧
        endOfStatement mid = some ((), []) := by
  rw [readBack, whole_eq_some, bind_eq_some]
  constructor
  · rintro ⟨o', mid, hlist, hend⟩
    obtain ⟨_, _, hend, hpure⟩ := bind_eq_some.mp hend
    obtain ⟨rfl, rfl⟩ := pure_eq_some.mp hpure
    exact ⟨mid, hlist, hend⟩
  · rintro ⟨mid, hlist, hend⟩
    exact ⟨o, mid, hlist, bind_eq_some.mpr ⟨(), [], hend, rfl⟩⟩

end BoxArrow.Graphviz
