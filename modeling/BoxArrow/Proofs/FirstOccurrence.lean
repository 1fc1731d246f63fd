import BoxArrow.Graph.Edit
import Mathlib.Data.List.Induction
import Mathlib.Data.List.Nodup

/-!
# First occurrences

`List.eraseDups` keeps the first occurrence of every entry in its place, and `modifyFirst` edits the
first entry of a class. Both are the list side of "the first mention counts": what is read from a
text is kept once, in the order of its first mention, and edited where it stands.

## Main results

* `BoxArrow.eraseDups_concat` — one entry more is kept exactly when it is new.
* `BoxArrow.nodup_eraseDups`, `BoxArrow.eraseDups_of_nodup`, `BoxArrow.eraseDups_sublist`.
* `BoxArrow.eraseDups_flatMap_eraseDups` — repetitions may be left out before their entries are
  taken apart.
* `BoxArrow.eraseDups_append_eq_right_iff`, `BoxArrow.eraseDups_replaced_eq_iff` — entries that change
  nothing in front of a list, or in the place of one of its entries.
* `BoxArrow.filter_key_eq`, `BoxArrow.find?_key_eq` — the one entry with a key that does not repeat.
* `BoxArrow.modifyFirst_eq_map` — editing by a key that does not repeat.
-/

namespace BoxArrow

open scoped List

section EraseDups

theorem eraseDups_singleton {α : Type} [BEq α] (a : α) : [a].eraseDups = [a] := by
  rw [List.eraseDups_cons, List.filter_nil, List.eraseDups_nil]

variable {α β : Type} [BEq α] [LawfulBEq α] [BEq β] [LawfulBEq β]

/-- A list with one entry more keeps that entry exactly when it is new. -/
theorem eraseDups_concat (l : List α) (a : α) [Decidable (a ∈ l)] :
    (l ++ [a]).eraseDups = if a ∈ l then l.eraseDups else l.eraseDups ++ [a] := by
  rw [List.eraseDups_append, List.cons_removeAll, List.nil_removeAll]
  by_cases h : a ∈ l
  · simp [h]
  · simp [h, eraseDups_singleton]

/-- Nothing is kept twice. -/
theorem nodup_eraseDups (l : List α) : l.eraseDups.Nodup := by
  classical
  induction l using List.reverseRecOn with
  | nil => exact List.nodup_nil
  | append_singleton l a ih =>
    rw [eraseDups_concat]
    split_ifs with h
    · exact ih
    · rw [← List.concat_eq_append, List.nodup_concat, List.mem_eraseDups]
      exact ⟨h, ih⟩

/-- A list without repetitions is kept as it is. -/
theorem eraseDups_of_nodup {l : List α} (h : l.Nodup) : l.eraseDups = l := by
  classical
  induction l using List.reverseRecOn with
  | nil => rfl
  | append_singleton l a ih =>
    rw [← List.concat_eq_append, List.nodup_concat] at h
    rw [eraseDups_concat, if_neg h.1, ih h.2]

/-- What is kept stays in order. -/
theorem eraseDups_sublist (l : List α) : l.eraseDups <+ l := by
  classical
  induction l using List.reverseRecOn with
  | nil => exact List.Sublist.refl _
  | append_singleton l a ih =>
    rw [eraseDups_concat]
    split_ifs with h
    · exact ih.trans (List.sublist_append_left l [a])
    · exact ih.append_right [a]

/-- A list that is read entry by entry gives a list without repetitions, entry for entry, only if
every entry is read as its own. -/
theorem eraseDups_filterMap_eq_map_iff {γ : Type} {f : γ → Option α} {g : γ → α} {l : List γ}
    (h : (l.map g).Nodup) :
    (l.filterMap f).eraseDups = l.map g ↔ ∀ c ∈ l, f c = some (g c) := by
  constructor
  · intro heq
    have hlength : (l.filterMap f).length ≤ (l.filterMap f).eraseDups.length := by
      rw [heq, List.length_map]
      exact List.length_filterMap_le f l
    have hkept : (l.filterMap f).eraseDups = l.filterMap f :=
      (eraseDups_sublist _).eq_of_length_le hlength
    rw [hkept] at heq
    exact List.filterMap_eq_map_iff_forall_eq_some.mp heq
  · intro hall
    rw [List.filterMap_eq_map_iff_forall_eq_some.mpr hall, eraseDups_of_nodup h]

theorem mem_removeAll {l m : List α} {a : α} : a ∈ m.removeAll l ↔ a ∈ m ∧ a ∉ l := by
  rw [List.removeAll, List.mem_filter]
  simp

theorem removeAll_eq_nil {l m : List α} : m.removeAll l = [] ↔ ∀ a ∈ m, a ∈ l := by
  simp only [List.eq_nil_iff_forall_not_mem, mem_removeAll, not_and, not_not]

/-- Entries that are all there already add nothing. -/
theorem eraseDups_append_of_subset {l m : List α} (h : ∀ a ∈ m, a ∈ l) :
    (l ++ m).eraseDups = l.eraseDups := by
  rw [List.eraseDups_append, removeAll_eq_nil.mpr h, List.eraseDups_nil, List.append_nil]

/-- What a list keeps depends on its beginning only through what that keeps. -/
theorem eraseDups_append_congr {l l' m : List α} (h : l.eraseDups = l'.eraseDups) :
    (l ++ m).eraseDups = (l' ++ m).eraseDups := by
  have hmem (a : α) : a ∈ l ↔ a ∈ l' := by
    rw [← List.mem_eraseDups, h, List.mem_eraseDups]
  have hm : m.removeAll l = m.removeAll l' := by
    refine List.filter_congr fun a _ => ?_
    simp only [List.elem_eq_contains, List.contains_eq_mem, hmem]
  rw [List.eraseDups_append, List.eraseDups_append, h, hm]

/-- Repetitions may be left out before the entries are taken apart: the pieces are met for the
first time in the same order. -/
theorem eraseDups_flatMap_eraseDups (f : α → List β) (l : List α) :
    (l.eraseDups.flatMap f).eraseDups = (l.flatMap f).eraseDups := by
  classical
  induction l using List.reverseRecOn with
  | nil => rfl
  | append_singleton l a ih =>
    rw [eraseDups_concat, List.flatMap_append, List.flatMap_singleton]
    split_ifs with h
    · rw [ih, eraseDups_append_of_subset fun b hb => List.mem_flatMap.mpr ⟨a, h, hb⟩]
    · rw [List.flatMap_append, List.flatMap_singleton]
      exact eraseDups_append_congr ih

/-- Entries that are all there already add nothing in the middle either. -/
theorem eraseDups_append_append_of_subset {l m n : List α} (h : ∀ a ∈ m, a ∈ l) :
    (l ++ (m ++ n)).eraseDups = (l ++ n).eraseDups := by
  rw [← List.append_assoc]
  exact eraseDups_append_congr (eraseDups_append_of_subset h)

/-- Repetitions may be left out of the end of a list first. -/
theorem eraseDups_append_eraseDups (l m : List α) :
    (l ++ m.eraseDups).eraseDups = (l ++ m).eraseDups := by
  classical
  induction m using List.reverseRecOn with
  | nil => rfl
  | append_singleton m a ih =>
    rw [eraseDups_concat, ← List.append_assoc]
    split_ifs with h
    · have hthere : ∀ b ∈ [a], b ∈ l ++ m := fun b hb =>
        List.mem_append_right _ (List.mem_singleton.mp hb ▸ h)
      rw [ih, eraseDups_append_of_subset hthere]
    · rw [← List.append_assoc]
      exact eraseDups_append_congr ih

/-- Repetitions may be left out of a part of a list first. -/
theorem eraseDups_append_eraseDups_append (l m n : List α) :
    (l ++ (m.eraseDups ++ n)).eraseDups = (l ++ (m ++ n)).eraseDups := by
  rw [← List.append_assoc, ← List.append_assoc]
  exact eraseDups_append_congr (eraseDups_append_eraseDups l m)

/-- What is kept of the beginning of a list comes first. -/
theorem eraseDups_prefix_append (l m : List α) : l.eraseDups <+: (l ++ m).eraseDups := by
  rw [List.eraseDups_append]
  exact List.prefix_append _ _

/-- Entries in front of a list without repetitions change nothing exactly when they come, each where
it is met first, in the order of that list from its start on. -/
theorem eraseDups_append_eq_right_iff {l m : List α} (hm : m.Nodup) :
    (l ++ m).eraseDups = m ↔ l.eraseDups <+: m := by
  constructor
  · intro h
    have hstart := eraseDups_prefix_append l m
    rwa [h] at hstart
  · rintro ⟨rest, rfl⟩
    have hnone : l.eraseDups.removeAll l = [] :=
      removeAll_eq_nil.mpr fun a ha => List.mem_eraseDups.mp ha
    have hall : rest.removeAll l = rest := by
      refine List.filter_eq_self.mpr fun a ha => ?_
      have hnew : a ∉ l := fun hl =>
        List.disjoint_of_nodup_append hm (List.mem_eraseDups.mpr hl) ha
      simpa using hnew
    have hrest : (l.eraseDups ++ rest).removeAll l = rest := by
      rw [List.removeAll, List.filter_append, ← List.removeAll, ← List.removeAll, hnone, hall,
        List.nil_append]
    rw [List.eraseDups_append, hrest,
      eraseDups_of_nodup (hm.sublist (List.sublist_append_right _ _))]

/-- One entry is kept of a list that has no other. -/
theorem eraseDups_of_forall_eq {l : List α} {a : α} (ha : a ∈ l) (h : ∀ b ∈ l, b = a) :
    l.eraseDups = [a] := by
  cases l with
  | nil => exact absurd ha List.not_mem_nil
  | cons b l =>
    obtain rfl : b = a := h b List.mem_cons_self
    have hrest : ∀ c ∈ l, c ∈ [b] := fun c hc =>
      List.mem_singleton.mpr (h c (List.mem_cons_of_mem _ hc))
    exact (eraseDups_append_of_subset hrest).trans (eraseDups_singleton b)

end EraseDups

theorem getLast?_eq_some_iff_of_nodup {α : Type} {before after : List α} {a : α}
    (h : (before ++ a :: after).Nodup) :
    (before ++ a :: after).getLast? = some a ↔ after = [] := by
  have hnew : a ∉ after := (List.nodup_append.mp h).2.1.notMem
  cases after with
  | nil => simp
  | cons b after =>
    rw [List.getLast?_append_of_ne_nil _ (List.cons_ne_nil _ _), List.getLast?_cons_cons]
    exact iff_of_false (fun hlast => hnew (List.mem_of_getLast? hlast)) (List.cons_ne_nil _ _)

section Replacement

variable {α : Type} [BEq α] [LawfulBEq α] {before after l m : List α} {a : α}

theorem takeWhile_ne_of_nodup (h : (before ++ a :: after).Nodup) :
    (before ++ a :: after).takeWhile (· != a) = before := by
  have hne : ∀ b ∈ before, (b != a) = true := by
    intro b hb
    rw [bne_iff_ne]
    rintro rfl
    exact List.disjoint_of_nodup_append h hb List.mem_cons_self
  rw [List.takeWhile_append_of_pos hne, List.takeWhile_cons_of_neg (by simp), List.append_nil]

/-- Entries that bring nothing new but the next entry of a list, and not that one, bring nothing
new. -/
theorem forall_mem_of_prefix_eraseDups (hbefore : before.Nodup)
    (h : (before ++ l).eraseDups <+: before ++ a :: after) (ha : a ∉ l) : ∀ b ∈ l, b ∈ before := by
  rw [List.eraseDups_append, eraseDups_of_nodup hbefore, List.prefix_append_right_inj] at h
  refine removeAll_eq_nil.mp ?_
  cases hnew : l.removeAll before with
  | nil => rfl
  | cons b new =>
    rw [hnew, List.eraseDups_cons, List.cons_prefix_cons] at h
    have hb : b ∈ l.removeAll before := hnew ▸ List.mem_cons_self
    exact absurd (h.1 ▸ (mem_removeAll.mp hb).1) ha

/-- A list that misses one entry gets it at its place from behind exactly when it was the last. -/
theorem eraseDups_missing_eq_iff (hnodup : (before ++ a :: after).Nodup)
    (hm : ∀ b ∈ m, b ∈ before ++ a :: after) :
    (before ++ (after ++ m)).eraseDups = before ++ a :: after ↔ after = [] ∧ a ∈ m := by
  have hothers : (a :: (before ++ after)).Nodup := List.nodup_middle.mp hnodup
  have hnew : a ∉ before ++ after := hothers.notMem
  constructor
  · intro h
    have hkept := eraseDups_prefix_append (before ++ after) m
    rw [List.append_assoc, h, eraseDups_of_nodup hothers.of_cons,
      List.prefix_append_right_inj] at hkept
    have hafter : after = [] := by
      cases after with
      | nil => rfl
      | cons b after =>
        obtain rfl := (List.cons_prefix_cons.mp hkept).1
        exact absurd (List.mem_append_right _ List.mem_cons_self) hnew
    have hmem : a ∈ before ++ after ++ m := by
      rw [List.append_assoc, ← List.mem_eraseDups, h]
      exact List.mem_append_right _ List.mem_cons_self
    exact ⟨hafter, (List.mem_append.mp hmem).resolve_left hnew⟩
  · rintro ⟨rfl, ha⟩
    rw [List.append_nil] at hnew hothers
    have hmem : a ∈ m.removeAll before := mem_removeAll.mpr ⟨ha, hnew⟩
    have hall : ∀ b ∈ m.removeAll before, b = a := by
      intro b hb
      obtain ⟨hbm, hbnew⟩ := mem_removeAll.mp hb
      exact List.mem_singleton.mp ((List.mem_append.mp (hm b hbm)).resolve_left hbnew)
    rw [List.nil_append, List.eraseDups_append, eraseDups_of_nodup hothers.of_cons,
      eraseDups_of_forall_eq hmem hall]

/-- Other entries in the place of one of a list stand for it, when known ones follow, exactly if they
bring the next entries of the list in their order, or if they bring nothing new, the replaced entry
is the last, and it follows. -/
theorem eraseDups_replaced_eq_iff (hnodup : (before ++ a :: after).Nodup)
    (hm : ∀ b ∈ m, b ∈ before ++ a :: after) :
    (before ++ (l ++ (after ++ m))).eraseDups = before ++ a :: after ↔
      (before ++ l).eraseDups <+: before ++ a :: after ∧ (a ∉ l → after = [] ∧ a ∈ m) := by
  by_cases hmem : a ∈ l
  · have hkept : (before ++ (l ++ (after ++ m))).eraseDups =
        ((before ++ l) ++ (before ++ a :: after)).eraseDups := by
      have hfirst : ∀ b ∈ before ++ [a], b ∈ before ++ l := by
        simp only [List.mem_append, List.mem_singleton]
        rintro b (hb | rfl)
        · exact .inl hb
        · exact .inr hmem
      have hlast : ∀ b ∈ m, b ∈ before ++ l ++ after := by
        intro b hb
        have hb := hm b hb
        simp only [List.mem_append, List.mem_cons] at hb ⊢
        rcases hb with hb | rfl | hb
        · exact .inl (.inl hb)
        · exact .inl (.inr hmem)
        · exact .inr hb
      rw [List.append_cons before, eraseDups_append_append_of_subset hfirst,
        ← List.append_assoc, ← List.append_assoc, eraseDups_append_of_subset hlast]
    rw [hkept, eraseDups_append_eq_right_iff hnodup]
    exact (and_iff_left fun h => absurd hmem h).symm
  · have hbefore : before.Nodup := hnodup.sublist (List.sublist_append_left _ _)
    have hskip (h : (before ++ l).eraseDups <+: before ++ a :: after) :
        (before ++ (l ++ (after ++ m))).eraseDups = (before ++ (after ++ m)).eraseDups :=
      eraseDups_append_append_of_subset (forall_mem_of_prefix_eraseDups hbefore h hmem)
    constructor
    · intro h
      have hstart : (before ++ l).eraseDups <+: before ++ a :: after := by
        rw [← h, ← List.append_assoc]
        exact eraseDups_prefix_append _ _
      have hmissing := (hskip hstart).symm.trans h
      exact ⟨hstart, fun _ => (eraseDups_missing_eq_iff hnodup hm).mp hmissing⟩
    · rintro ⟨hstart, hmissing⟩
      exact (hskip hstart).trans ((eraseDups_missing_eq_iff hnodup hm).mpr (hmissing hmem))

end Replacement

section UniqueKeys

variable {α κ : Type} [BEq κ] [LawfulBEq κ]

/-- Where the key does not repeat, an entry is the only one with its key. -/
theorem filter_key_eq {key : α → κ} {l : List α} (h : (l.map key).Nodup) {a : α} (ha : a ∈ l) :
    l.filter (fun b => key b == key a) = [a] := by
  induction l with
  | nil => exact absurd ha List.not_mem_nil
  | cons b l ih =>
    rw [List.map_cons, List.nodup_cons] at h
    rcases List.mem_cons.mp ha with rfl | ha
    · have hrest : l.filter (fun b => key b == key a) = [] := by
        rw [List.filter_eq_nil_iff]
        intro b hb hba
        exact h.1 (List.mem_map.mpr ⟨b, hb, beq_iff_eq.mp hba⟩)
      rw [List.filter_cons_of_pos (by simp), hrest]
    · rw [List.filter_cons_of_neg, ih h.2 ha]
      rw [beq_iff_eq]
      exact fun hba => h.1 (List.mem_map.mpr ⟨a, ha, hba.symm⟩)

/-- Where the key does not repeat, an entry is found by its key. -/
theorem find?_key_eq {key : α → κ} {l : List α} (h : (l.map key).Nodup) {a : α} (ha : a ∈ l) :
    l.find? (fun b => key b == key a) = some a := by
  rw [← List.head?_filter, filter_key_eq h ha, List.head?_cons]

end UniqueKeys

section ModifyFirst

variable {α κ : Type}

/-- Where the key does not repeat, editing the first entry with a key edits every such entry. -/
theorem modifyFirst_eq_map [DecidableEq κ] (key : α → κ) (k : κ) (f : α → α) (l : List α)
    (h : (l.map key).Nodup) :
    modifyFirst (fun a => key a == k) f l = l.map fun a => if key a = k then f a else a := by
  induction l with
  | nil => rfl
  | cons a l ih =>
    rw [List.map_cons, List.nodup_cons] at h
    rw [modifyFirst, List.map_cons]
    by_cases ha : key a = k
    · have hrest : (l.map fun b => if key b = k then f b else b) = l.map id := by
        refine List.map_congr_left fun b hb => if_neg fun hbk => ?_
        exact h.1 (List.mem_map.mpr ⟨b, hb, hbk.trans ha.symm⟩)
      simp [ha, hrest]
    · simp [ha, ih h.2]

/-- An edit that keeps a key keeps the keys of the list. -/
theorem map_modifyFirst {key : α → κ} {f : α → α} (p : α → Bool)
    (h : ∀ a, p a = true → key (f a) = key a) (l : List α) :
    (modifyFirst p f l).map key = l.map key := by
  induction l with
  | nil => rfl
  | cons a l ih =>
    rw [modifyFirst]
    split_ifs with ha
    · rw [List.map_cons, List.map_cons, h a ha]
    · rw [List.map_cons, List.map_cons, ih]

/-- A search that finds nothing edits nothing. -/
theorem modifyFirst_eq_self {α : Type} {p : α → Bool} {f : α → α} {l : List α}
    (h : ∀ a ∈ l, p a = false) : modifyFirst p f l = l := by
  induction l with
  | nil => rfl
  | cons a l ih =>
    rw [List.forall_mem_cons] at h
    rw [modifyFirst, if_neg (Bool.eq_false_iff.mp h.1), ih h.2]

end ModifyFirst

end BoxArrow
