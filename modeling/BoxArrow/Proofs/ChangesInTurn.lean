import Mathlib.Data.List.Nodup
import Mathlib.Data.List.Perm.Basic

/-!
# Changes of a list in turn

A batch from the editor changes two lists, that of the nodes and that of the edges, and it does so
in the same way: one change after the other, each for the first entry that has the name which the
change asks for. The entry is replaced in its place, or it is taken out. This file is about such
batches on lists of any kind.

Through all turns, the entries that stay and those taken out are together the entries from before,
but for what changes are there to change; those that stay do so in their order, and those that no
change asks for stay as they are. Where no two entries share a name, each of them goes its own way
through the batch, which depends on no other entry.

## Main definitions

* `BoxArrow.turns` — the changes of a batch, each with the state that it meets.
* `BoxArrow.ChangeKind` — names of entries, names that changes ask for, and what changes do.
* `BoxArrow.ChangeKind.after`, `BoxArrow.ChangeKind.taken` — the turn of one change.
* `BoxArrow.ChangeKind.afterAll`, `BoxArrow.ChangeKind.takenAll` — the turns of a batch.
* `BoxArrow.ChangeKind.fate` — what a batch makes of one entry.

## Main results

* `BoxArrow.foldl_eq_add_countP_turns` — counting along a batch.
* `BoxArrow.ChangeKind.perm_afterAll` — nothing is lost and nothing invented.
* `BoxArrow.ChangeKind.afterAll_sublist`, `BoxArrow.ChangeKind.filter_afterAll` — what stays is in
  order, and unchanged where no change asks for it.
* `BoxArrow.ChangeKind.afterAll_eq_filterMap` — entries without a namesake go their own ways.
-/

namespace BoxArrow

open scoped List

/-! ### Counting along a batch -/

section Turns

variable {σ γ : Type} {f : σ → γ → σ} {m : σ → Nat}

/-- The changes of a batch, each with the state that it meets in its turn. -/
def turns (f : σ → γ → σ) (s : σ) (cs : List γ) : List (γ × σ) :=
  cs.zip (cs.scanl f s)

theorem turns_cons (s : σ) (c : γ) (cs : List γ) :
    turns f s (c :: cs) = (c, s) :: turns f (f s c) cs := by
  rw [turns, List.scanl_cons, List.zip_cons_cons, turns]

/-- A number that goes up at the turns of some kind has gone up once for each of them. -/
theorem foldl_eq_add_countP_turns {p : γ × σ → Bool}
    (h : ∀ s c, m (f s c) = m s + if p (c, s) then 1 else 0) (s : σ) (cs : List γ) :
    m (cs.foldl f s) = m s + (turns f s cs).countP p := by
  induction cs generalizing s with
  | nil => rfl
  | cons c cs ih =>
    rw [List.foldl_cons, ih, h, turns_cons, List.countP_cons, Nat.add_assoc,
      Nat.add_comm (List.countP p _)]

/-- A number that goes up at every turn has gone up by the number of changes. -/
theorem foldl_eq_add_length (h : ∀ s c, m (f s c) = m s + 1) (s : σ) (cs : List γ) :
    m (cs.foldl f s) = m s + cs.length := by
  induction cs generalizing s with
  | nil => rfl
  | cons c cs ih => rw [List.foldl_cons, ih, h, List.length_cons, Nat.add_assoc, Nat.add_comm 1]

end Turns

/-- A kind of changes of the entries of a list. An entry that stays keeps its name. -/
structure ChangeKind (α γ : Type) where
  /-- The name of an entry. -/
  name : α → String
  /-- The name that a change asks for. -/
  target : γ → String
  /-- What a change makes of an entry, or nothing where it takes the entry out. -/
  update : γ → α → Option α
  name_update : ∀ {c : γ} {a b : α}, update c a = some b → name b = name a

namespace ChangeKind

variable {α β γ : Type} (k : ChangeKind α γ)

/-- No change of the kind touches this part of an entry. -/
def Keeps (f : α → β) : Prop :=
  ∀ ⦃c : γ⦄ ⦃a b : α⦄, k.update c a = some b → f b = f a

theorem keeps_name : k.Keeps k.name :=
  fun _ _ _ h => k.name_update h

/-! ### One change -/

/-- The list after the turn of a change. -/
def after (c : γ) : List α → List α
  | [] => []
  | a :: l => if k.name a = k.target c then (k.update c a).toList ++ l else a :: after c l

/-- What a change takes out in its turn: one entry or none. -/
def taken (c : γ) : List α → List α
  | [] => []
  | a :: l =>
    if k.name a = k.target c then (if (k.update c a).isSome then [] else [a]) else taken c l

/-- What a change makes of an entry that it may or may not ask for. -/
def turn (a : α) (c : γ) : Option α :=
  if k.name a = k.target c then k.update c a else some a

variable {k} {f : α → β} {c : γ} {l : List α}

/-- A change that asks for a name which no entry has does nothing in its turn. -/
theorem after_of_notMem (h : k.target c ∉ l.map k.name) : k.after c l = l := by
  induction l with
  | nil => rfl
  | cons a l ih =>
    rw [List.map_cons, List.mem_cons, not_or] at h
    rw [after, if_neg (Ne.symm h.1), ih h.2]

theorem taken_of_notMem (h : k.target c ∉ l.map k.name) : k.taken c l = [] := by
  induction l with
  | nil => rfl
  | cons a l ih =>
    rw [List.map_cons, List.mem_cons, not_or] at h
    rw [taken, if_neg (Ne.symm h.1), ih h.2]

/-- A change passes over entries of other names. -/
theorem after_append_of_ne {before : List α} (hbefore : ∀ b ∈ before, k.name b ≠ k.target c)
    (l : List α) : k.after c (before ++ l) = before ++ k.after c l := by
  induction before with
  | nil => rfl
  | cons b before ih =>
    rw [List.forall_mem_cons] at hbefore
    rw [List.cons_append, after, if_neg hbefore.1, ih hbefore.2, List.cons_append]

/-- A change is for the first entry of its name, in the place of this entry. -/
theorem after_append_cons {before rest : List α} {a : α}
    (hbefore : ∀ b ∈ before, k.name b ≠ k.target c) (ha : k.name a = k.target c) :
    k.after c (before ++ a :: rest) = before ++ ((k.update c a).toList ++ rest) := by
  rw [after_append_of_ne hbefore, after, if_pos ha]

theorem taken_append_cons {before rest : List α} {a : α}
    (hbefore : ∀ b ∈ before, k.name b ≠ k.target c) (ha : k.name a = k.target c) :
    k.taken c (before ++ a :: rest) = if (k.update c a).isSome then [] else [a] := by
  induction before with
  | nil => exact if_pos ha
  | cons b before ih =>
    rw [List.forall_mem_cons] at hbefore
    rw [List.cons_append, taken, if_neg hbefore.1, ih hbefore.2]

/-- What stays and what is taken out are together what was there. -/
theorem perm_after (hf : k.Keeps f) (c : γ) (l : List α) :
    (k.after c l ++ k.taken c l).map f ~ l.map f := by
  induction l with
  | nil => exact List.Perm.refl _
  | cons a l ih =>
    rw [after, taken]
    split_ifs with hname hstays
    · obtain ⟨b, hb⟩ := Option.isSome_iff_exists.mp hstays
      rw [hb, List.append_nil, Option.toList_some, List.singleton_append, List.map_cons,
        List.map_cons, hf hb]
    · rw [Option.not_isSome_iff_eq_none.mp hstays, Option.toList_none, List.nil_append]
      exact List.perm_append_comm.map f
    · exact ih.cons (f a)

/-- What stays does so in its order. -/
theorem after_sublist (hf : k.Keeps f) (c : γ) (l : List α) :
    (k.after c l).map f <+ l.map f := by
  induction l with
  | nil => exact List.Sublist.refl _
  | cons a l ih =>
    rw [after]
    split_ifs with hname
    · cases hup : k.update c a with
      | none => exact List.sublist_cons_self _ _
      | some b =>
        rw [Option.toList_some, List.singleton_append, List.map_cons, List.map_cons, hf hup]
    · exact ih.cons_cons _

/-- Entries of other names stay as they are. -/
theorem filter_after {p : α → Bool} (hp : ∀ a, k.name a = k.target c → p a = false) (l : List α) :
    (k.after c l).filter p = l.filter p := by
  induction l with
  | nil => rfl
  | cons a l ih =>
    rw [after]
    split_ifs with hname
    · have hrest : (k.update c a).toList.filter p = [] := by
        rw [List.filter_eq_nil_iff]
        intro b hb
        rw [hp b ((k.name_update (Option.mem_toList.mp hb)).trans hname)]
        exact Bool.false_ne_true
      rw [List.filter_append, hrest, List.nil_append, List.filter_cons, hp a hname]
      rfl
    · rw [List.filter_cons, List.filter_cons, ih]

theorem filter_taken {p : α → Bool} (hp : ∀ a, k.name a = k.target c → p a = false) (l : List α) :
    (k.taken c l).filter p = [] := by
  induction l with
  | nil => rfl
  | cons a l ih =>
    rw [taken]
    split_ifs with hname hstays
    · rfl
    · rw [List.filter_singleton, hp a hname]
      rfl
    · exact ih

theorem turn_of_ne {a : α} (h : k.name a ≠ k.target c) : k.turn a c = some a :=
  if_neg h

theorem Keeps.turn (hf : k.Keeps f) {a b : α} (h : k.turn a c = some b) : f b = f a := by
  rw [ChangeKind.turn] at h
  split_ifs at h with hname
  · exact hf h
  · rw [Option.some.inj h]

/-- Where no two entries share a name, a change is for all entries of its name. -/
theorem after_eq_filterMap (h : (l.map k.name).Nodup) (c : γ) :
    k.after c l = l.filterMap (k.turn · c) := by
  induction l with
  | nil => rfl
  | cons a l ih =>
    rw [List.map_cons, List.nodup_cons] at h
    rw [after, List.filterMap_cons]
    split_ifs with hname
    · have hrest : l.filterMap (k.turn · c) = l := by
        rw [← ih h.2]
        exact after_of_notMem (hname ▸ h.1)
      have hturn : k.turn a c = k.update c a := if_pos hname
      rw [hrest, hturn]
      cases k.update c a <;> rfl
    · rw [turn_of_ne hname, ih h.2]

/-! ### A batch -/

variable (k) in
/-- The list after all turns of a batch. -/
def afterAll (cs : List γ) (l : List α) : List α :=
  cs.foldl (fun l c => k.after c l) l

variable (k) in
/-- What the changes of a batch take out in their turns, in this order. -/
def takenAll : List γ → List α → List α
  | [], _ => []
  | c :: cs, l => k.taken c l ++ takenAll cs (k.after c l)

theorem afterAll_cons (c : γ) (cs : List γ) (l : List α) :
    k.afterAll (c :: cs) l = k.afterAll cs (k.after c l) :=
  rfl

theorem afterAll_append (cs ds : List γ) (l : List α) :
    k.afterAll (cs ++ ds) l = k.afterAll ds (k.afterAll cs l) :=
  List.foldl_append

theorem takenAll_append (cs ds : List γ) (l : List α) :
    k.takenAll (cs ++ ds) l = k.takenAll cs l ++ k.takenAll ds (k.afterAll cs l) := by
  induction cs generalizing l with
  | nil => rfl
  | cons c cs ih => rw [List.cons_append, takenAll, takenAll, ih, List.append_assoc, afterAll_cons]

/-- Nothing is lost and nothing invented: what stays and what is taken out are together what was
there. -/
theorem perm_afterAll (hf : k.Keeps f) (cs : List γ) (l : List α) :
    (k.afterAll cs l ++ k.takenAll cs l).map f ~ l.map f := by
  induction cs generalizing l with
  | nil => rw [takenAll, List.append_nil, afterAll, List.foldl_nil]
  | cons c cs ih =>
    have hrest := (ih (k.after c l)).append_right ((k.taken c l).map f)
    have hfirst := perm_after hf c l
    rw [← List.map_append] at hrest
    rw [List.map_append] at hfirst
    refine List.Perm.trans ?_ (hrest.trans hfirst)
    rw [afterAll_cons, takenAll, List.append_assoc]
    exact (List.perm_append_comm.append_left _).map f

theorem afterAll_sublist (hf : k.Keeps f) (cs : List γ) (l : List α) :
    (k.afterAll cs l).map f <+ l.map f := by
  induction cs generalizing l with
  | nil => exact List.Sublist.refl _
  | cons c cs ih => exact (ih _).trans (after_sublist hf c l)

section Unasked

variable {p : α → Bool} {cs : List γ}

/-- Entries that no change asks for stay as they are. -/
theorem filter_afterAll (hp : ∀ a, k.name a ∈ cs.map k.target → p a = false) (l : List α) :
    (k.afterAll cs l).filter p = l.filter p := by
  induction cs generalizing l with
  | nil => rfl
  | cons c cs ih =>
    rw [afterAll_cons, ih fun a ha => hp a (List.mem_cons_of_mem _ ha)]
    exact filter_after (fun a ha => hp a (ha ▸ List.mem_cons_self)) l

theorem filter_takenAll (hp : ∀ a, k.name a ∈ cs.map k.target → p a = false) (l : List α) :
    (k.takenAll cs l).filter p = [] := by
  induction cs generalizing l with
  | nil => rfl
  | cons c cs ih =>
    rw [takenAll, List.filter_append, ih fun a ha => hp a (List.mem_cons_of_mem _ ha),
      List.append_nil]
    exact filter_taken (fun a ha => hp a (ha ▸ List.mem_cons_self)) l

end Unasked

/-! ### The way of one entry -/

variable (k) in
/-- What a batch makes of one entry, or nothing where it takes the entry out. -/
def fate (cs : List γ) (a : α) : Option α :=
  cs.foldlM k.turn a

variable {a b : α} {cs : List γ}

theorem fate_cons : k.fate (c :: cs) a = (k.turn a c).bind (k.fate cs) :=
  List.foldlM_cons

theorem fate_append {ds : List γ} : k.fate (cs ++ ds) a = (k.fate cs a).bind (k.fate ds) :=
  List.foldlM_append

theorem Keeps.fate (hf : k.Keeps f) (h : k.fate cs a = some b) : f b = f a := by
  induction cs generalizing a with
  | nil => rw [Option.some.inj h]
  | cons c cs ih =>
    rw [fate_cons, Option.bind_eq_some_iff] at h
    obtain ⟨d, hturn, hrest⟩ := h
    exact (ih hrest).trans (hf.turn hturn)

/-- Where no two entries share a name, each of them goes its own way through a batch. -/
theorem afterAll_eq_filterMap (h : (l.map k.name).Nodup) (cs : List γ) :
    k.afterAll cs l = l.filterMap (k.fate cs) := by
  induction cs generalizing l with
  | nil => exact List.filterMap_some.symm
  | cons c cs ih =>
    have hrest : ((k.after c l).map k.name).Nodup := h.sublist (after_sublist k.keeps_name c l)
    rw [afterAll_cons, ih hrest, after_eq_filterMap h, List.filterMap_filterMap]
    exact List.filterMap_congr fun a _ => fate_cons.symm

/-- Entries can be left out before a batch or after it, when they are told apart by something that
no change touches. -/
theorem filterMap_fate_filter {p : α → Bool} (hp : k.Keeps p) (cs : List γ) (l : List α) :
    (l.filter p).filterMap (k.fate cs) = (l.filterMap (k.fate cs)).filter p := by
  rw [List.filterMap_filter, List.filter_filterMap]
  refine List.filterMap_congr fun a _ => ?_
  cases hfate : k.fate cs a with
  | none => rw [ite_self, Option.filter_none]
  | some b => rw [Option.filter_some, hp.fate hfate]

/-- An entry is taken out by the changes that ask for its name and take entries out. -/
theorem fate_eq_none {removes : γ → Prop} (h : ∀ c a, k.update c a = none ↔ removes c) :
    k.fate cs a = none ↔ ∃ c ∈ cs, k.target c = k.name a ∧ removes c := by
  induction cs generalizing a with
  | nil => exact iff_of_false nofun nofun
  | cons c cs ih =>
    rw [fate_cons]
    simp only [List.mem_cons, exists_eq_or_imp]
    cases hturn : k.turn a c with
    | none =>
      rw [turn] at hturn
      split_ifs at hturn with hname
      exact iff_of_true rfl (.inl ⟨hname.symm, (h c a).mp hturn⟩)
    | some b =>
      have hstays : ¬(k.target c = k.name a ∧ removes c) := by
        rintro ⟨hname, hremoves⟩
        rw [turn, if_pos hname.symm, (h c a).mpr hremoves] at hturn
        exact absurd hturn nofun
      rw [Option.bind_some, ih, k.keeps_name.turn hturn, or_iff_right hstays]

end ChangeKind

end BoxArrow
