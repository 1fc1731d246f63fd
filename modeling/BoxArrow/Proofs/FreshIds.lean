import BoxArrow.Graph.Edit
import Mathlib.Data.List.Nodup
import Mathlib.Data.List.Perm.Subperm
import Mathlib.Data.Nat.Find

/-!
# Free ids

An element made by hand gets the first id that is free: the one of its time stamp, or where that is
taken the one with the smallest number added to it. Different numbers give different ids, so that
among one candidate more than there are taken ids some candidate is free, and the bounded search
finds the first such.

## Main results

* `BoxArrow.numbered_injective` — candidates with different numbers are different.
* `BoxArrow.firstFree_eq_numbered` — the search stops at the first free candidate.
* `BoxArrow.freshId_notMem` — the id that is found is free.
-/

namespace BoxArrow

variable {taken : List String} {base : String}

/-! ### Candidates -/

theorem repr_injective : Function.Injective Nat.repr := by
  intro m n h
  have hdigits : Nat.toDigits 10 m = Nat.toDigits 10 n := by
    rw [← Nat.toList_repr, ← Nat.toList_repr, h]
  rw [← Nat.ofDigitChars_toDigits (n := m) (by decide) (Nat.le_refl 10), hdigits,
    Nat.ofDigitChars_toDigits (by decide) (Nat.le_refl 10)]

/-- Candidates with different numbers are different. -/
theorem numbered_injective (base : String) : Function.Injective (numbered base) := by
  intro m n h
  have hlist := congrArg String.toList h
  simp only [numbered, toString, String.toList_append, List.append_assoc,
    List.append_cancel_left_eq, String.toList_inj] at hlist
  exact repr_injective hlist

/-- Among one candidate more than there are taken ids, some candidate is free. -/
theorem exists_numbered_notMem (taken : List String) (base : String) (n : Nat) :
    ∃ k, n ≤ k ∧ k ≤ n + taken.length ∧ numbered base k ∉ taken := by
  by_contra! hall
  have hnodup : ((List.range' n (taken.length + 1)).map (numbered base)).Nodup :=
    List.Nodup.map (numbered_injective base) List.nodup_range'
  have hsub : (List.range' n (taken.length + 1)).map (numbered base) ⊆ taken := by
    intro id hid
    obtain ⟨k, hk, rfl⟩ := List.mem_map.mp hid
    rw [List.mem_range'_1] at hk
    exact hall k hk.1 (by omega)
  have hlength := (List.subperm_of_subset hnodup hsub).length_le
  rw [List.length_map, List.length_range'] at hlength
  omega

/-! ### The search -/

/-- The search stops at the first free candidate, provided that it is allowed to go that far. -/
theorem firstFree_eq_numbered {n k tries : Nat} (hfrom : n ≤ k) (hto : k ≤ n + tries)
    (hbefore : ∀ j, n ≤ j → j < k → numbered base j ∈ taken) (hfree : numbered base k ∉ taken) :
    firstFree taken base n tries = numbered base k := by
  induction tries generalizing n with
  | zero =>
    obtain rfl : n = k := by omega
    rfl
  | succ tries ih =>
    rw [firstFree]
    by_cases hn : n = k
    · subst hn
      rw [if_neg (fun htaken => hfree (List.contains_iff_mem.mp htaken))]
    · rw [if_pos (List.contains_iff_mem.mpr (hbefore n (Nat.le_refl n) (by omega)))]
      exact ih (by omega) (by omega) fun j hj hjk => hbefore j (by omega) hjk

/-- The search among as many candidates as there are taken ids ends at the first free one. -/
theorem exists_firstFree_eq (taken : List String) (base : String) (n : Nat) :
    ∃ k, n ≤ k ∧ (∀ j, n ≤ j → j < k → numbered base j ∈ taken) ∧ numbered base k ∉ taken ∧
      firstFree taken base n taken.length = numbered base k := by
  classical
  have hex := exists_numbered_notMem taken base n
  obtain ⟨hfrom, hto, hfree⟩ := Nat.find_spec hex
  have hbefore : ∀ j, n ≤ j → j < Nat.find hex → numbered base j ∈ taken := by
    intro j hj hjk
    by_contra hfree'
    exact Nat.find_min hex hjk ⟨hj, by omega, hfree'⟩
  exact ⟨_, hfrom, hbefore, hfree, firstFree_eq_numbered hfrom hto hbefore hfree⟩

/-- The id of an element made by hand is its kind, a hyphen and its stamp, or this with a number
behind it. -/
theorem freshId_eq_or_eq_numbered (kind : String) (stamp : Nat) (taken : List String) :
    freshId kind stamp taken = numbered kind stamp ∨
      ∃ k, freshId kind stamp taken = numbered (numbered kind stamp) k := by
  rw [freshId]
  split_ifs with h
  · obtain ⟨k, -, -, -, hfound⟩ := exists_firstFree_eq taken s!"{kind}-{stamp}" 1
    exact .inr ⟨k, hfound⟩
  · exact .inl rfl

/-- The id that is found for an element made by hand is free. -/
theorem freshId_notMem (kind : String) (stamp : Nat) (taken : List String) :
    freshId kind stamp taken ∉ taken := by
  rw [freshId]
  split_ifs with h
  · obtain ⟨k, -, -, hfree, hfound⟩ := exists_firstFree_eq taken s!"{kind}-{stamp}" 1
    rw [hfound]
    exact hfree
  · exact fun hmem => h (List.contains_iff_mem.mpr hmem)

end BoxArrow
