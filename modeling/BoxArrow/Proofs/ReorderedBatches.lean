import BoxArrow.Proofs.Batches

/-!
# Batches in another order

Two changes that ask for different names do not get in each other's way. Each of them looks for an
entry by its name, and whatever the other one does, it neither adds nor removes an entry of that
name, nor puts two such entries in another order. So neighbours in a batch may change places as long
as they ask for different names. By such steps a batch can be brought into every order that leaves
the changes of each single element in theirs, and all of these orders make the same of a graph.
Entries are taken out at other times, so that what is handed back may come in another order.

Nothing is asked of the graph. Where several elements share an id, the changes that name it are for
the first of them, then for the next when this one is taken out, and this too is only a matter of
the changes of that id.

## Main definitions

* `BoxArrow.ChangeKind.Reordered` — batches that differ by such steps.
* `BoxArrow.ChangeKind.missed` — how many changes of a batch find nothing to change.

## Main results

* `BoxArrow.ChangeKind.reordered_of_filter_eq` — the orders that can be reached.
* `BoxArrow.ChangeKind.after_comm`, `BoxArrow.ChangeKind.taken_after_of_ne` — two changes in a row.
* `BoxArrow.Graph.applyChanges_reordered` — what does not depend on the order of a batch.
-/

namespace BoxArrow

open scoped List

namespace ChangeKind

variable {α γ : Type} {k : ChangeKind α γ} {c d : γ} {cs ds : List γ}

/-! ### Orders of a batch -/

/-- A batch and the same batch in another order, reached by steps in which two neighbours that ask
for different names change places. -/
inductive Reordered (k : ChangeKind α γ) : List γ → List γ → Prop
  | refl (cs : List γ) : Reordered k cs cs
  | cons (c : γ) {cs ds : List γ} (tail : Reordered k cs ds) : Reordered k (c :: cs) (c :: ds)
  | swap (c d : γ) (cs : List γ) (hne : k.target c ≠ k.target d) :
      Reordered k (c :: d :: cs) (d :: c :: cs)
  | trans {cs ds es : List γ} (left : Reordered k cs ds) (right : Reordered k ds es) :
      Reordered k cs es

/-- A change can wait until all changes of certain other names have had their turns. -/
theorem Reordered.cons_append {before rest : List γ}
    (hbefore : ∀ b ∈ before, k.target b ≠ k.target c) :
    k.Reordered (c :: (before ++ rest)) (before ++ c :: rest) := by
  induction before with
  | nil => exact .refl _
  | cons b before ih =>
    rw [List.forall_mem_cons] at hbefore
    exact .trans (.swap c b _ (Ne.symm hbefore.1)) (.cons b (ih hbefore.2))

/-- The orders that can be reached are those in which, for every name, the changes that ask for it
are the same ones in the same order. -/
theorem reordered_of_filter_eq
    (h : ∀ name, cs.filter (k.target · = name) = ds.filter (k.target · = name)) :
    k.Reordered cs ds := by
  induction cs generalizing ds with
  | nil =>
    have hds : ds = [] := by
      refine List.eq_nil_iff_forall_not_mem.mpr fun d hd => ?_
      have hmem : d ∈ ds.filter (k.target · = k.target d) := by simp [hd]
      rw [← h] at hmem
      exact List.not_mem_nil hmem
    rw [hds]
    exact .refl _
  | cons c cs ih =>
    have hfirst : ds.filter (k.target · = k.target c) = c :: cs.filter (k.target · = k.target c) := by
      rw [← h, List.filter_cons_of_pos (by simp)]
    obtain ⟨before, rest, rfl, hbefore, -, hrest⟩ := List.filter_eq_cons_iff.mp hfirst
    simp only [decide_eq_true_eq] at hbefore
    refine .trans (.cons c (ih fun name => ?_)) (.cons_append hbefore)
    rw [List.filter_append]
    by_cases hname : k.target c = name
    · subst hname
      have hnone : before.filter (k.target · = k.target c) = [] := by simpa using hbefore
      rw [hnone, hrest, List.nil_append]
    · have hname' := h name
      rwa [List.filter_cons_of_neg (by simpa using hname), List.filter_append,
        List.filter_cons_of_neg (by simpa using hname)] at hname'

theorem Reordered.length_eq (h : k.Reordered cs ds) : cs.length = ds.length := by
  induction h with
  | refl => rfl
  | cons c _ ih => rw [List.length_cons, List.length_cons, ih]
  | swap => rfl
  | trans _ _ ih₁ ih₂ => exact ih₁.trans ih₂

/-! ### Two changes in a row -/

theorem name_of_mem_update {a b : α} (hb : b ∈ (k.update c a).toList) : k.name b = k.name a :=
  k.name_update (Option.mem_toList.mp hb)

/-- The turns of two changes that ask for different names can be exchanged. -/
theorem after_comm (hne : k.target c ≠ k.target d) (l : List α) :
    k.after d (k.after c l) = k.after c (k.after d l) := by
  induction l with
  | nil => rfl
  | cons a l ih =>
    by_cases hc : k.name a = k.target c
    · have hd : k.name a ≠ k.target d := hc ▸ hne
      have hrest : ∀ b ∈ (k.update c a).toList, k.name b ≠ k.target d :=
        fun b hb => (name_of_mem_update hb).trans_ne hd
      simp only [after, if_pos hc, if_neg hd, after_append_of_ne hrest]
    · by_cases hd : k.name a = k.target d
      · have hrest : ∀ b ∈ (k.update d a).toList, k.name b ≠ k.target c :=
          fun b hb => (name_of_mem_update hb).trans_ne hc
        simp only [after, if_neg hc, if_pos hd, after_append_of_ne hrest]
      · simp only [after, if_neg hc, if_neg hd, ih]

/-- What a change takes out is found among the entries of its name. -/
theorem taken_filter (c : γ) (l : List α) :
    k.taken c (l.filter (k.name · = k.target c)) = k.taken c l := by
  induction l with
  | nil => rfl
  | cons a l ih =>
    by_cases hc : k.name a = k.target c
    · rw [List.filter_cons_of_pos (by simpa using hc), taken, if_pos hc, taken, if_pos hc]
    · rw [List.filter_cons_of_neg (by simpa using hc), taken, if_neg hc, ih]

/-- The entries of a name are those that changes of another name leave. -/
theorem filter_after_of_ne (hne : k.target c ≠ k.target d) (l : List α) :
    (k.after d l).filter (k.name · = k.target c) = l.filter (k.name · = k.target c) :=
  filter_after (fun _ ha => decide_eq_false fun hc => hne (hc.symm.trans ha)) l

theorem taken_after_of_ne (hne : k.target c ≠ k.target d) (l : List α) :
    k.taken c (k.after d l) = k.taken c l := by
  rw [← taken_filter, filter_after_of_ne hne, taken_filter]

/-- Whether a change finds an entry does not depend on changes of other names. -/
theorem mem_after_of_ne (hne : k.target c ≠ k.target d) (l : List α) :
    k.target c ∈ (k.after d l).map k.name ↔ k.target c ∈ l.map k.name := by
  have hfilter (l : List α) :
      k.target c ∈ l.map k.name ↔ l.filter (k.name · = k.target c) ≠ [] := by
    simp [List.filter_eq_nil_iff]
  rw [hfilter, hfilter, filter_after_of_ne hne]

/-! ### Whole batches -/

variable (k) in
/-- How many changes of a batch find no entry of their name in their turns. -/
def missed : List γ → List α → Nat
  | [], _ => 0
  | c :: cs, l => (if k.target c ∈ l.map k.name then 0 else 1) + missed cs (k.after c l)

/-- In another order, a batch leaves the same list. -/
theorem Reordered.afterAll_eq (h : k.Reordered cs ds) (l : List α) :
    k.afterAll cs l = k.afterAll ds l := by
  induction h generalizing l with
  | refl => rfl
  | cons c _ ih => rw [afterAll_cons, afterAll_cons, ih]
  | swap c d cs hne => simp only [afterAll_cons, after_comm hne]
  | trans _ _ ih₁ ih₂ => rw [ih₁, ih₂]

/-- In another order, a batch takes out the same entries. -/
theorem Reordered.perm_takenAll (h : k.Reordered cs ds) (l : List α) :
    k.takenAll cs l ~ k.takenAll ds l := by
  induction h generalizing l with
  | refl => exact .refl _
  | cons c _ ih => exact (ih _).append_left _
  | swap c d cs hne =>
    simp only [takenAll, taken_after_of_ne hne, taken_after_of_ne hne.symm, after_comm hne]
    rw [← List.append_assoc, ← List.append_assoc]
    exact List.perm_append_comm.append_right _
  | trans _ _ ih₁ ih₂ => exact (ih₁ l).trans (ih₂ l)

/-- In another order, as many changes of a batch find nothing to change. -/
theorem Reordered.missed_eq (h : k.Reordered cs ds) (l : List α) :
    k.missed cs l = k.missed ds l := by
  induction h generalizing l with
  | refl => rfl
  | cons c _ ih => rw [missed, missed, ih]
  | swap c d cs hne =>
    simp only [missed, mem_after_of_ne hne, mem_after_of_ne hne.symm, after_comm hne]
    omega
  | trans _ _ ih₁ ih₂ => rw [ih₁, ih₂]

end ChangeKind

namespace Graph

variable (g : Graph) (c : ChangeSet)

/-! ### Batches from the editor -/

theorem skipped_foldl_applyNodeChange (s : Graph × ChangeOutcome) (cs : List NodeChange) :
    (cs.foldl applyNodeChange s).2.skipped =
      s.2.skipped + NodeChange.kind.missed cs s.1.nodes := by
  induction cs generalizing s with
  | nil => rfl
  | cons d cs ih =>
    rw [List.foldl_cons, ih, applyNodeChange_eq, ChangeKind.missed, ← Nat.add_assoc]
    rfl

theorem skipped_foldl_applyEdgeChange (s : Graph × ChangeOutcome) (cs : List EdgeChange) :
    (cs.foldl applyEdgeChange s).2.skipped =
      s.2.skipped + EdgeChange.kind.missed cs s.1.edges := by
  induction cs generalizing s with
  | nil => rfl
  | cons d cs ih =>
    rw [List.foldl_cons, ih, applyEdgeChange_eq, ChangeKind.missed, ← Nat.add_assoc]
    rfl

/-- The changes that are skipped are those that find nothing to change. -/
theorem skipped_applyChanges :
    (g.applyChanges c).2.skipped =
      NodeChange.kind.missed c.nodes g.nodes + EdgeChange.kind.missed c.edges g.edges := by
  change (c.edges.foldl applyEdgeChange (c.nodes.foldl applyNodeChange (g, .start))).2.skipped = _
  rw [skipped_foldl_applyEdgeChange, skipped_foldl_applyNodeChange, (foldl_applyNodeChange _ _).1]
  exact congrArg (· + _) (Nat.zero_add _)

variable {c} {c' : ChangeSet}

/-- Only the order of changes of the same element matters. Two batches in which, for every id, the
same changes of nodes and the same changes of edges name it, each in the same order, leave the same
graph. As many of their changes are applied and as many skipped, and the same nodes and edges are
handed back, up to their order. -/
theorem applyChanges_reordered (g : Graph)
    (hnodes : ∀ id, c.nodes.filter (·.id = id) = c'.nodes.filter (·.id = id))
    (hedges : ∀ id, c.edges.filter (·.id = id) = c'.edges.filter (·.id = id)) :
    (g.applyChanges c).1 = (g.applyChanges c').1 ∧
      (g.applyChanges c).2.applied = (g.applyChanges c').2.applied ∧
      (g.applyChanges c).2.skipped = (g.applyChanges c').2.skipped ∧
      (g.applyChanges c).2.removed.nodes ~ (g.applyChanges c').2.removed.nodes ∧
      (g.applyChanges c).2.removed.edges ~ (g.applyChanges c').2.removed.edges := by
  have hn : NodeChange.kind.Reordered c.nodes c'.nodes := ChangeKind.reordered_of_filter_eq hnodes
  have he : EdgeChange.kind.Reordered c.edges c'.edges := ChangeKind.reordered_of_filter_eq hedges
  have hgraph : (g.applyChanges c).1 = (g.applyChanges c').1 := by
    rw [applyChanges_fst, applyChanges_fst, changed, changed, hn.afterAll_eq, he.afterAll_eq]
  have hskipped : (g.applyChanges c).2.skipped = (g.applyChanges c').2.skipped := by
    rw [skipped_applyChanges, skipped_applyChanges, hn.missed_eq, he.missed_eq]
  refine ⟨hgraph, ?_, hskipped, ?_, ?_⟩
  · have hcount := applied_add_skipped g c
    have hcount' := applied_add_skipped g c'
    have hlength := hn.length_eq
    have hlength' := he.length_eq
    omega
  · rw [removedNodes_applyChanges, removedNodes_applyChanges]
    exact hn.perm_takenAll g.nodes
  · rw [removedEdges_applyChanges, removedEdges_applyChanges, hgraph, he.afterAll_eq]
    exact (he.perm_takenAll g.edges).append_right _

/-- Two nodes share an id, and both are taken out, with a change between that meets the second. The
edges are handed back in another order. -/
theorem applyChanges_reordered_namesakes :
    let g : Graph := { ring with nodes := ring.nodes ++ [Node.fresh "b" "B again" ⟨0, 0⟩] }
    let c : ChangeSet :=
      ⟨[.dimensions "c" (some ⟨1, 1⟩), .remove "b", .position "a" (some ⟨1, 2⟩), .select "b" true,
          .remove "b", .position "a" none],
        [.remove "c-a", .remove "b-c", .select "a-b" true, .select "a-b" false,
          .select "b-c" true]⟩
    (∀ id, muddle.nodes.filter (·.id = id) = c.nodes.filter (·.id = id)) ∧
      (∀ id, muddle.edges.filter (·.id = id) = c.edges.filter (·.id = id)) ∧
      (g.applyChanges muddle).1 = (g.applyChanges c).1 ∧
      (g.applyChanges muddle).2.applied = 10 ∧ (g.applyChanges c).2.applied = 10 ∧
      (g.applyChanges muddle).2.skipped = 1 ∧ (g.applyChanges c).2.skipped = 1 ∧
      (g.applyChanges c).2.removed.nodes.map (·.label) = ["B", "B again"] ∧
      (g.applyChanges muddle).2.removed.edges.map (·.id) = ["b-c", "c-a", "a-b"] ∧
      (g.applyChanges c).2.removed.edges.map (·.id) = ["c-a", "b-c", "a-b"] ∧
      (g.applyChanges muddle).2.removed.edges ~ (g.applyChanges c).2.removed.edges := by
  intro g c
  have hnodes (id : String) : muddle.nodes.filter (·.id = id) = c.nodes.filter (·.id = id) := by
    by_cases hid : id ∈ ["a", "b", "c"]
    · simp only [List.mem_cons, List.not_mem_nil, or_false] at hid
      rcases hid with rfl | rfl | rfl <;> rfl
    · simp_all [muddle, c, NodeChange.id, eq_comm]
  have hedges (id : String) : muddle.edges.filter (·.id = id) = c.edges.filter (·.id = id) := by
    by_cases hid : id ∈ ["a-b", "b-c", "c-a"]
    · simp only [List.mem_cons, List.not_mem_nil, or_false] at hid
      rcases hid with rfl | rfl | rfl <;> rfl
    · simp_all [muddle, c, EdgeChange.id, eq_comm]
  obtain ⟨hgraph, happlied, hskipped, -, hremoved⟩ := applyChanges_reordered g hnodes hedges
  have hten : (g.applyChanges muddle).2.applied = 10 := by decide +kernel
  have hone : (g.applyChanges muddle).2.skipped = 1 := by decide +kernel
  exact ⟨hnodes, hedges, hgraph, hten, happlied.symm.trans hten, hone, hskipped.symm.trans hone,
    by decide +kernel, by decide +kernel, by decide +kernel, hremoved⟩

end Graph

end BoxArrow
