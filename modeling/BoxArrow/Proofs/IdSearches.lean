import BoxArrow.Proofs.Edits
import Mathlib.Order.Bounds.Basic

/-!
# The search for a free id

`freshId` comes with a bound on its search, which would hide a search that does not end. Here the
search is described as it goes, without that bound: it looks at the id of the time stamp, and where
that is taken it counts up from one until a candidate is free. Every candidate that it passes is the
id of another element, and so is the id of the time stamp. So the number at which it stops is not
greater than the number of elements, and a counter that can hold the latter does not overflow.

## Main definitions

* `BoxArrow.IsFirstFree` — the id that the search is for.
* `BoxArrow.ProbesFrom`, `BoxArrow.Probes` — the search, with the number of ids it looks at.

## Main results

* `BoxArrow.isFirstFree_freshId` — what the bounded search finds.
* `BoxArrow.le_length_of_isLeast` — no number is tried beyond that of the taken ids.
* `BoxArrow.IsFirstFree.exists_probes` — the search without a bound ends, and how soon.
* `BoxArrow.Graph.added_ids_are_first_free` — the ids of elements made by hand.
-/

namespace BoxArrow

variable {taken : List String} {base id id' : String} {limit n k p p' : Nat}

/-! ### The first free candidate -/

/-- The id is `base` where that is free, and else the free `base-n` with the smallest `n ≥ 1`. -/
def IsFirstFree (taken : List String) (base id : String) : Prop :=
  (base ∉ taken ∧ id = base) ∨
    base ∈ taken ∧ ∃ n, IsLeast {n | 1 ≤ n ∧ numbered base n ∉ taken} n ∧ id = numbered base n

/-- The bounded search finds the first free id. -/
theorem isFirstFree_freshId (kind : String) (stamp : Nat) (taken : List String) :
    IsFirstFree taken (numbered kind stamp) (freshId kind stamp taken) := by
  rw [freshId]
  split_ifs with h
  · obtain ⟨k, hone, hbefore, hfree, hfound⟩ := exists_firstFree_eq taken (numbered kind stamp) 1
    refine .inr ⟨List.contains_iff_mem.mp h, k, ⟨⟨hone, hfree⟩, fun n hn => ?_⟩, hfound⟩
    by_contra hlt
    exact hn.2 (hbefore n hn.1 (Nat.lt_of_not_le hlt))
  · exact .inl ⟨fun hmem => h (List.contains_iff_mem.mpr hmem), rfl⟩

theorem numbered_ne (base : String) (n : Nat) : numbered base n ≠ base := by
  intro h
  have hlength := congrArg String.length h
  have hhyphen : "-".length = 1 := rfl
  simp only [numbered, toString, String.length_append] at hlength
  omega

/-- Where the id without a number is taken, one taken id less is left for those with a number. -/
theorem le_length_of_isLeast (h : base ∈ taken)
    (hk : IsLeast {n | 1 ≤ n ∧ numbered base n ∉ taken} k) : k ≤ taken.length := by
  have hlength := List.length_erase_of_mem h
  have hpos := List.length_pos_of_mem h
  obtain ⟨m, hfrom, hto, hfree⟩ := exists_numbered_notMem (taken.erase base) base 1
  have hm : numbered base m ∉ taken := fun hmem =>
    hfree ((List.mem_erase_of_ne (numbered_ne base m)).mpr hmem)
  have hle : k ≤ m := hk.2 ⟨hfrom, hm⟩
  omega

/-! ### The search as it goes -/

/-- The search from the candidate with the number `n` on: it ends with the first free candidate,
after it has looked at `p` of them. Its counter has to stay below `limit`. -/
inductive ProbesFrom (taken : List String) (base : String) (limit : Nat) :
    Nat → Nat → String → Prop
  | free {n : Nat} (h : numbered base n ∉ taken) :
      ProbesFrom taken base limit n 1 (numbered base n)
  | next {n p : Nat} {id : String} (h : numbered base n ∈ taken) (hlimit : n + 1 < limit)
      (hrest : ProbesFrom taken base limit (n + 1) p id) :
      ProbesFrom taken base limit n (p + 1) id

/-- The whole search: it ends with a free id after it has looked at `p` ids. -/
inductive Probes (taken : List String) (base : String) (limit : Nat) : Nat → String → Prop
  | free (h : base ∉ taken) : Probes taken base limit 1 base
  | next {p : Nat} {id : String} (h : base ∈ taken)
      (hrest : ProbesFrom taken base limit 1 p id) : Probes taken base limit (p + 1) id

/-- A search ends in one way only. -/
theorem ProbesFrom.unique (h : ProbesFrom taken base limit n p id)
    (h' : ProbesFrom taken base limit n p' id') : p = p' ∧ id = id' := by
  induction h generalizing p' with
  | free hfree =>
    cases h' with
    | free => exact ⟨rfl, rfl⟩
    | next htaken => exact absurd htaken hfree
  | next htaken _ _ ih =>
    cases h' with
    | free hfree => exact absurd htaken hfree
    | next _ _ hrest =>
      obtain ⟨rfl, rfl⟩ := ih hrest
      exact ⟨rfl, rfl⟩

theorem Probes.unique (h : Probes taken base limit p id) (h' : Probes taken base limit p' id') :
    p = p' ∧ id = id' := by
  cases h with
  | free hfree =>
    cases h' with
    | free => exact ⟨rfl, rfl⟩
    | next htaken => exact absurd htaken hfree
  | next htaken hrest =>
    cases h' with
    | free hfree => exact absurd htaken hfree
    | next _ hrest' =>
      obtain ⟨rfl, rfl⟩ := hrest.unique hrest'
      exact ⟨rfl, rfl⟩

/-- The search passes the candidates that are taken, one look at each. -/
theorem probesFrom_numbered {d : Nat} (hlimit : n + d < limit)
    (hbefore : ∀ j, n ≤ j → j < n + d → numbered base j ∈ taken)
    (hfree : numbered base (n + d) ∉ taken) :
    ProbesFrom taken base limit n (d + 1) (numbered base (n + d)) := by
  induction d generalizing n with
  | zero => exact .free hfree
  | succ d ih =>
    have hmove : n + 1 + d = n + (d + 1) := by omega
    have hrest := ih (n := n + 1) (by omega) (fun j hj hjd => hbefore j (by omega) (by omega))
      (by rwa [hmove])
    rw [hmove] at hrest
    exact .next (hbefore n (Nat.le_refl n) (by omega)) (by omega) hrest

/-- The search ends, and only with the first free id, after at most one look more than there are
taken ids. Its counter stays below every limit that their number is below. -/
theorem IsFirstFree.exists_probes (h : IsFirstFree taken base id) :
    ∃ probes, probes ≤ taken.length + 1 ∧ ∀ limit, taken.length < limit → ∀ p id',
      Probes taken base limit p id' ↔ p = probes ∧ id' = id := by
  obtain ⟨probes, hle, hends⟩ : ∃ probes, probes ≤ taken.length + 1 ∧
      ∀ limit, taken.length < limit → Probes taken base limit probes id := by
    rcases h with ⟨hfree, rfl⟩ | ⟨htaken, k, hk, rfl⟩
    · exact ⟨1, by omega, fun _ _ => .free hfree⟩
    · have hle := le_length_of_isLeast htaken hk
      obtain ⟨⟨hone, hfree⟩, hleast⟩ := hk
      -- The counter starts at one, so that it moves one step less than the number it ends with.
      obtain ⟨d, rfl⟩ := Nat.exists_eq_add_of_le hone
      refine ⟨d + 1 + 1, by omega, fun limit hlimit => .next htaken ?_⟩
      refine probesFrom_numbered (by omega) (fun j hj hjd => ?_) hfree
      by_contra hnot
      have hge : 1 + d ≤ j := hleast ⟨hj, hnot⟩
      omega
  refine ⟨probes, hle, fun limit hlimit p id' => ⟨fun hp => hp.unique (hends limit hlimit), ?_⟩⟩
  rintro ⟨rfl, rfl⟩
  exact hends limit hlimit

/-! ### Elements made by hand -/

namespace Graph

/-- The ids of elements made by hand, for every graph and every time stamp. A node goes to the end
of the nodes, and an edge between nodes of the graph to the end of the edges; all else stays as it
is. The id of the element is the first free one among the nodes or the edges. The search for it
ends, after at most one look more than there are nodes or edges, and its counter stays below every
limit that their number is below. -/
theorem added_ids_are_first_free (g : Graph) (stamp : Nat) :
    (∀ label across down, ∃ n : Node,
      g.addNode label stamp across down = { g with nodes := g.nodes ++ [n] } ∧
      n.label = label ∧ IsFirstFree g.nodeIds s!"node-{stamp}" n.id ∧
      ∃ probes, probes ≤ g.nodes.length + 1 ∧ ∀ limit, g.nodes.length < limit → ∀ p id,
        Probes g.nodeIds s!"node-{stamp}" limit p id ↔ p = probes ∧ id = n.id) ∧
    ∀ source ∈ g.nodeIds, ∀ target ∈ g.nodeIds, ∃ e : Edge,
      g.connect source target stamp = .ok { g with edges := g.edges ++ [e] } ∧
      e.source = source ∧ e.target = target ∧ IsFirstFree g.edgeIds s!"edge-{stamp}" e.id ∧
      ∃ probes, probes ≤ g.edges.length + 1 ∧ ∀ limit, g.edges.length < limit → ∀ p id,
        Probes g.edgeIds s!"edge-{stamp}" limit p id ↔ p = probes ∧ id = e.id := by
  have hnodes : g.nodeIds.length = g.nodes.length := List.length_map ..
  have hedges : g.edgeIds.length = g.edges.length := List.length_map ..
  refine ⟨fun label across down => ?_, fun source hsource target htarget => ?_⟩
  · have hfirst : IsFirstFree g.nodeIds s!"node-{stamp}" (freshId "node" stamp g.nodeIds) :=
      isFirstFree_freshId "node" stamp g.nodeIds
    exact ⟨g.newNode label stamp across down, rfl, rfl, hfirst, hnodes ▸ hfirst.exists_probes⟩
  · have hfirst : IsFirstFree g.edgeIds s!"edge-{stamp}" (freshId "edge" stamp g.edgeIds) :=
      isFirstFree_freshId "edge" stamp g.edgeIds
    exact ⟨g.newEdge source target stamp, connect_eq_ok.mpr ⟨hsource, htarget, rfl⟩, rfl, rfl,
      hfirst, hedges ▸ hfirst.exists_probes⟩

/-- A graph with ids of the time stamp 7, in which a number is left out among the nodes and the
stamp itself among the edges. -/
def gaps : Graph where
  nodes := [Node.fresh "node-7-3" "a" ⟨0, 0⟩, Node.fresh "node-7" "b" ⟨0, 0⟩,
    Node.fresh "node-7-1" "c" ⟨0, 0⟩]
  edges := [Edge.fresh "edge-7-1" "node-7" "node-7-1"]

/-- A node gets the number that is left out, and an edge the stamp itself. -/
theorem added_ids_are_first_free_gaps :
    "node-7" ∈ gaps.nodeIds ∧ "node-7-3" ∈ gaps.nodeIds ∧
      gaps.nodes.length < Nat.pow 2 64 ∧ gaps.edges.length < Nat.pow 2 64 ∧
      (∃ n : Node, gaps.addNode "new" 7 0 0 = { gaps with nodes := gaps.nodes ++ [n] } ∧
        n.id = "node-7-2" ∧ ∃ probes, probes ≤ 4 ∧
          Probes gaps.nodeIds "node-7" (Nat.pow 2 64) probes n.id) ∧
      ∃ e : Edge,
        gaps.connect "node-7" "node-7-3" 7 = .ok { gaps with edges := gaps.edges ++ [e] } ∧
        e.id = "edge-7" ∧ ∃ probes, probes ≤ 2 ∧
          Probes gaps.edgeIds "edge-7" (Nat.pow 2 64) probes e.id := by
  have hsource : "node-7" ∈ gaps.nodeIds := by decide
  have htarget : "node-7-3" ∈ gaps.nodeIds := by decide
  have hnodes : gaps.nodes.length < Nat.pow 2 64 := by decide
  have hedges : gaps.edges.length < Nat.pow 2 64 := by decide
  obtain ⟨hnode, hedge⟩ := added_ids_are_first_free gaps 7
  obtain ⟨n, hadd, -, hfirst, probes, hle, hprobes⟩ := hnode "new" 0 0
  obtain ⟨e, hconnect, -, -, hfirst', probes', hle', hprobes'⟩ :=
    hedge "node-7" hsource "node-7-3" htarget
  refine ⟨hsource, htarget, hnodes, hedges,
    ⟨n, hadd, ?_, probes, hle, (hprobes _ hnodes _ _).mpr ⟨rfl, rfl⟩⟩,
    ⟨e, hconnect, ?_, probes', hle', (hprobes' _ hedges _ _).mpr ⟨rfl, rfl⟩⟩⟩
  · obtain ⟨hfree, -⟩ | ⟨-, k, hk, hid⟩ := hfirst
    · exact absurd (by decide) hfree
    · have hone : numbered "node-7" 1 ∈ gaps.nodeIds := by decide
      have htwo : IsLeast {n | 1 ≤ n ∧ numbered "node-7" n ∉ gaps.nodeIds} 2 := by
        refine ⟨⟨by decide, by decide⟩, fun m ⟨hm, hfree⟩ => ?_⟩
        by_contra hlt
        obtain rfl : m = 1 := by omega
        exact hfree hone
      obtain rfl := hk.unique htwo
      exact hid
  · obtain ⟨-, hid⟩ | ⟨htaken, -⟩ := hfirst'
    · exact hid
    · exact absurd htaken (by decide)

end Graph

end BoxArrow
