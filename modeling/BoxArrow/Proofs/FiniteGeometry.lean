import BoxArrow.Proofs.Batches
import BoxArrow.Proofs.SavedCoordinates

/-!
# Geometry after changes from the editor

Changes from the editor carry numbers, and any of them may be infinite or no number at all. A new
size is grown to the smallest one on each axis, where numbers that are not finite count as the
smallest: so the sizes of a graph stay finite, and those that a change has set are never too small.
A new position is taken as it is. It is finite exactly where the last position that a batch sets for
a node is, and a session that is saved with any other position cannot be loaded again.

## Main definitions

* `BoxArrow.ChangeKind.Sets` — a part of an entry that changes set to values of their own.
* `BoxArrow.ChangeKind.lastSet?` — the last of these values in a batch.
* `BoxArrow.Size.IsGrown` — sizes that are not too small.

## Main results

* `BoxArrow.ChangeKind.Sets.fate` — the last value that is set for an entry is the one it has.
* `BoxArrow.Size.isFinite_atLeastMin`, `BoxArrow.Size.isGrown_atLeastMin` — sizes after a resize.
* `BoxArrow.Graph.exists_geometry_of_mem` — where a node stands after a batch, and its size.
* `BoxArrow.Graph.geometry_applyChanges` — which geometry is finite after a batch and can be saved.
-/

namespace BoxArrow

/-! ### Values that changes set -/

namespace ChangeKind

variable {α β γ : Type} (k : ChangeKind α γ) {f : α → β} {set? : γ → Option β} {cs : List γ}
  {a b : α}

/-- A change sets this part of an entry to the value that it carries, or leaves it where it carries
none. -/
def Sets (f : α → β) (set? : γ → Option β) : Prop :=
  ∀ ⦃c : γ⦄ ⦃a b : α⦄, k.update c a = some b → f b = (set? c).getD (f a)

/-- The last value that the changes of a batch set for a name. -/
def lastSet? (set? : γ → Option β) (cs : List γ) (name : String) : Option β :=
  ((cs.filter (k.target · == name)).filterMap set?).getLast?

variable {k}

theorem lastSet?_cons_of_ne {c : γ} {name : String} (h : k.target c ≠ name) :
    k.lastSet? set? (c :: cs) name = k.lastSet? set? cs name := by
  rw [lastSet?, List.filter_cons_of_neg (by simpa using h), lastSet?]

theorem getD_lastSet?_cons (set? : γ → Option β) (c : γ) (cs : List γ) (b : β) :
    (k.lastSet? set? (c :: cs) (k.target c)).getD b =
      (k.lastSet? set? cs (k.target c)).getD ((set? c).getD b) := by
  have hown : (k.target c == k.target c) = true := beq_self_eq_true _
  rw [lastSet?, List.filter_cons_of_pos (p := fun c' => k.target c' == k.target c) hown,
    List.filterMap_cons]
  cases set? c with
  | none => rfl
  | some b' =>
    rw [List.getLast?_cons]
    rfl

/-- The last value that a batch sets for an entry is the one that the entry has in the end. -/
theorem Sets.fate (hf : k.Sets f set?) (h : k.fate cs a = some b) :
    f b = (k.lastSet? set? cs (k.name a)).getD (f a) := by
  induction cs generalizing a with
  | nil => rw [Option.some.inj h]; rfl
  | cons c cs ih =>
    rw [fate_cons, Option.bind_eq_some_iff] at h
    obtain ⟨d, hturn, hrest⟩ := h
    have hname : k.name d = k.name a := k.keeps_name.turn hturn
    rw [ih hrest, hname]
    rw [turn] at hturn
    split_ifs at hturn with htarget
    · rw [htarget, getD_lastSet?_cons, hf hturn]
    · obtain rfl := Option.some.inj hturn
      rw [lastSet?_cons_of_ne (Ne.symm htarget)]

end ChangeKind

/-! ### Numbers in order -/

open Float.Model Float.Model.UnpackedFloat

/-- Numbers that are compared the other way around come out the other way around. -/
theorem compare_swap (u v : UnpackedFloat) : v.compare u = (u.compare v).map Ordering.swap := by
  have hthen (e e' : Int) (m m' : Nat) : ((compare e e').then (compare m m')).swap =
      (compare e' e).then (compare m' m) := by
    rw [Ordering.swap_then, ← Std.OrientedOrd.eq_swap, ← Std.OrientedOrd.eq_swap]
  rcases u with (_ | _) | _ | (_ | _) | ⟨_ | _, m, e, _⟩ <;>
    rcases v with (_ | _) | _ | (_ | _) | ⟨_ | _, m', e', _⟩ <;>
    first
    | rfl
    | simp only [UnpackedFloat.compare, Option.map_some, hthen]

/-- Finite numbers can be compared. -/
theorem compare_ne_none {u v : UnpackedFloat} (hu : u.isFinite = true) (hv : v.isFinite = true) :
    u.compare v ≠ none := by
  rcases u with _ | _ | (_ | _) | ⟨_ | _, m, e, _⟩ <;>
    rcases v with _ | _ | (_ | _) | ⟨_ | _, m', e', _⟩ <;>
    first
    | exact Option.some_ne_none _
    | exact absurd hu Bool.false_ne_true
    | exact absurd hv Bool.false_ne_true

/-- Of two finite numbers, one that is not less than the other is at least as large. -/
theorem le_of_not_lt {x y : Float} (hx : x.isFinite = true) (hy : y.isFinite = true)
    (h : ¬ x < y) : y ≤ x := by
  have hlt : ¬ x.toModel.unpack.compare y.toModel.unpack = some .lt :=
    fun hlt => h (decide_eq_true (beq_iff_eq.mpr hlt))
  obtain ⟨o, ho⟩ := Option.ne_none_iff_exists'.mp (compare_ne_none hx hy)
  have hle : y.toModel.unpack.le x.toModel.unpack = true := by
    rw [UnpackedFloat.le, compare_swap, ho]
    cases o with
    | lt => exact absurd ho hlt
    | eq => rfl
    | gt => rfl
  exact decide_eq_true hle

/-! ### Sizes after a resize -/

namespace Size

variable {least value : Float}

/-- Width and height are at least those of the smallest size. -/
def IsGrown (s : Size) : Prop :=
  min.width ≤ s.width ∧ min.height ≤ s.height

instance (s : Size) : Decidable s.IsGrown :=
  inferInstanceAs (Decidable (_ ∧ _))

theorem isFinite_growTo (h : least.isFinite = true) : (growTo least value).isFinite = true := by
  rw [growTo]
  split_ifs with hvalue hless
  · exact h
  · exact hvalue
  · exact h

theorem le_growTo (h : least.isFinite = true) (hself : least ≤ least) :
    least ≤ growTo least value := by
  rw [growTo]
  split_ifs with hvalue hless
  · exact hself
  · exact le_of_not_lt hvalue h hless
  · exact hself

theorem isFinite_atLeastMin (s : Size) : s.atLeastMin.IsFinite :=
  ⟨isFinite_growTo (by decide +kernel), isFinite_growTo (by decide +kernel)⟩

theorem isGrown_atLeastMin (s : Size) : s.atLeastMin.IsGrown :=
  ⟨le_growTo (by decide +kernel) (by decide +kernel),
    le_growTo (by decide +kernel) (by decide +kernel)⟩

end Size

/-! ### Graphs after a batch -/

namespace NodeChange

/-- The position that a change sets, if it sets one. -/
def place? : NodeChange → Option Position
  | position _ p => p
  | dimensions _ _ => none
  | select _ _ => none
  | remove _ => none

/-- The size that a change sets, if it sets one. -/
def size? : NodeChange → Option Size
  | position _ _ => none
  | dimensions _ s => s.map Size.atLeastMin
  | select _ _ => none
  | remove _ => none

theorem sets_position : kind.Sets Node.position place? := by
  intro c n n' h
  rcases c with ⟨_, _ | p⟩ | ⟨_, _ | s⟩ | _ | _ <;> cases h <;> rfl

theorem sets_size : kind.Sets Node.size size? := by
  intro c n n' h
  rcases c with ⟨_, _ | p⟩ | ⟨_, _ | s⟩ | _ | _ <;> cases h <;> rfl

/-- The last position that a batch sets for a node. -/
def lastPlace? (cs : List NodeChange) (id : String) : Option Position :=
  kind.lastSet? place? cs id

/-- The last size that a batch sets for a node. -/
def lastSize? (cs : List NodeChange) (id : String) : Option Size :=
  kind.lastSet? size? cs id

/-- Every size that a batch sets is a grown one. -/
theorem exists_of_lastSize? {cs : List NodeChange} {id : String} {s : Size}
    (h : lastSize? cs id = some s) : ∃ t : Size, s = t.atLeastMin := by
  obtain ⟨c, -, hc⟩ := List.mem_filterMap.mp (List.mem_of_getLast? h)
  rcases c with _ | ⟨_, _ | t⟩ | _ | _ <;> cases hc
  exact ⟨t, rfl⟩

/-- Where a change carries a size for a node, the batch sets one. -/
theorem lastSize?_ne_none {cs : List NodeChange} {id : String} {s : Size}
    (h : .dimensions id (some s) ∈ cs) : lastSize? cs id ≠ none := by
  intro hnone
  have hmem : s.atLeastMin ∈ (cs.filter (kind.target · == id)).filterMap size? :=
    List.mem_filterMap.mpr ⟨_, List.mem_filter.mpr ⟨h, beq_self_eq_true _⟩, rfl⟩
  exact List.ne_nil_of_mem hmem (List.getLast?_eq_none_iff.mp hnone)

end NodeChange

namespace Graph

variable {g : Graph} {c : ChangeSet}

/-- A node that stays has the last position and the last size that the batch sets for it, or its own
ones from before. -/
theorem exists_geometry_of_mem (hg : g.Valid) {n : Node} (hn : n ∈ (g.applyChanges c).1.nodes) :
    ∃ m ∈ g.nodes, m.id = n.id ∧
      n.position = (NodeChange.lastPlace? c.nodes n.id).getD m.position ∧
      n.size = (NodeChange.lastSize? c.nodes n.id).getD m.size := by
  have hids : (g.nodes.map NodeChange.kind.name).Nodup := hg.1
  rw [nodes_applyChanges, ChangeKind.afterAll_eq_filterMap hids] at hn
  obtain ⟨m, hm, hfate⟩ := List.mem_filterMap.mp hn
  have hid : n.id = m.id := NodeChange.kind.keeps_name.fate hfate
  exact ⟨m, hm, hid.symm, hid ▸ NodeChange.sets_position.fate hfate,
    hid ▸ NodeChange.sets_size.fate hfate⟩

/-- A batch leaves sizes finite. -/
theorem isFinite_size_of_mem_applyChanges (hg : g.Valid) (hfinite : ∀ n ∈ g.nodes, n.IsFinite)
    {n : Node} (hn : n ∈ (g.applyChanges c).1.nodes) : n.size.IsFinite := by
  obtain ⟨m, hm, -, -, hsize⟩ := exists_geometry_of_mem hg hn
  rw [hsize]
  cases hlast : NodeChange.lastSize? c.nodes n.id with
  | none => exact (hfinite m hm).2
  | some s =>
    obtain ⟨t, rfl⟩ := NodeChange.exists_of_lastSize? hlast
    exact t.isFinite_atLeastMin

/-- A node that a batch resizes is at least as large as the smallest size. -/
theorem isGrown_of_mem_applyChanges (hg : g.Valid) {n : Node}
    (hn : n ∈ (g.applyChanges c).1.nodes) {s : Size}
    (hs : NodeChange.dimensions n.id (some s) ∈ c.nodes) : n.size.IsGrown := by
  obtain ⟨m, -, -, -, hsize⟩ := exists_geometry_of_mem hg hn
  obtain ⟨s, hlast⟩ := Option.ne_none_iff_exists'.mp (NodeChange.lastSize?_ne_none hs)
  obtain ⟨t, rfl⟩ := NodeChange.exists_of_lastSize? hlast
  rw [hsize, hlast]
  exact t.isGrown_atLeastMin

/-- The position of a node is finite after a batch exactly when the last one that the batch sets for
it is. -/
theorem isFinite_position_of_mem_applyChanges (hg : g.Valid)
    (hfinite : ∀ n ∈ g.nodes, n.IsFinite) {n : Node} (hn : n ∈ (g.applyChanges c).1.nodes) :
    n.position.IsFinite ↔ ∀ p ∈ NodeChange.lastPlace? c.nodes n.id, p.IsFinite := by
  obtain ⟨m, hm, -, hposition, -⟩ := exists_geometry_of_mem hg hn
  rw [hposition]
  cases NodeChange.lastPlace? c.nodes n.id with
  | none => exact iff_of_true (hfinite m hm).1 nofun
  | some p => simp

theorem forall_isFinite_applyChanges_iff (hg : g.Valid) (hfinite : ∀ n ∈ g.nodes, n.IsFinite) :
    (∀ n ∈ (g.applyChanges c).1.nodes, n.IsFinite) ↔
      ∀ n ∈ (g.applyChanges c).1.nodes, ∀ p ∈ NodeChange.lastPlace? c.nodes n.id, p.IsFinite := by
  refine forall₂_congr fun n hn => ?_
  rw [← isFinite_position_of_mem_applyChanges hg hfinite hn]
  exact and_iff_left (isFinite_size_of_mem_applyChanges hg hfinite hn)

/-- A batch for a valid graph with finite coordinates leaves all sizes finite, and the nodes that it
resizes are at least as large as the smallest size. A position is finite exactly when the last one
that the batch sets for the node is. A session on the graph can be loaded from the text that is
saved of it, into any session, exactly when this is so for every node that stays. -/
theorem geometry_applyChanges (hg : g.Valid) (hfinite : ∀ n ∈ g.nodes, n.IsFinite)
    (c : ChangeSet) :
    (∀ n ∈ (g.applyChanges c).1.nodes, n.size.IsFinite ∧
      (∀ s, NodeChange.dimensions n.id (some s) ∈ c.nodes → n.size.IsGrown) ∧
      (n.position.IsFinite ↔ ∀ p ∈ NodeChange.lastPlace? c.nodes n.id, p.IsFinite)) ∧
    ∀ (s t : Session) (now : Timestamp), s.graph = (g.applyChanges c).1 →
      s.createdAt.IsValid → now.IsValid →
      ((∃ u, t.restore (s.snapshot now).text = .ok u) ↔
        ∀ n ∈ (g.applyChanges c).1.nodes,
          ∀ p ∈ NodeChange.lastPlace? c.nodes n.id, p.IsFinite) := by
  constructor
  · intro n hn
    exact ⟨isFinite_size_of_mem_applyChanges hg hfinite hn,
      fun s hs => isGrown_of_mem_applyChanges hg hn hs,
      isFinite_position_of_mem_applyChanges hg hfinite hn⟩
  · intro s t now hs hcreated hnow
    have hvalid : s.graph.Valid := hs ▸ valid_applyChanges hg c
    rw [Session.exists_restore_snapshot_text_iff hvalid hcreated hnow t, hs]
    exact forall_isFinite_applyChanges_iff hg hfinite

/-- A flowchart of three nodes, of which a batch moves the first to infinity and back, resizes the
second to something that is no number and to less than nothing, and takes out the third after it has
moved it to where no number is. -/
theorem geometry_applyChanges_stray :
    let g := parse .mermaid "a --> b\nb --> c"
    let c : ChangeSet := ⟨[.position "a" (some ⟨1 / 0, 0⟩), .position "a" (some ⟨-0.5, 1e300⟩),
      .dimensions "b" (some ⟨0 / 0, -1 / 0⟩), .position "c" (some ⟨0 / 0, 0 / 0⟩), .remove "c"], []⟩
    let s : Session := ⟨"first", .mermaid, "", (g.applyChanges c).1, ⟨20667, 3600, 0⟩, 0, .default⟩
    g.Valid ∧ (∀ n ∈ g.nodes, n.IsFinite) ∧ s.createdAt.IsValid ∧
      (g.applyChanges c).1.nodeIds = ["a", "b"] ∧
      (∀ n ∈ (g.applyChanges c).1.nodes, n.IsFinite ∧ (n.id = "b" → n.size.IsGrown)) ∧
      ∃ u, s.restore (s.snapshot s.createdAt).text = .ok u := by
  intro g c s
  have hg : g.Valid := valid_parse _ _
  have hfinite : ∀ n ∈ g.nodes, n.IsFinite := by decide +kernel
  have hcreated : s.createdAt.IsValid := by decide +kernel
  obtain ⟨hnodes, hsessions⟩ := geometry_applyChanges hg hfinite c
  have hlast : ∀ n ∈ (g.applyChanges c).1.nodes,
      ∀ p ∈ NodeChange.lastPlace? c.nodes n.id, p.IsFinite := by decide +kernel
  refine ⟨hg, hfinite, hcreated, by decide +kernel, fun n hn => ?_,
    (hsessions s s s.createdAt rfl hcreated hcreated).mpr hlast⟩
  obtain ⟨hsize, hgrown, hposition⟩ := hnodes n hn
  refine ⟨⟨hposition.mpr (hlast n hn), hsize⟩, fun hid => hgrown ⟨0 / 0, -1 / 0⟩ ?_⟩
  rw [hid]
  decide +kernel

/-- A move to where no number is takes a node out of the plane, and the session that is saved after
it cannot be loaded. A resize of the same kind would leave the size finite. -/
theorem geometry_applyChanges_nan :
    let g := parse .mermaid "a --> b"
    let c : ChangeSet := ⟨[.position "a" (some ⟨0 / 0, 0 / 0⟩)], []⟩
    let s : Session := ⟨"first", .mermaid, "", (g.applyChanges c).1, ⟨20667, 3600, 0⟩, 0, .default⟩
    g.Valid ∧ (∀ n ∈ g.nodes, n.IsFinite) ∧ s.createdAt.IsValid ∧
      (∃ n ∈ (g.applyChanges c).1.nodes, n.id = "a" ∧ ¬n.position.IsFinite) ∧
      ¬∃ u, s.restore (s.snapshot s.createdAt).text = .ok u := by
  intro g c s
  have hg : g.Valid := valid_parse _ _
  have hcreated : s.createdAt.IsValid := by decide +kernel
  refine ⟨hg, by decide +kernel, hcreated, by decide +kernel, ?_⟩
  rw [Session.exists_restore_snapshot_text_iff (valid_applyChanges hg c) hcreated hcreated]
  decide +kernel

end Graph

end BoxArrow
