import BoxArrow.Proofs.RereadNumbers
import BoxArrow.Proofs.SavedSessions
import BoxArrow.Proofs.TimestampText

/-!
# Saved coordinates

The coordinates of the nodes are the only part of a session that saving and loading may change. A
finite coordinate comes back as what its text is read as, which is the coordinate itself when the
text is short, but a number next to it for many others. A coordinate that is not finite has no text:
`null` stands in its place, which is no coordinate, and so the file is refused as a whole.

## Main definitions

* `BoxArrow.Node.IsFinite` — the nodes with a place and a size.
* `BoxArrow.Graph.reread` — the graph with its coordinates as they come back.
* `BoxArrow.Json.Refused` — what is read of the written document is no value of the type.

## Main results

* `BoxArrow.Session.restore_snapshot_text_of_isFinite` — what comes back of finite coordinates.
* `BoxArrow.Session.exists_restore_snapshot_text_iff` — which sessions can be loaded again.
* `BoxArrow.Session.restore_snapshot_text_reread` — which coordinates come back as they were.
-/

namespace BoxArrow

/-! ### Finite coordinates -/

/-- Both coordinates are finite numbers. -/
def Position.IsFinite (p : Position) : Prop :=
  p.x.isFinite = true ∧ p.y.isFinite = true

instance (p : Position) : Decidable p.IsFinite :=
  inferInstanceAs (Decidable (_ ∧ _))

/-- Width and height are finite numbers. -/
def Size.IsFinite (s : Size) : Prop :=
  s.width.isFinite = true ∧ s.height.isFinite = true

instance (s : Size) : Decidable s.IsFinite :=
  inferInstanceAs (Decidable (_ ∧ _))

/-- The position and the size are finite. -/
def Node.IsFinite (n : Node) : Prop :=
  n.position.IsFinite ∧ n.size.IsFinite

instance (n : Node) : Decidable n.IsFinite :=
  inferInstanceAs (Decidable (_ ∧ _))

/-! ### Coordinates that come back -/

/-- The position that is read where this one was written. -/
def Position.reread (p : Position) : Position :=
  ⟨BoxArrow.reread p.x, BoxArrow.reread p.y⟩

/-- The size that is read where this one was written. -/
def Size.reread (s : Size) : Size :=
  ⟨BoxArrow.reread s.width, BoxArrow.reread s.height⟩

/-- The node with its coordinates as they come back. -/
def Node.reread (n : Node) : Node :=
  { n with position := n.position.reread, size := n.size.reread }

/-- The graph with its coordinates as they come back. -/
def Graph.reread (g : Graph) : Graph :=
  ⟨g.nodes.map Node.reread, g.edges⟩

theorem Position.reread_eq_self_iff {p : Position} :
    p.reread = p ↔ BoxArrow.reread p.x = p.x ∧ BoxArrow.reread p.y = p.y :=
  Position.mk.injEq .. ▸ Iff.rfl

/-- Positions come back as they were when the two roundings lead back to both coordinates. -/
theorem Position.reread_eq_self_iff_of_isFinite {p : Position} (hp : p.IsFinite)
    (hx : HasPlainExponent p.x) (hy : HasPlainExponent p.y) :
    p.reread = p ↔ SurvivesRounding p.x ∧ SurvivesRounding p.y := by
  rw [reread_eq_self_iff, BoxArrow.reread_eq_self_iff hp.1 hx, BoxArrow.reread_eq_self_iff hp.2 hy]

/-- Positions with short texts come back as they were. -/
theorem Position.reread_eq_self {p : Position} (hp : p.IsFinite) (hx : HasShortText p.x)
    (hy : HasShortText p.y) : p.reread = p :=
  reread_eq_self_iff.mpr
    ⟨BoxArrow.reread_eq_self hp.1 hx, BoxArrow.reread_eq_self hp.2 hy⟩

theorem Node.storedAs_reread {n : Node} (h : n.IsFinite) : n.StoredAs n.reread where
  id_eq := rfl
  label_eq := rfl
  selected_eq := rfl
  x := readsBackAs_reread h.1.1
  y := readsBackAs_reread h.1.2
  width := readsBackAs_reread h.2.1
  height := readsBackAs_reread h.2.2

theorem forall₂_storedAs_reread {ns : List Node} (h : ∀ n ∈ ns, n.IsFinite) :
    List.Forall₂ Node.StoredAs ns (ns.map Node.reread) :=
  List.forall₂_map_right_iff.mpr
    (List.forall₂_same.mpr fun n hn => Node.storedAs_reread (h n hn))

theorem Graph.valid_reread {g : Graph} (h : g.Valid) : g.reread.Valid := by
  have hids : g.reread.nodeIds = g.nodeIds := List.map_map
  rwa [Valid, hids]

/-! ### Coordinates without a text -/

namespace Json

variable {α β : Type} {depth : Nat} {decode : Json → Decoded α}

/-- The document `j` is written so that, where at most `depth` brackets may be nested, it is read as
a document which is not decoded. -/
def Refused (decode : Json → Decoded α) (depth : Nat) (j : Json) : Prop :=
  ∃ j' e, ReadAs depth j j' ∧ decode j' = .error e

/-- A coordinate as it is decoded: the number that its text is read as, or no number. -/
theorem exists_readAs_ofFloat (x : Float) (depth : Nat) :
    ∃ j, ReadAs depth (ofFloat x) j ∧
      j.asFloat = if x.isFinite then .ok (reread x) else .error (.wrongType null "f64") := by
  cases hx : x.isFinite with
  | true => exact readAs_ofFloat (readsBackAs_reread hx) depth
  | false =>
    have hnull : ofFloat x = null := if_neg (Bool.not_eq_true _ ▸ hx)
    exact ⟨null, hnull ▸ readAs_null depth, rfl⟩

theorem exists_forall₂ {R : α → β → Prop} {l : List α} (h : ∀ a ∈ l, ∃ b, R a b) :
    ∃ m, List.Forall₂ R l m := by
  induction l with
  | nil => exact ⟨[], .nil⟩
  | cons a l ih =>
    obtain ⟨b, hb⟩ := h a List.mem_cons_self
    obtain ⟨m, hm⟩ := ih fun a ha => h a (List.mem_cons_of_mem _ ha)
    exact ⟨b :: m, .cons hb hm⟩

/-- A list that could be absent is refused for one of its entries, when all can be read. -/
theorem refused_list {form : β → Json} {bs : List β}
    (hread : ∀ b ∈ bs, ∃ j', ReadAs depth (form b) j')
    (hrefused : ∃ b ∈ bs, Refused decode depth (form b)) :
    Refused (asOption (asList decode)) (depth + 1) (.array (bs.map form)) := by
  have hitems : ∃ items e, List.Forall₂ (ReadAs depth) (bs.map form) items ∧
      items.mapM decode = .error e := by
    induction bs with
    | nil => simp at hrefused
    | cons b bs ih =>
      rw [List.forall_mem_cons] at hread
      obtain ⟨c, hc, hrefused⟩ := hrefused
      rcases List.mem_cons.mp hc with rfl | hc
      · obtain ⟨item, e, hitem, hfault⟩ := hrefused
        obtain ⟨items, hitems⟩ := exists_forall₂ hread.2
        refine ⟨item :: items, e, .cons hitem (List.forall₂_map_left_iff.mpr hitems), ?_⟩
        rw [List.mapM_cons, hfault]
        rfl
      · obtain ⟨item, hitem⟩ := hread.1
        obtain ⟨items, e, hitems, hfault⟩ := ih hread.2 ⟨c, hc, hrefused⟩
        -- The entry before may be refused as well, and is then the one that is reported.
        cases hdecode : decode item with
        | error e' =>
          refine ⟨item :: items, e', .cons hitem hitems, ?_⟩
          rw [List.mapM_cons, hdecode]
          rfl
        | ok a =>
          refine ⟨item :: items, e, .cons hitem hitems, ?_⟩
          rw [List.mapM_cons, hdecode, hfault]
          rfl
  obtain ⟨items, e, hitems, hfault⟩ := hitems
  have hlist : asOption (asList decode) (.array items) = (items.mapM decode).map some := rfl
  refine ⟨.array items, e, readAs_array hitems, ?_⟩
  rw [hlist, hfault]
  rfl

end Json

@[simp]
theorem fill_none_error {α : Type} (name : String) (e : DecodeError) :
    fill name (none : Option α) (.error e) = .error e :=
  rfl

open Json

/-- After a fault, nothing more is decoded. -/
@[simp]
theorem error_bind {α β : Type} (e : DecodeError) (f : α → Decoded β) :
    (.error e : Decoded α) >>= f = .error e :=
  rfl

theorem Position.exists_readAs (p : Position) (depth : Nat) :
    ∃ j, ReadAs (depth + 1) p.toJson j := by
  obtain ⟨x, hx, -⟩ := exists_readAs_ofFloat p.x depth
  obtain ⟨y, hy, -⟩ := exists_readAs_ofFloat p.y depth
  exact ⟨_, readAs_object (.cons "x" hx (.cons "y" hy .nil))⟩

theorem Size.exists_readAs (s : Size) (depth : Nat) : ∃ j, ReadAs (depth + 1) s.toJson j := by
  obtain ⟨width, hwidth, -⟩ := exists_readAs_ofFloat s.width depth
  obtain ⟨height, hheight, -⟩ := exists_readAs_ofFloat s.height depth
  exact ⟨_, readAs_object (.cons "width" hwidth (.cons "height" hheight .nil))⟩

theorem Node.readAs {n : Node} {depth : Nat} {position size : Json}
    (hposition : ReadAs (depth + 1) n.position.toJson position)
    (hsize : ReadAs (depth + 1) n.size.toJson size) :
    ReadAs (depth + 2) n.toJson (.object [("id", .string n.id), ("label", .string n.label),
      ("position", position), ("selected", .bool n.selected), ("size", size)]) := by
  have hread := readAs_object (.cons "id" (readAs_string _ n.id)
    (.cons "label" (readAs_string _ n.label) (.cons "position" hposition (.cons "size" hsize
      (.cons "selected" (readAs_bool _ n.selected) .nil)))))
  simp only [sortMembers, insertMember, List.foldl, String.reduceLT, String.reduceEq,
    ↓reduceIte] at hread
  exact hread

theorem Position.refused {p : Position} (h : ¬p.IsFinite) (enclosure : Enclosure) (depth : Nat) :
    Refused (Position.ofJson enclosure) (depth + 1) p.toJson := by
  obtain ⟨x, hreadx, hx⟩ := exists_readAs_ofFloat p.x depth
  obtain ⟨y, hready, hy⟩ := exists_readAs_ofFloat p.y depth
  refine ⟨_, .wrongType null "f64", readAs_object (.cons "x" hreadx (.cons "y" hready .nil)), ?_⟩
  simp only [sortMembers, insertMember, List.foldl, String.reduceLT, String.reduceEq, ↓reduceIte]
  cases hfinite : p.x.isFinite with
  | false => simp [Position.ofJson, Draft.visit, hx, hfinite]
  | true =>
    have hother : p.y.isFinite = false := by simpa [IsFinite, hfinite] using h
    simp [Position.ofJson, Draft.visit, hx, hy, hfinite, hother]

theorem Size.refused {s : Size} (h : ¬s.IsFinite) (enclosure : Enclosure) (depth : Nat) :
    Refused (Size.ofJson enclosure) (depth + 1) s.toJson := by
  obtain ⟨width, hreadw, hwidth⟩ := exists_readAs_ofFloat s.width depth
  obtain ⟨height, hreadh, hheight⟩ := exists_readAs_ofFloat s.height depth
  refine ⟨_, .wrongType null "f64",
    readAs_object (.cons "width" hreadw (.cons "height" hreadh .nil)), ?_⟩
  simp only [sortMembers, insertMember, List.foldl, String.reduceLT, ↓reduceIte]
  cases hfinite : s.height.isFinite with
  | false => simp [Size.ofJson, Draft.visit, hheight, hfinite]
  | true =>
    have hother : s.width.isFinite = false := by simpa [IsFinite, hfinite] using h
    simp [Size.ofJson, Draft.visit, hwidth, hheight, hfinite, hother]

/-- A node is refused for a single coordinate. -/
theorem Node.refused {n : Node} (h : ¬n.IsFinite) (depth : Nat) :
    Refused Node.ofJson (depth + 2) n.toJson := by
  by_cases hplace : n.position.IsFinite
  · have hlarge : ¬n.size.IsFinite := fun hsize => h ⟨hplace, hsize⟩
    obtain ⟨position, hreadp, hposition⟩ := Position.recovers (q := n.position.reread)
      (readsBackAs_reread hplace.1) (readsBackAs_reread hplace.2) .plain depth
    obtain ⟨size, e, hreads, hsize⟩ := Size.refused hlarge .plain depth
    refine ⟨_, e, Node.readAs hreadp hreads, ?_⟩
    simp [Node.ofJson, Draft.visit, hposition, hsize, asString, asBool]
  · obtain ⟨position, e, hreadp, hposition⟩ := Position.refused hplace .plain depth
    obtain ⟨size, hreads⟩ := n.size.exists_readAs depth
    refine ⟨_, e, Node.readAs hreadp hreads, ?_⟩
    simp [Node.ofJson, Draft.visit, hposition, asString]

/-- A saved diagram is refused for a single node. -/
theorem DiagramRecord.refused {id code : String} {engine : Engine} {nodes : List Node}
    {edges : List Edge} {createdAt updatedAt : Timestamp}
    (hnodes : ∃ n ∈ nodes, ¬n.IsFinite)
    (hcreated : Timestamp.parse createdAt.text = .ok createdAt) (depth : Nat) :
    Refused DiagramRecord.ofJson (depth + 4)
      (toJson ⟨some id, engine, code, some nodes, some edges, some createdAt, some updatedAt⟩) := by
  have hread : ∀ n ∈ nodes, ∃ j, ReadAs (depth + 2) n.toJson j := by
    intro n _
    obtain ⟨position, hposition⟩ := n.position.exists_readAs depth
    obtain ⟨size, hsize⟩ := n.size.exists_readAs depth
    exact ⟨_, Node.readAs hposition hsize⟩
  obtain ⟨n, hn, hinfinite⟩ := hnodes
  obtain ⟨_, e, hreadNodes, hrefused⟩ :=
    refused_list hread ⟨n, hn, Node.refused hinfinite depth⟩
  obtain ⟨_, hreadId, hid⟩ := recovers_some nofun (recovers_string (depth + 3) id)
  obtain ⟨_, hreadEngine, hengine⟩ := Engine.recovers engine (depth + 3)
  obtain ⟨_, hreadEdges, hedges⟩ := recovers_some nofun
    (recovers_list (List.forall₂_same.mpr fun e (_ : e ∈ edges) => Edge.recovers e (depth + 1)))
  obtain ⟨_, hreadCreated, hcreated⟩ := recovers_some nofun
    (Timestamp.recovers hcreated (depth + 3))
  refine ⟨_, e, readAs_object (.cons "id" hreadId (.cons "engine" hreadEngine
    (.cons "code" (readAs_string _ code) (.cons "nodes" hreadNodes (.cons "edges" hreadEdges
      (.cons "createdAt" hreadCreated
        (.cons "updatedAt" (readAs_string _ updatedAt.text) .nil))))))), ?_⟩
  simp only [sortMembers, insertMember, List.foldl, String.reduceLT, String.reduceEq, ↓reduceIte]
  simp [DiagramRecord.ofJson, Draft.visit, hid, hengine, hrefused, hedges, hcreated, asString]

/-- A snapshot is refused with its diagram. -/
theorem Snapshot.parse_text_of_refused {s : Snapshot}
    (hdiagram : Refused DiagramRecord.ofJson (maxDepth - 1) s.diagram.toJson) :
    ∃ e, parse s.text = .error (.invalidFormat (.undecodable e)) := by
  obtain ⟨diagram, e, hread, hdiagram⟩ := hdiagram
  have hdocument := readAs_object (.cons "version" (readAs_string _ s.version)
    (.cons "diagram" hread .nil))
  have hparse := parse?_render hdocument .pretty
  simp only [sortMembers, insertMember, List.foldl, String.reduceLT, ↓reduceIte] at hparse
  have hofJson : ofJson (.object [("diagram", diagram), ("version", .string s.version)]) =
      .error e := by
    simp [ofJson, Draft.visit, hdiagram]
  refine ⟨e, ?_⟩
  rw [parse, show parse? s.text = _ from hparse]
  simp only [ofDocument, member?, List.lookup_cons_self, hofJson]

/-! ### Sessions that are saved and loaded -/

namespace Session

variable {s : Session} {now : Timestamp}

/-- A session with a valid graph and finite coordinates is loaded from its text, with the
coordinates as they come back. -/
theorem restore_snapshot_text_of_isFinite (h : s.graph.Valid)
    (hfinite : ∀ n ∈ s.graph.nodes, n.IsFinite) (hcreated : s.createdAt.IsValid)
    (hnow : now.IsValid) (t : Session) :
    t.restore (s.snapshot now).text = .ok { t with
      id := s.id
      engine := s.engine
      code := s.code
      graph := s.graph.reread
      createdAt := s.createdAt
      revision := t.revision + 1 } := by
  have hparse := parse_snapshot_text (forall₂_storedAs_reread hfinite)
    (Timestamp.parse_text hcreated) (Timestamp.parse_text hnow) "" nofun
  rw [String.append_empty] at hparse
  exact restore_of_parse (s := { s with graph := s.graph.reread }) (Graph.valid_reread h) hparse t

/-- A session with a valid graph can be loaded from its text, into any session, exactly when all its
coordinates are finite. -/
theorem exists_restore_snapshot_text_iff (h : s.graph.Valid) (hcreated : s.createdAt.IsValid)
    (hnow : now.IsValid) (t : Session) :
    (∃ u, t.restore (s.snapshot now).text = .ok u) ↔ ∀ n ∈ s.graph.nodes, n.IsFinite := by
  constructor
  · rintro ⟨u, hu⟩
    by_contra hnot
    have hnodes : ∃ n ∈ s.graph.nodes, ¬n.IsFinite := by
      simpa using hnot
    have hrefused : Refused DiagramRecord.ofJson (maxDepth - 1) (s.snapshot now).diagram.toJson :=
      DiagramRecord.refused hnodes (Timestamp.parse_text hcreated) (maxDepth - 5)
    obtain ⟨e, he⟩ := Snapshot.parse_text_of_refused hrefused
    obtain ⟨snap, hparse, -⟩ := restore_eq_ok.mp hu
    rw [he] at hparse
    exact absurd hparse nofun
  · intro hfinite
    exact ⟨_, restore_snapshot_text_of_isFinite h hfinite hcreated hnow t⟩

/-- Saving and loading in numbers: from the text that is saved of a session in any state that it
reaches with finite coordinates, every other session takes over everything, with each coordinate as
its text is read. A node comes back where it was exactly when both coordinates are read as
themselves, and that is when the two roundings of the reader lead back to them. They do so where
the texts are short. -/
theorem restore_snapshot_text_reread (hs : s.Reachable) (t : Session)
    (hfinite : ∀ n ∈ s.graph.nodes, n.IsFinite) (hcreated : s.createdAt.IsValid)
    (hnow : now.IsValid) :
    t.restore (s.snapshot now).text = .ok { t with
      id := s.id
      engine := s.engine
      code := s.code
      graph := s.graph.reread
      createdAt := s.createdAt
      revision := t.revision + 1 } ∧
    ∀ n ∈ s.graph.nodes,
      (n.reread.position = n.position ↔
        reread n.position.x = n.position.x ∧ reread n.position.y = n.position.y) ∧
      (HasPlainExponent n.position.x → HasPlainExponent n.position.y →
        (n.reread.position = n.position ↔
          SurvivesRounding n.position.x ∧ SurvivesRounding n.position.y)) ∧
      (HasShortText n.position.x → HasShortText n.position.y → n.reread.position = n.position) :=
  ⟨restore_snapshot_text_of_isFinite hs.valid hfinite hcreated hnow t, fun n hn =>
    ⟨Position.reread_eq_self_iff, Position.reread_eq_self_iff_of_isFinite (hfinite n hn).1,
      Position.reread_eq_self (hfinite n hn).1⟩⟩

/-- A session on a text with one connection, in which a node was added at a place that chance has
drawn. -/
def scattered : Session :=
  (start ⟨.mermaid, .default, 400⟩ "first" ⟨20667, 3600, 500000000⟩).run
    [.setCode "a --> b", .importText, .addNode (some "new") 7 49152 0]

theorem restore_snapshot_text_reread_scattered :
    let now : Timestamp := ⟨20668, 86399, 1000000007⟩
    let t := start ⟨.d2, .default, 400⟩ "second" now
    scattered.Reachable ∧ (∀ n ∈ scattered.graph.nodes, n.IsFinite) ∧
      scattered.createdAt.IsValid ∧ now.IsValid ∧
      scattered.graph.nodeIds = ["a", "b", "node-7"] ∧
      t.restore (scattered.snapshot now).text = .ok
        ⟨"first", .mermaid, "a --> b", scattered.graph.reread, ⟨20667, 3600, 500000000⟩, 1,
          .default⟩ ∧
      (∀ n ∈ scattered.graph.nodes, n.id ∈ ["a", "b"] → n.reread.position = n.position) ∧
      ∀ n ∈ scattered.graph.nodes, n.id = "node-7" → n.reread.position ≠ n.position := by
  have hs : scattered.Reachable := ⟨_, _, _, _, rfl⟩
  have hfinite : ∀ n ∈ scattered.graph.nodes, n.IsFinite := by decide +kernel
  have hcreated : scattered.createdAt.IsValid := by decide +kernel
  have hnow : Timestamp.IsValid ⟨20668, 86399, 1000000007⟩ := by decide +kernel
  obtain ⟨hrestore, hnodes⟩ := restore_snapshot_text_reread hs
    (start ⟨.d2, .default, 400⟩ "second" ⟨20668, 86399, 1000000007⟩) hfinite hcreated hnow
  have hshort : ∀ n ∈ scattered.graph.nodes, n.id ∈ ["a", "b"] →
      HasShortText n.position.x ∧ HasShortText n.position.y := by decide +kernel
  have hlong : ∀ n ∈ scattered.graph.nodes, n.id = "node-7" →
      ¬reread n.position.x = n.position.x := by decide +kernel
  refine ⟨hs, hfinite, hcreated, hnow, by decide +kernel, hrestore, fun n hn hid => ?_,
    fun n hn hid hsame => ?_⟩
  · obtain ⟨hx, hy⟩ := hshort n hn hid
    exact (hnodes n hn).2.2 hx hy
  · exact hlong n hn hid ((hnodes n hn).1.mp hsame).1

/-- A node that was added by hand does not come back to its place. Chance has drawn
`100.00000000000107`, which is read as the number above it. -/
theorem restore_snapshot_text_dropped_ne :
    let now : Timestamp := ⟨20668, 86399, 1000000007⟩
    scattered.Reachable ∧ (∀ n ∈ scattered.graph.nodes, n.IsFinite) ∧
      scattered.createdAt.IsValid ∧ now.IsValid ∧
      Position.dropped 49152 0 = ⟨100.00000000000107, 100⟩ ∧
      scattered.graph.nodes.map (·.position) =
        [⟨100, 100⟩, ⟨350, 100⟩, ⟨100.00000000000107, 100⟩] ∧
      ∃ u, scattered.restore (scattered.snapshot now).text = .ok u ∧
        u.graph.nodes.map (·.position) =
          [⟨100, 100⟩, ⟨350, 100⟩, ⟨100.00000000000108, 100⟩] ∧
        u.graph.nodes.map (·.position) ≠ scattered.graph.nodes.map (·.position) := by
  have hs : scattered.Reachable := ⟨_, _, _, _, rfl⟩
  have hfinite : ∀ n ∈ scattered.graph.nodes, n.IsFinite := by decide +kernel
  have hcreated : scattered.createdAt.IsValid := by decide +kernel
  have hnow : Timestamp.IsValid ⟨20668, 86399, 1000000007⟩ := by decide +kernel
  have hbefore : scattered.graph.nodes.map (·.position) =
      [⟨100, 100⟩, ⟨350, 100⟩, ⟨100.00000000000107, 100⟩] := by decide +kernel
  have hafter : scattered.graph.reread.nodes.map (·.position) =
      [⟨100, 100⟩, ⟨350, 100⟩, ⟨100.00000000000108, 100⟩] := by decide +kernel
  refine ⟨hs, hfinite, hcreated, hnow, by decide +kernel, hbefore, _,
    restore_snapshot_text_of_isFinite hs.valid hfinite hcreated hnow scattered, hafter, ?_⟩
  change scattered.graph.reread.nodes.map (·.position) ≠ _
  rw [hafter, hbefore]
  decide +kernel

end Session

end BoxArrow
