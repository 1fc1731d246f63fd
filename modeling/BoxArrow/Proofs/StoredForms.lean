import BoxArrow.Proofs.JsonText
import BoxArrow.Snapshot

/-!
# What is stored is found again

Every value that snapshots are made of is written as a document from which it is decoded again:
the parts that are left out, the label that an edge does not have and a selection that is off, are
just those that reading supplies, and every record has the members that its decoder asks for.
Between writing and decoding stands the text of the document, in which members change their order.
So a value is not compared with its document but with what the written document is read as.

Whether a node is found again depends on its coordinates, whose texts have to be read as the same
numbers, and whether a point in time is found again on its text. Where the coordinates are read as
other numbers, a node is found that is the same in all other respects.

## Main definitions

* `BoxArrow.Json.Recovers` — the value is found again from the written document.
* `BoxArrow.Node.StoredAs` — the node that is found where another one was stored.
* `BoxArrow.Node.Storable` — nodes whose coordinates are read back.

## Main results

* `BoxArrow.Node.recovers`, `BoxArrow.Edge.recovers`, `BoxArrow.DiagramRecord.recovers` — records.
* `BoxArrow.Snapshot.parse_text` — a snapshot is read back from its text.
-/

namespace BoxArrow

namespace Json

variable {α : Type} {depth : Nat} {decode : Json → Decoded α} {j : Json} {a : α}

/-- The document `j` is written so that, where at most `depth` brackets may be nested, it is read as
a document which is decoded as `a`. -/
def Recovers (decode : Json → Decoded α) (depth : Nat) (j : Json) (a : α) : Prop :=
  ∃ j', ReadAs depth j j' ∧ decode j' = .ok a

theorem recovers_string (depth : Nat) (s : String) : Recovers asString depth (.string s) s :=
  ⟨_, readAs_string depth s, rfl⟩

theorem recovers_list {β : Type} {form : β → Json} {bs : List β} {as : List α}
    (h : List.Forall₂ (fun b a => Recovers decode depth (form b) a) bs as) :
    Recovers (asList decode) (depth + 1) (.array (bs.map form)) as := by
  have hitems : ∃ items, List.Forall₂ (ReadAs depth) (bs.map form) items ∧
      items.mapM decode = .ok as := by
    induction h with
    | nil => exact ⟨[], .nil, rfl⟩
    | cons hfirst _ ih =>
      obtain ⟨item, hread, hitem⟩ := hfirst
      obtain ⟨items, hreads, hitems⟩ := ih
      refine ⟨item :: items, .cons hread hreads, ?_⟩
      rw [List.mapM_cons, hitem, hitems]
      rfl
  obtain ⟨items, hread, hitems⟩ := hitems
  exact ⟨.array items, readAs_array hread, hitems⟩

/-- A value that `null` does not stand for is found again where it could be absent. -/
theorem recovers_some (hnull : ∀ a, decode null ≠ .ok a) (h : Recovers decode depth j a) :
    Recovers (asOption decode) depth j (some a) := by
  obtain ⟨j', hread, hj'⟩ := h
  refine ⟨j', hread, ?_⟩
  rw [asOption]
  · rw [hj']
    rfl
  · rintro rfl
    exact hnull a hj'

/-- A record is decoded from its members in the order of their keys. -/
theorem recovers_object {members members' : List (String × Json)}
    (hread : MembersReadAs depth members members')
    (hdecode : decode (.object (sortMembers members')) = pure a) :
    Recovers decode (depth + 1) (.object members) a :=
  ⟨_, readAs_object hread, hdecode⟩

end Json

/-! ### Decoding records -/

@[simp]
theorem RecordShape.read_object {σ : Type} (shape : RecordShape) (enclosure : Enclosure)
    (visit : σ → String → Json → Decoded σ) (draft : σ) (members : List (String × Json)) :
    shape.read enclosure visit draft (.object members) =
      members.foldlM (fun d m => visit d m.1 m.2) draft :=
  rfl

@[simp]
theorem fill_none_ok {α : Type} (name : String) (a : α) :
    fill name none (.ok a) = pure (some a) :=
  rfl

@[simp]
theorem need_some {α : Type} (name : String) (a : α) : need name (some a) = pure a :=
  rfl

/-! ### Nodes and edges -/

open Json

theorem Position.recovers {p q : Position} (hx : ReadsBackAs p.x q.x) (hy : ReadsBackAs p.y q.y)
    (enclosure : Enclosure) (depth : Nat) :
    Recovers (Position.ofJson enclosure) (depth + 1) p.toJson q := by
  obtain ⟨x, hreadx, hx⟩ := readAs_ofFloat hx depth
  obtain ⟨y, hready, hy⟩ := readAs_ofFloat hy depth
  refine recovers_object (.cons "x" hreadx (.cons "y" hready .nil)) ?_
  simp only [sortMembers, insertMember, List.foldl, String.reduceLT, String.reduceEq, ↓reduceIte]
  simp [Position.ofJson, Draft.visit, hx, hy]

theorem Size.recovers {s t : Size} (hwidth : ReadsBackAs s.width t.width)
    (hheight : ReadsBackAs s.height t.height) (enclosure : Enclosure) (depth : Nat) :
    Recovers (Size.ofJson enclosure) (depth + 1) s.toJson t := by
  obtain ⟨width, hreadw, hwidth⟩ := readAs_ofFloat hwidth depth
  obtain ⟨height, hreadh, hheight⟩ := readAs_ofFloat hheight depth
  refine recovers_object (.cons "width" hreadw (.cons "height" hreadh .nil)) ?_
  simp only [sortMembers, insertMember, List.foldl, String.reduceLT, ↓reduceIte]
  simp [Size.ofJson, Draft.visit, hwidth, hheight]

/-- The node `n` is stored so that `m` is found: the same but for the coordinates, which are those
that the texts of the coordinates are read as. -/
structure Node.StoredAs (n m : Node) : Prop where
  id_eq : m.id = n.id
  label_eq : m.label = n.label
  selected_eq : m.selected = n.selected
  x : ReadsBackAs n.position.x m.position.x
  y : ReadsBackAs n.position.y m.position.y
  width : ReadsBackAs n.size.width m.size.width
  height : ReadsBackAs n.size.height m.size.height

/-- The four coordinates of the node are read back. -/
structure Node.Storable (n : Node) : Prop where
  x : ReadsBack n.position.x
  y : ReadsBack n.position.y
  width : ReadsBack n.size.width
  height : ReadsBack n.size.height

instance (n : Node) : Decidable n.Storable :=
  decidable_of_iff (ReadsBack n.position.x ∧ ReadsBack n.position.y ∧ ReadsBack n.size.width ∧
      ReadsBack n.size.height)
    ⟨fun ⟨hx, hy, hwidth, hheight⟩ => ⟨hx, hy, hwidth, hheight⟩,
      fun h => ⟨h.x, h.y, h.width, h.height⟩⟩

theorem Node.Storable.storedAs {n : Node} (h : n.Storable) : n.StoredAs n where
  id_eq := rfl
  label_eq := rfl
  selected_eq := rfl
  x := h.x.readsBackAs
  y := h.y.readsBackAs
  width := h.width.readsBackAs
  height := h.height.readsBackAs

theorem Node.recovers {n m : Node} (h : n.StoredAs m) (depth : Nat) :
    Recovers Node.ofJson (depth + 2) n.toJson m := by
  obtain ⟨position, hreadp, hposition⟩ := Position.recovers h.x h.y .plain depth
  obtain ⟨size, hreads, hsize⟩ := Size.recovers h.width h.height .plain depth
  refine recovers_object (.cons "id" (readAs_string _ _) (.cons "label" (readAs_string _ _)
    (.cons "position" hreadp (.cons "size" hreads
      (.cons "selected" (readAs_bool _ _) .nil))))) ?_
  simp only [sortMembers, insertMember, List.foldl, String.reduceLT, String.reduceEq, ↓reduceIte]
  simp [Node.ofJson, Draft.visit, hposition, hsize, asString, asBool, ← h.id_eq, ← h.label_eq,
    ← h.selected_eq]

theorem EdgeKind.ofJson_toJson (k : EdgeKind) : EdgeKind.ofJson k.toJson = .ok k := by
  cases k
  rfl

/-- Every edge is found again, whether it has a label or not and is selected or not. -/
theorem Edge.recovers (e : Edge) (depth : Nat) :
    Recovers Edge.ofJson (depth + 1) e.toJson e := by
  obtain ⟨id, source, target, label, kind, selected⟩ := e
  -- No member of an edge changes on its way; which members there are tells the cases apart.
  refine recovers_object (List.forall₂_same.mpr fun m hm => ⟨rfl, ?_⟩) ?_
  · revert m
    cases label <;> cases selected <;>
      simp [labelMember, selectedMember, EdgeKind.toJson, readAs_string, readAs_bool]
  · cases label <;> cases selected <;>
      simp only [labelMember, selectedMember, List.cons_append, List.nil_append, List.append_nil,
        sortMembers, insertMember, List.foldl, String.reduceLT, String.reduceEq, ↓reduceIte] <;>
      simp [Edge.ofJson, Draft.visit, asString, asBool, asOption, Except.map,
        EdgeKind.ofJson_toJson]

/-! ### Snapshots -/

theorem Engine.recovers (e : Engine) (depth : Nat) : Recovers Engine.ofJson depth e.toJson e := by
  refine ⟨_, readAs_string _ _, ?_⟩
  cases e <;> rfl

theorem Timestamp.recovers {t : Timestamp} (h : parse t.text = .ok t) (depth : Nat) :
    Recovers Timestamp.ofJson depth t.toJson t := by
  refine ⟨_, readAs_string _ _, ?_⟩
  rw [ofJson, h]

/-- A saved diagram that has all its parts is found again, with its nodes as they are stored. -/
theorem DiagramRecord.recovers {id code : String} {engine : Engine} {nodes nodes' : List Node}
    {edges : List Edge} {createdAt updatedAt : Timestamp}
    (hnodes : List.Forall₂ Node.StoredAs nodes nodes')
    (hcreated : Timestamp.parse createdAt.text = .ok createdAt)
    (hupdated : Timestamp.parse updatedAt.text = .ok updatedAt) (depth : Nat) :
    Recovers DiagramRecord.ofJson (depth + 4)
      (toJson ⟨some id, engine, code, some nodes, some edges, some createdAt, some updatedAt⟩)
      ⟨some id, engine, code, some nodes', some edges, some createdAt, some updatedAt⟩ := by
  obtain ⟨_, hreadId, hid⟩ := recovers_some nofun (recovers_string (depth + 3) id)
  obtain ⟨_, hreadEngine, hengine⟩ := Engine.recovers engine (depth + 3)
  obtain ⟨_, hreadNodes, hnodes⟩ := recovers_some nofun
    (recovers_list (hnodes.imp fun _ _ h => Node.recovers h depth))
  obtain ⟨_, hreadEdges, hedges⟩ := recovers_some nofun
    (recovers_list (List.forall₂_same.mpr fun e (_ : e ∈ edges) => Edge.recovers e (depth + 1)))
  obtain ⟨_, hreadCreated, hcreated⟩ := recovers_some nofun
    (Timestamp.recovers hcreated (depth + 3))
  obtain ⟨_, hreadUpdated, hupdated⟩ := recovers_some nofun
    (Timestamp.recovers hupdated (depth + 3))
  refine recovers_object (.cons "id" hreadId (.cons "engine" hreadEngine
    (.cons "code" (readAs_string _ _) (.cons "nodes" hreadNodes (.cons "edges" hreadEdges
      (.cons "createdAt" hreadCreated (.cons "updatedAt" hreadUpdated .nil))))))) ?_
  simp only [sortMembers, insertMember, List.foldl, String.reduceLT, String.reduceEq, ↓reduceIte]
  simp [DiagramRecord.ofJson, Draft.visit, hid, hengine, hnodes, hedges,
    hcreated, hupdated, asString]

/-- The version that is written is one that is read. -/
theorem Snapshot.isSupportedVersion_currentVersion : isSupportedVersion currentVersion = true := by
  decide

/-- A snapshot of a supported version is read back from its text with the diagram that is found
again, also with blanks behind the text. -/
theorem Snapshot.parse_text {s : Snapshot} {r : DiagramRecord}
    (hversion : isSupportedVersion s.version = true)
    (hdiagram : Recovers DiagramRecord.ofJson (maxDepth - 1) s.diagram.toJson r) (tail : String)
    (htail : ∀ c ∈ tail.toList, Json.isBlank c = true) :
    parse (s.text ++ tail) = .ok ⟨s.version, r⟩ := by
  obtain ⟨diagram, hread, hdiagram⟩ := hdiagram
  have hsorted : sortMembers [("version", .string s.version), ("diagram", diagram)] =
      [("diagram", diagram), ("version", .string s.version)] := by
    simp only [sortMembers, insertMember, List.foldl, String.reduceLT, ↓reduceIte]
  have hparse : parse? (s.text ++ tail) =
      some (.object [("diagram", diagram), ("version", .string s.version)]) := by
    rw [← hsorted]
    exact parse?_render_append (readAs_object (.cons "version" (readAs_string _ _)
      (.cons "diagram" hread .nil))) .pretty tail htail
  have hofJson : ofJson (.object [("diagram", diagram), ("version", .string s.version)]) =
      .ok ⟨s.version, r⟩ := by
    change _ = pure (⟨s.version, r⟩ : Snapshot)
    simp [ofJson, Draft.visit, hdiagram, asString]
  rw [parse, hparse]
  simp only [ofDocument, member?, List.lookup_cons_self, hofJson, hversion, if_true]

end BoxArrow
