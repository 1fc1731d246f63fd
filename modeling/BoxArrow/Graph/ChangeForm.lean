import BoxArrow.Graph.Change
import BoxArrow.Graph.ElementForm

/-!
# The JSON form of changes

A change is a record that says what it is under the key `type`. The editor adds keys of its own,
such as `dragging`, which are passed over.

## Main definitions

* `toJson` and `ofJson` for `BoxArrow.NodeChange`, `BoxArrow.EdgeChange` and `BoxArrow.ChangeSet`.
-/

namespace BoxArrow

/-- What may stand in the record of a change, as far as it is known. -/
structure ChangeDraft where
  id : Option String
  position : Option (Option Position)
  dimensions : Option (Option Size)
  selected : Option Bool

namespace ChangeDraft

/-- The draft in which nothing is known. -/
def blank : ChangeDraft := ⟨none, none, none, none⟩

/-- Sets the field under a key, provided that it is a field of the given record. -/
def visit (shape : RecordShape) (d : ChangeDraft) (key : String) (j : Json) :
    Decoded ChangeDraft :=
  if shape.fields.any (·.name == key) then
    match key with
    | "id" => do return { d with id := ← fill "id" d.id j.asString }
    | "position" => do
      let slot ← fill "position" d.position (j.asOption (Position.ofJson .tagged))
      return { d with position := slot }
    | "dimensions" => do
      let slot ← fill "dimensions" d.dimensions (j.asOption (Size.ofJson .tagged))
      return { d with dimensions := slot }
    | "selected" => do return { d with selected := ← fill "selected" d.selected j.asBool }
    | _ => .ok d
  else .ok d

/-- Reads the record of a change. -/
def read (shape : RecordShape) (j : Json) : Decoded ChangeDraft :=
  shape.read .tagged (visit shape) blank j

end ChangeDraft

/-- The record of one kind of change: an id, and what is given as further fields. -/
def changeShape (title : String) (fields : List FieldShape) : RecordShape :=
  ⟨s!"struct variant {title}", ⟨"id", true⟩ :: fields⟩

namespace NodeChange

/-- Decodes the kinds of node changes by name. -/
def variants : List (String × (Json → Decoded NodeChange)) :=
  [("position", fun j => do
      let d ← ChangeDraft.read (changeShape "NodeChange::Position" [⟨"position", false⟩]) j
      return .position (← need "id" d.id) d.position.join),
    ("dimensions", fun j => do
      let d ← ChangeDraft.read (changeShape "NodeChange::Dimensions" [⟨"dimensions", false⟩]) j
      return .dimensions (← need "id" d.id) d.dimensions.join),
    ("select", fun j => do
      let d ← ChangeDraft.read (changeShape "NodeChange::Select" [⟨"selected", true⟩]) j
      return .select (← need "id" d.id) (← need "selected" d.selected)),
    ("remove", fun j => do
      let d ← ChangeDraft.read (changeShape "NodeChange::Remove" []) j
      return .remove (← need "id" d.id))]

/-- Decodes a node change. -/
def ofJson : Json → Decoded NodeChange :=
  Json.asTagged "internally tagged enum NodeChange" variants

/-- A node change as a record. -/
def toJson : NodeChange → Json
  | position id p =>
    .object [("type", .string "position"), ("id", .string id),
      ("position", (p.map Position.toJson).getD .null)]
  | dimensions id s =>
    .object [("type", .string "dimensions"), ("id", .string id),
      ("dimensions", (s.map Size.toJson).getD .null)]
  | select id selected =>
    .object [("type", .string "select"), ("id", .string id), ("selected", .bool selected)]
  | remove id => .object [("type", .string "remove"), ("id", .string id)]

end NodeChange

namespace EdgeChange

/-- Decodes the kinds of edge changes by name. -/
def variants : List (String × (Json → Decoded EdgeChange)) :=
  [("select", fun j => do
      let d ← ChangeDraft.read (changeShape "EdgeChange::Select" [⟨"selected", true⟩]) j
      return .select (← need "id" d.id) (← need "selected" d.selected)),
    ("remove", fun j => do
      let d ← ChangeDraft.read (changeShape "EdgeChange::Remove" []) j
      return .remove (← need "id" d.id))]

/-- Decodes an edge change. -/
def ofJson : Json → Decoded EdgeChange :=
  Json.asTagged "internally tagged enum EdgeChange" variants

/-- An edge change as a record. -/
def toJson : EdgeChange → Json
  | select id selected =>
    .object [("type", .string "select"), ("id", .string id), ("selected", .bool selected)]
  | remove id => .object [("type", .string "remove"), ("id", .string id)]

end EdgeChange

namespace ChangeSet

/-- A batch of which some sections are known. -/
structure Draft where
  nodes : Option (List NodeChange)
  edges : Option (List EdgeChange)

/-- Sets the section under a key. -/
def Draft.visit (d : Draft) (key : String) (j : Json) : Decoded Draft :=
  match key with
  | "nodes" => do return { d with nodes := ← fill "nodes" d.nodes (j.asList NodeChange.ofJson) }
  | "edges" => do return { d with edges := ← fill "edges" d.edges (j.asList EdgeChange.ofJson) }
  | _ => .ok d

/-- The record of a batch. -/
def shape : RecordShape := ⟨"struct ChangeSet", [⟨"nodes", false⟩, ⟨"edges", false⟩]⟩

/-- Decodes a batch. A section that is not there is empty. -/
def ofJson (j : Json) : Decoded ChangeSet := do
  let d ← shape.read .plain Draft.visit ⟨none, none⟩ j
  return { nodes := d.nodes.getD [], edges := d.edges.getD [] }

/-- A batch as a record. -/
def toJson (c : ChangeSet) : Json :=
  .object [("nodes", .array (c.nodes.map NodeChange.toJson)),
    ("edges", .array (c.edges.map EdgeChange.toJson))]

end ChangeSet

end BoxArrow
