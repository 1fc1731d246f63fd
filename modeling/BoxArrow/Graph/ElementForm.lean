import BoxArrow.Engine
import BoxArrow.Graph.Basic
import BoxArrow.Json.Decode

/-!
# The JSON form of nodes and edges

Nodes and edges are stored as records. What is left out of an edge when it is written, a label that
it does not have and a selection that is off, is what an edge without these fields is read as.

## Main definitions

* `toJson` and `ofJson` for `BoxArrow.Engine`, `BoxArrow.Position`, `BoxArrow.Size`,
  `BoxArrow.EdgeKind`, `BoxArrow.Node` and `BoxArrow.Edge`.
-/

namespace BoxArrow

namespace Engine

/-- The engines by tag. -/
def byTag : List (String × Engine) :=
  all.map fun e => (e.tag, e)

/-- Decodes an engine from its exact tag. -/
def ofJson : Json → Decoded Engine :=
  Json.asTag byTag

/-- An engine as its tag. -/
def toJson (e : Engine) : Json :=
  .string e.tag

end Engine

namespace EdgeKind

/-- The name of a routing style in files. -/
def name : EdgeKind → String
  | smoothStep => "smoothstep"

/-- Decodes a routing style. -/
def ofJson : Json → Decoded EdgeKind :=
  Json.asTag [(smoothStep.name, smoothStep)]

/-- A routing style as its name. -/
def toJson (k : EdgeKind) : Json :=
  .string k.name

end EdgeKind

namespace Position

/-- A position of which some coordinates are known. -/
structure Draft where
  x : Option Float
  y : Option Float

/-- Sets the coordinate under a key. -/
def Draft.visit (d : Draft) (key : String) (j : Json) : Decoded Draft :=
  match key with
  | "x" => do return { d with x := ← fill "x" d.x j.asFloat }
  | "y" => do return { d with y := ← fill "y" d.y j.asFloat }
  | _ => .ok d

/-- The record of a position. -/
def shape : RecordShape := ⟨"struct Position", [⟨"x", true⟩, ⟨"y", true⟩]⟩

/-- Decodes a position. -/
def ofJson (enclosure : Enclosure) (j : Json) : Decoded Position := do
  let d ← shape.read enclosure Draft.visit ⟨none, none⟩ j
  return { x := ← need "x" d.x, y := ← need "y" d.y }

/-- A position as a record. -/
def toJson (p : Position) : Json :=
  .object [("x", .ofFloat p.x), ("y", .ofFloat p.y)]

end Position

namespace Size

/-- A size of which some lengths are known. -/
structure Draft where
  width : Option Float
  height : Option Float

/-- Sets the length under a key. -/
def Draft.visit (d : Draft) (key : String) (j : Json) : Decoded Draft :=
  match key with
  | "width" => do return { d with width := ← fill "width" d.width j.asFloat }
  | "height" => do return { d with height := ← fill "height" d.height j.asFloat }
  | _ => .ok d

/-- The record of a size. -/
def shape : RecordShape := ⟨"struct Size", [⟨"width", true⟩, ⟨"height", true⟩]⟩

/-- Decodes a size. -/
def ofJson (enclosure : Enclosure) (j : Json) : Decoded Size := do
  let d ← shape.read enclosure Draft.visit ⟨none, none⟩ j
  return { width := ← need "width" d.width, height := ← need "height" d.height }

/-- A size as a record. -/
def toJson (s : Size) : Json :=
  .object [("width", .ofFloat s.width), ("height", .ofFloat s.height)]

end Size

namespace Node

/-- A node of which some fields are known. -/
structure Draft where
  id : Option String
  label : Option String
  position : Option Position
  size : Option Size
  selected : Option Bool

/-- Sets the field under a key. -/
def Draft.visit (d : Draft) (key : String) (j : Json) : Decoded Draft :=
  match key with
  | "id" => do return { d with id := ← fill "id" d.id j.asString }
  | "label" => do return { d with label := ← fill "label" d.label j.asString }
  | "position" => do
    return { d with position := ← fill "position" d.position (Position.ofJson .plain j) }
  | "size" => do return { d with size := ← fill "size" d.size (Size.ofJson .plain j) }
  | "selected" => do return { d with selected := ← fill "selected" d.selected j.asBool }
  | _ => .ok d

/-- The record of a node. -/
def shape : RecordShape where
  title := "struct Node"
  fields := [⟨"id", true⟩, ⟨"label", true⟩, ⟨"position", true⟩, ⟨"size", false⟩,
    ⟨"selected", false⟩]

/-- Decodes a node. A node without a size has the usual one, and is unselected unless it says
otherwise. -/
def ofJson (j : Json) : Decoded Node := do
  let d ← shape.read .plain Draft.visit ⟨none, none, none, none, none⟩ j
  return {
    id := ← need "id" d.id
    label := ← need "label" d.label
    position := ← need "position" d.position
    size := d.size.getD Size.default
    selected := d.selected.getD false }

/-- A node as a record. -/
def toJson (n : Node) : Json :=
  .object [("id", .string n.id), ("label", .string n.label), ("position", n.position.toJson),
    ("size", n.size.toJson), ("selected", .bool n.selected)]

end Node

namespace Edge

/-- An edge of which some fields are known. -/
structure Draft where
  id : Option String
  source : Option String
  target : Option String
  label : Option (Option String)
  kind : Option EdgeKind
  selected : Option Bool

/-- Sets the field under a key. The routing style has two keys. -/
def Draft.visit (d : Draft) (key : String) (j : Json) : Decoded Draft :=
  match key with
  | "id" => do return { d with id := ← fill "id" d.id j.asString }
  | "source" => do return { d with source := ← fill "source" d.source j.asString }
  | "target" => do return { d with target := ← fill "target" d.target j.asString }
  | "label" => do return { d with label := ← fill "label" d.label (j.asOption Json.asString) }
  | "kind" | "type" => do return { d with kind := ← fill "kind" d.kind (EdgeKind.ofJson j) }
  | "selected" => do return { d with selected := ← fill "selected" d.selected j.asBool }
  | _ => .ok d

/-- The record of an edge. -/
def shape : RecordShape where
  title := "struct Edge"
  fields := [⟨"id", true⟩, ⟨"source", true⟩, ⟨"target", true⟩, ⟨"label", false⟩, ⟨"kind", false⟩,
    ⟨"selected", false⟩]

/-- Decodes an edge. -/
def ofJson (j : Json) : Decoded Edge := do
  let d ← shape.read .plain Draft.visit ⟨none, none, none, none, none, none⟩ j
  return {
    id := ← need "id" d.id
    source := ← need "source" d.source
    target := ← need "target" d.target
    label := d.label.join
    kind := d.kind.getD .smoothStep
    selected := d.selected.getD false }

/-- The member for the label of an edge, where it has one. -/
def labelMember (e : Edge) : List (String × Json) :=
  match e.label with
  | some label => [("label", .string label)]
  | none => []

/-- The member for the selection of an edge, where it is selected. -/
def selectedMember (e : Edge) : List (String × Json) :=
  if e.selected then [("selected", .bool true)] else []

/-- An edge as a record. -/
def toJson (e : Edge) : Json :=
  .object ([("id", .string e.id), ("source", .string e.source), ("target", .string e.target)] ++
    e.labelMember ++ [("kind", e.kind.toJson)] ++ e.selectedMember)

end Edge

end BoxArrow
