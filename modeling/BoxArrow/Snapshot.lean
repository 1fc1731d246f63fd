import BoxArrow.Fault
import BoxArrow.Graph.ElementForm
import BoxArrow.Json.Reader
import BoxArrow.Timestamp.Text

/-!
# Snapshots

A snapshot is what a diagram is saved as: its text with the engine, and its graph. The text of a
snapshot is a JSON document with a version. Files of other tools may leave out the id, the times and
the arrays of nodes and edges.

## Main definitions

* `BoxArrow.Snapshot`, `BoxArrow.DiagramRecord`.
* `BoxArrow.Snapshot.text` — a snapshot as JSON text.
* `BoxArrow.Snapshot.parse`, `BoxArrow.Snapshot.ofDocument` — reading a snapshot.
* `BoxArrow.isSupportedVersion` — which versions are read.
-/

namespace BoxArrow

/-- One diagram as it is saved. -/
structure DiagramRecord where
  id : Option String
  engine : Engine
  code : String
  nodes : Option (List Node)
  edges : Option (List Edge)
  createdAt : Option Timestamp
  updatedAt : Option Timestamp
deriving DecidableEq, Repr, BEq

/-- A saved diagram with the version of its form. -/
structure Snapshot where
  version : String
  diagram : DiagramRecord
deriving DecidableEq, Repr, BEq

/-! ### Versions -/

/-- Appends decimal digits to a number, for as long as it fits in 64 bits. -/
def appendDigits (n : Nat) : List Char → Option Nat
  | [] => some n
  | c :: rest =>
    let next := 10 * n + (c.toNat - '0'.toNat)
    if c.isDigit ∧ next < Nat.pow 2 64 then appendDigits next rest else none

/-- The natural number of 64 bits that a text is. It may have a plus sign. -/
def parseNatural (cs : List Char) : Option Nat :=
  match (if cs.head? = some '+' then cs.tail else cs) with
  | [] => none
  | ds => appendDigits 0 ds

/-- The part of a version that counts: what stands before the first full stop. -/
def majorPart (version : String) : List Char :=
  trim (version.toList.takeWhile (· != '.'))

/-- Whether snapshots of this version are read: those whose major version is one. -/
def isSupportedVersion (version : String) : Bool :=
  parseNatural (majorPart version) == some 1

/-! ### The JSON form -/

namespace Timestamp

/-- Decodes a point in time. -/
def ofJson : Json → Decoded Timestamp
  | .string s =>
    match parse s with
    | .ok t => .ok t
    | .error e => .error (.malformed e.message)
  | j => .error (.wrongType j "an RFC 3339 formatted date and time string")

/-- A point in time as a text. -/
def toJson (t : Timestamp) : Json :=
  .string t.text

end Timestamp

namespace DiagramRecord

/-- A saved diagram of which some fields are known. -/
structure Draft where
  id : Option (Option String)
  engine : Option Engine
  code : Option String
  nodes : Option (Option (List Node))
  edges : Option (Option (List Edge))
  createdAt : Option (Option Timestamp)
  updatedAt : Option (Option Timestamp)

/-- Sets the field under a key. -/
def Draft.visit (d : Draft) (key : String) (j : Json) : Decoded Draft :=
  match key with
  | "id" => do return { d with id := ← fill "id" d.id (j.asOption Json.asString) }
  | "engine" => do return { d with engine := ← fill "engine" d.engine (Engine.ofJson j) }
  | "code" => do return { d with code := ← fill "code" d.code j.asString }
  | "nodes" => do
    return { d with nodes := ← fill "nodes" d.nodes (j.asOption (Json.asList Node.ofJson)) }
  | "edges" => do
    return { d with edges := ← fill "edges" d.edges (j.asOption (Json.asList Edge.ofJson)) }
  | "createdAt" => do
    return { d with createdAt := ← fill "createdAt" d.createdAt (j.asOption Timestamp.ofJson) }
  | "updatedAt" => do
    return { d with updatedAt := ← fill "updatedAt" d.updatedAt (j.asOption Timestamp.ofJson) }
  | _ => .ok d

/-- The record of a saved diagram. -/
def shape : RecordShape where
  title := "struct DiagramRecord"
  fields := [⟨"id", false⟩, ⟨"engine", true⟩, ⟨"code", true⟩, ⟨"nodes", false⟩, ⟨"edges", false⟩,
    ⟨"createdAt", false⟩, ⟨"updatedAt", false⟩]

/-- Decodes a saved diagram. -/
def ofJson (j : Json) : Decoded DiagramRecord := do
  let d ← shape.read .plain Draft.visit ⟨none, none, none, none, none, none, none⟩ j
  return {
    id := d.id.join
    engine := ← need "engine" d.engine
    code := ← need "code" d.code
    nodes := d.nodes.join
    edges := d.edges.join
    createdAt := d.createdAt.join
    updatedAt := d.updatedAt.join }

/-- A member for a value that there is, and none for one that there is not. -/
def optionalMember {α : Type} (key : String) (form : α → Json) : Option α → List (String × Json)
  | some a => [(key, form a)]
  | none => []

/-- A saved diagram as a record. What is absent is left out. -/
def toJson (r : DiagramRecord) : Json :=
  .object (optionalMember "id" .string r.id ++
    [("engine", r.engine.toJson), ("code", .string r.code)] ++
    optionalMember "nodes" (fun ns => .array (ns.map Node.toJson)) r.nodes ++
    optionalMember "edges" (fun es => .array (es.map Edge.toJson)) r.edges ++
    optionalMember "createdAt" Timestamp.toJson r.createdAt ++
    optionalMember "updatedAt" Timestamp.toJson r.updatedAt)

end DiagramRecord

namespace Snapshot

/-- The version that is written. -/
def currentVersion : String := "1.0"

/-- A snapshot of which some fields are known. -/
structure Draft where
  version : Option String
  diagram : Option DiagramRecord

/-- Sets the field under a key. -/
def Draft.visit (d : Draft) (key : String) (j : Json) : Decoded Draft :=
  match key with
  | "version" => do return { d with version := ← fill "version" d.version j.asString }
  | "diagram" => do return { d with diagram := ← fill "diagram" d.diagram (DiagramRecord.ofJson j) }
  | _ => .ok d

/-- The record of a snapshot. -/
def shape : RecordShape := ⟨"struct Snapshot", [⟨"version", true⟩, ⟨"diagram", true⟩]⟩

/-- Decodes a snapshot of any version. -/
def ofJson (j : Json) : Decoded Snapshot := do
  let d ← shape.read .plain Draft.visit ⟨none, none⟩ j
  return { version := ← need "version" d.version, diagram := ← need "diagram" d.diagram }

/-- A snapshot as a record. -/
def toJson (s : Snapshot) : Json :=
  .object [("version", .string s.version), ("diagram", s.diagram.toJson)]

/-- Reads a snapshot from a document. The document has to be an object with a diagram, and the
version has to be one that is supported. -/
def ofDocument (j : Json) : Except Fault Snapshot :=
  match j.member? "diagram" with
  | none => .error (.invalidFormat .noDiagram)
  | some _ =>
    match ofJson j with
    | .error e => .error (.invalidFormat (.undecodable e))
    | .ok s =>
      if isSupportedVersion s.version then .ok s
      else .error (.invalidFormat (.unsupportedVersion s.version))

/-- Reads a snapshot from JSON text. -/
def parse (text : String) : Except Fault Snapshot :=
  match Json.parse? text with
  | none => .error (.invalidFormat .notJson)
  | some j => ofDocument j

/-- A snapshot as JSON text. -/
def text (s : Snapshot) : String :=
  s.toJson.pretty

/-- The name of the file that a snapshot taken at the given time is offered under. -/
def fileName (now : Timestamp) : String :=
  s!"diagram-{now.millis}.json"

end Snapshot

end BoxArrow
