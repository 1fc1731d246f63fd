import BoxArrow.Json.Basic
import BoxArrow.Text.Quoted

/-!
# Typed values out of JSON documents

A document is decoded into a value of a type, or the first thing that does not fit is reported.
A *record* is read from an object by key, where keys that it does not have are passed over, or from
an array of its fields in order. Members of an object are looked at in the order in which they
stand, so it is the first bad member that is reported; fields that are missing are reported after
that, in the order of the record.

## Main definitions

* `BoxArrow.DecodeError` — what does not fit, and `BoxArrow.DecodeError.message`.
* `BoxArrow.Json.asString`, `asBool`, `asFloat`, `asNatural`, `asList`, `asOption` — simple values.
* `BoxArrow.RecordShape`, `BoxArrow.RecordShape.read` — records.
* `BoxArrow.Json.asTag` — a choice among named alternatives without content.
* `BoxArrow.Json.asTagged` — a record that says which alternative it is under the key `type`.
-/

namespace BoxArrow

/-- Why a document could not be decoded. What was wanted instead is given in words. -/
inductive DecodeError where
  /-- The document is of another kind. -/
  | wrongType (found : Json) (wanted : String)
  /-- The document is of the right kind but out of range. -/
  | wrongValue (found : Json) (wanted : String)
  /-- An array has too few or too many entries. -/
  | wrongLength (length : Nat) (wanted : String)
  | missingField (name : String)
  | duplicateField (name : String)
  /-- A choice is none of the known ones. -/
  | unknownVariant (found : String) (known : List String)
  /-- A text does not have the form that was wanted. What is wrong with it is given in words. -/
  | malformed (reason : String)

/-- A document as messages name it. -/
def Json.description : Json → String
  | null => "null"
  | bool b => s!"boolean `{b}`"
  | number (.int n) => s!"integer `{n}`"
  | number (.float x) => s!"floating point `{floatText x}`"
  | string s => s!"string {quoted s}"
  | array _ => "sequence"
  | object _ => "map"

/-- The known alternatives of a choice as messages name them. -/
def knownVariants : List String → String
  | [] => "there are no variants"
  | [a] => s!"expected `{a}`"
  | [a, b] => s!"expected `{a}` or `{b}`"
  | many => "expected one of " ++ ", ".intercalate (many.map fun a => s!"`{a}`")

/-- The wording of a decoding error. -/
def DecodeError.message : DecodeError → String
  | wrongType found wanted => s!"invalid type: {found.description}, expected {wanted}"
  | wrongValue found wanted => s!"invalid value: {found.description}, expected {wanted}"
  | wrongLength length wanted => s!"invalid length {length}, expected {wanted}"
  | missingField name => s!"missing field `{name}`"
  | duplicateField name => s!"duplicate field `{name}`"
  | unknownVariant found known => s!"unknown variant `{found}`, {knownVariants known}"
  | malformed reason => reason

/-- A decoded value, or the reason why there is none. -/
abbrev Decoded (α : Type) := Except DecodeError α

namespace Json

/-! ### Simple values -/

/-- Decodes a text. -/
def asString : Json → Decoded String
  | .string s => .ok s
  | j => .error (.wrongType j "a string")

/-- Decodes a truth value. -/
def asBool : Json → Decoded Bool
  | .bool b => .ok b
  | j => .error (.wrongType j "a boolean")

/-- Decodes a floating point number, from a whole number too. -/
def asFloat : Json → Decoded Float
  | .number n => .ok n.toFloat
  | j => .error (.wrongType j "f64")

/-- Decodes a natural number of 64 bits. -/
def asNatural : Json → Decoded Nat
  | .number (.int n) =>
    if 0 ≤ n ∧ n.toNat < Nat.pow 2 64 then .ok n.toNat
    else .error (.wrongValue (.number (.int n)) "u64")
  | j => .error (.wrongType j "u64")

/-- Decodes a list, entry by entry. -/
def asList {α : Type} (entry : Json → Decoded α) : Json → Decoded (List α)
  | .array items => items.mapM entry
  | j => .error (.wrongType j "a sequence")

/-- Decodes a value that may be absent; `null` stands for an absent one. -/
def asOption {α : Type} (value : Json → Decoded α) : Json → Decoded (Option α)
  | .null => .ok none
  | j => (value j).map some

/-- The alternative with the given name. -/
def chooseVariant {α : Type} (known : List (String × α)) (name : String) : Decoded α :=
  match known.lookup name with
  | some a => .ok a
  | none => .error (.unknownVariant name (known.map (·.1)))

/-- Decodes a choice among alternatives without content: its name, or an object in which the name
has no value. -/
def asTag {α : Type} (known : List (String × α)) : Json → Decoded α
  | .string name => chooseVariant known name
  | .object [(name, content)] => do
    let a ← chooseVariant known name
    match content with
    | .null => return a
    | j => throw (.wrongType j "unit")
  | .object members => .error (.wrongValue (.object members) "map with a single key")
  | j => .error (.wrongType j "string or map")

end Json

/-! ### Records -/

/-- Where a record stands. It decides how an array with too many entries is reported. -/
inductive Enclosure where
  /-- Not within a tagged record. -/
  | plain
  /-- Within a tagged record. -/
  | tagged
deriving DecidableEq, Repr

/-- A number of elements in words. -/
def elementCount (n : Nat) : String :=
  if n = 1 then "1 element" else s!"{n} elements"

/-- What would have been wanted of an array that is longer than the `n` fields of its record. -/
def Enclosure.wantedLength (n : Nat) : Enclosure → String
  | plain => "fewer elements in array"
  | tagged => s!"{elementCount n} in sequence"

/-- The field of a record in the order of its declaration. -/
structure FieldShape where
  name : String
  /-- Whether the record has to have this field. -/
  required : Bool
deriving DecidableEq, Repr

/-- A kind of record. -/
structure RecordShape where
  /-- How messages name the kind of record. -/
  title : String
  fields : List FieldShape
deriving DecidableEq, Repr

namespace RecordShape

/-- The position of the first required field among those after the first `given` ones. -/
def firstMissing (shape : RecordShape) (given : Nat) : Option Nat :=
  (List.range shape.fields.length).find? fun i =>
    given ≤ i && (shape.fields[i]?.map (·.required)).getD false

/-- Reads a record, starting from a draft in which no field is set. `visit` sets the field under a
key. Whether all required fields of an object are set is for the caller to see. -/
def read {σ : Type} (shape : RecordShape) (enclosure : Enclosure)
    (visit : σ → String → Json → Decoded σ) (draft : σ) : Json → Decoded σ
  | .object members => members.foldlM (fun d m => visit d m.1 m.2) draft
  | .array items => do
    let filled ← (shape.fields.zip items).foldlM (fun d p => visit d p.1.name p.2) draft
    let count := shape.fields.length
    match shape.firstMissing items.length with
    | some i => throw (.wrongLength i s!"{shape.title} with {elementCount count}")
    | none =>
      if count < items.length then throw (.wrongLength items.length (enclosure.wantedLength count))
      else return filled
  | j => .error (.wrongType j shape.title)

end RecordShape

/-- Sets a field of a draft that is not set yet. -/
def fill {α : Type} (name : String) (slot : Option α) (value : Decoded α) : Decoded (Option α) :=
  if slot.isSome then .error (.duplicateField name) else value.map some

/-- The value of a field that a record has to have. -/
def need {α : Type} (name : String) : Option α → Decoded α
  | some a => .ok a
  | none => .error (.missingField name)

namespace Json

/-- Decodes the name of an alternative that stands in a record. -/
def asVariantName : Json → Decoded String
  | .string s => .ok s
  | j => .error (.wrongType j "variant identifier")

/-- Decodes a record that names its alternative, in an object under the key `type` and in an array
as the first entry. The rest of the record goes to the alternative. -/
def asTagged {α : Type} (title : String) (known : List (String × (Json → Decoded α))) :
    Json → Decoded α
  | .object members =>
    match members.lookup "type" with
    | none => .error (.missingField "type")
    | some tag => do
      let content ← chooseVariant known (← asVariantName tag)
      content (.object (members.filter fun m => m.1 != "type"))
  | .array [] => .error (.missingField "type")
  | .array (tag :: items) => do
    let content ← chooseVariant known (← asVariantName tag)
    content (.array items)
  | j => .error (.wrongType j title)

end Json

end BoxArrow
