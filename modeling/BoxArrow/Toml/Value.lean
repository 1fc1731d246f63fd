import BoxArrow.Json.Basic

/-!
# TOML values

What a TOML document says under a key. Any number may be written down, but a number that is out of
range has no counterpart among JSON documents, and so whoever asks for it is refused.

## Main definitions

* `BoxArrow.Toml.Value` — values.
* `BoxArrow.Toml.Value.toJson?` — a value as a JSON document.
-/

namespace BoxArrow.Toml

/-- A value of a TOML document. -/
inductive Value where
  | text (s : String)
  | truth (b : Bool)
  | integer (n : Int)
  | fraction (x : Float)
  /-- A fraction beyond all floating point numbers. -/
  | overflow
  /-- A date, a time of day or both, as it is written. -/
  | date (written : String)
  | array (items : List Value)
  | table (entries : List (String × Value))
deriving Inhabited

/-- Whether a whole number fits in 128 bits, with or without a sign. -/
def isRepresentable (n : Int) : Bool :=
  if n < 0 then n.natAbs ≤ Nat.pow 2 127 else n.natAbs < Nat.pow 2 128

/-- A date or a time as a document. JSON has none, so that it is a record with a single member,
which no record of a configuration has. -/
def dateDocument (written : String) : Json :=
  .object [("datetime", .string written)]

mutual

/-- A value as a document, unless there is a number in it that is out of range. -/
def Value.toJson? : Value → Option Json
  | .text s => some (.string s)
  | .truth b => some (.bool b)
  | .integer n => if isRepresentable n then some (.number (.int n)) else none
  | .fraction x => some (.number (.float x))
  | .overflow => none
  | .date written => some (dateDocument written)
  | .array items => (itemsToJson? items).map .array
  | .table entries => (membersToJson? entries).map fun ms => .object (Json.sortMembers ms)

/-- The items of an array as documents. -/
def itemsToJson? : List Value → Option (List Json)
  | [] => some []
  | item :: items => do return (← item.toJson?) :: (← itemsToJson? items)

/-- The entries of a table as members of an object. -/
def membersToJson? : List (String × Value) → Option (List (String × Json))
  | [] => some []
  | (key, value) :: entries => do return (key, ← value.toJson?) :: (← membersToJson? entries)

end

end BoxArrow.Toml
