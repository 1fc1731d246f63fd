import BoxArrow.Decimal.Notation
import BoxArrow.Decimal.Reading

/-!
# JSON documents and how they are written

A document is a value. The members of an object are kept as a list: a document that is written lists
them in the order of its author's choice, and a document that was read lists them by ascending key,
each key once.

## Main definitions

* `BoxArrow.Json` — documents.
* `BoxArrow.Json.sortMembers` — members by ascending key, the last of equal keys kept.
* `BoxArrow.Json.compact`, `BoxArrow.Json.pretty` — documents as text.
-/

namespace BoxArrow

/-- A JSON document. -/
inductive Json where
  | null
  | bool (b : Bool)
  | number (n : Number)
  | string (s : String)
  | array (items : List Json)
  | object (members : List (String × Json))
deriving Inhabited, Repr

namespace Json

/-- The document of a floating point number. There is none for NaN and the infinities, which
become `null`. -/
def ofFloat (x : Float) : Json :=
  if x.isFinite then .number (.float x) else .null

/-- Puts a member in its place among members by ascending key, instead of one with the same key. -/
def insertMember (key : String) (value : Json) : List (String × Json) → List (String × Json)
  | [] => [(key, value)]
  | (k, v) :: rest =>
    if key < k then (key, value) :: (k, v) :: rest
    else if key = k then (key, value) :: rest
    else (k, v) :: insertMember key value rest

/-- Members by ascending key. Of members with the same key the last one is kept. -/
def sortMembers (members : List (String × Json)) : List (String × Json) :=
  members.foldl (fun sorted m => insertMember m.1 m.2 sorted) []

/-- The value of the first member with the given key. -/
def member? (key : String) : Json → Option Json
  | .object members => members.lookup key
  | _ => none

/-! ### Writing -/

/-- A character below `0x20` by its code point, in four lower-case hexadecimal digits. -/
def controlEscape (c : Char) : List Char :=
  ['\\', 'u', '0', '0', Nat.digitChar (c.toNat / 16), Nat.digitChar (c.toNat % 16)]

/-- A character as it is written in a string. Only what has to be escaped is. -/
def stringChar (c : Char) : List Char :=
  if c == '"' then ['\\', '"']
  else if c == '\\' then ['\\', '\\']
  else if c == '\x08' then ['\\', 'b']
  else if c == '\x0c' then ['\\', 'f']
  else if c == '\n' then ['\\', 'n']
  else if c == '\r' then ['\\', 'r']
  else if c == '\t' then ['\\', 't']
  else if c < ' ' then controlEscape c
  else [c]

/-- A string as it is written. -/
def stringText (s : String) : List Char :=
  '"' :: s.toList.flatMap stringChar ++ ['"']

/-- A number as it is written. -/
def numberText : Number → List Char
  | .int n => (toString n).toList
  | .float x => (floatText x).toList

/-- Whether a document is spread over lines. -/
inductive Layout where
  | compact
  | pretty
deriving DecidableEq, Repr

/-- What stands before an entry or a closing bracket: in a pretty layout, a new line that is
indented by two spaces for each level. -/
def Layout.newLine (level : Nat) : Layout → List Char
  | compact => []
  | pretty => '\n' :: List.replicate (2 * level) ' '

/-- What stands between a key and its value. -/
def Layout.colon : Layout → List Char
  | compact => [':']
  | pretty => [':', ' ']

mutual

/-- A document as text, inside of `level` brackets. -/
def render (layout : Layout) (level : Nat) : Json → List Char
  | null => ['n', 'u', 'l', 'l']
  | bool true => ['t', 'r', 'u', 'e']
  | bool false => ['f', 'a', 'l', 's', 'e']
  | number n => numberText n
  | string s => stringText s
  | array [] => ['[', ']']
  | array (item :: items) =>
    '[' :: layout.newLine (level + 1) ++ render layout (level + 1) item ++
      renderItems layout (level + 1) items ++ layout.newLine level ++ [']']
  | object [] => ['{', '}']
  | object ((key, value) :: members) =>
    '{' :: layout.newLine (level + 1) ++ stringText key ++ layout.colon ++
      render layout (level + 1) value ++
      renderMembers layout (level + 1) members ++ layout.newLine level ++ ['}']

/-- The entries of an array after the first one. -/
def renderItems (layout : Layout) (level : Nat) : List Json → List Char
  | [] => []
  | item :: items =>
    ',' :: layout.newLine level ++ render layout level item ++ renderItems layout level items

/-- The members of an object after the first one. -/
def renderMembers (layout : Layout) (level : Nat) : List (String × Json) → List Char
  | [] => []
  | (key, value) :: members =>
    ',' :: layout.newLine level ++ stringText key ++ layout.colon ++ render layout level value ++
      renderMembers layout level members

end

/-- A document on one line, without spaces. -/
def compact (j : Json) : String :=
  String.ofList (render .compact 0 j)

/-- A document spread over lines. -/
def pretty (j : Json) : String :=
  String.ofList (render .pretty 0 j)

end Json

end BoxArrow
