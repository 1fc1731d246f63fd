import BoxArrow.Toml.Scalar
import BoxArrow.Toml.Table

/-!
# How TOML documents are read

A document is a list of lines. A line assigns a value to a key, or it is the header of a table, or
it is empty; a comment may end it. Only long texts, arrays and tables in braces go over several
lines, and within brackets comments and line breaks may stand wherever spaces may, except in a key.

## Main definitions

* `BoxArrow.Toml.value` — the reader of a value.
* `BoxArrow.Toml.statements` — the reader of a document as a list of statements.
* `BoxArrow.Toml.parse?` — the table that a text is.
-/

namespace BoxArrow.Toml

/-! ### Keys -/

/-- The characters of a key without quotes. -/
def isKeyChar (c : Char) : Bool :=
  c.isAlphanum || c == '-' || c == '_'

/-- Reads a single key. -/
def simpleKey : Reader String :=
  .orElse (.span1 isKeyChar) lineText

/-- How many keys there may be in a path. -/
def maxKeys : Nat := 80

/-- Reads keys with dots between them. -/
def keyPath : Reader KeyPath := do
  let first ← simpleKey
  let more ← Reader.repeated (do
    skipSpaces
    Reader.literal "."
    skipSpaces
    simpleKey)
  if maxKeys < (first :: more).length then Reader.fail
  return .ofKeys first more

/-! ### Values -/

/-- Skips a comment. -/
def comment : Reader Unit := do
  Reader.literal "#"
  let _ ← Reader.span isPlain

/-- Skips spaces, comments and line breaks. -/
def skipGap : Reader Unit := do
  let _ ← Reader.repeated <|
    .orElse newline <|
    .orElse comment do
      let _ ← Reader.one fun c => c == ' ' || c == '\t'

/-- Reads a comma within brackets. -/
def comma : Reader Unit := do
  skipGap
  Reader.literal ","

/-- Reads what stands after an opening bracket, the closing one included: nothing, or entries with
commas between them and perhaps a comma after the last. -/
def entries {α : Type} (entry : Reader α) (close : String) : Reader (List α) := do
  skipGap
  Reader.orElse (do Reader.literal close; return []) do
    let first ← entry
    let more ← Reader.repeated (do
      comma
      skipGap
      entry)
    let _ ← Reader.optional comma
    skipGap
    Reader.literal close
    return first :: more

/-- Reads the assignment of a value to a path of keys, with gaps of the given kind around the equals
sign. -/
def assignment (gap : Reader Unit) (value : Reader Value) : Reader (KeyPath × Value) := do
  let path ← keyPath
  gap
  Reader.literal "="
  gap
  return (path, ← value)

/-- The table that is written in braces with the given assignments. -/
def inlineTable (pairs : List (KeyPath × Value)) : Option Value := do
  let t ← pairs.foldlM (fun (t : Table) p => t.assign p.1 p.2 .header) []
  return t.toValue

/-- Reads a value with at most `depth` brackets around its innermost part. -/
def value : Nat → Reader Value
  | 0 => .orElse (do return .text (← text)) word
  | depth + 1 =>
    .orElse (do return .text (← text)) <|
    .orElse (do
      Reader.literal "["
      return .array (← entries (value depth) "]")) <|
    .orElse (Reader.filterMap inlineTable (do
      Reader.literal "\x7b"
      entries (assignment skipGap (value depth)) "\x7d")) word

/-- How deep brackets may be nested. -/
def maxDepth : Nat := 80

/-! ### Lines -/

/-- Reads the header of a table between the given brackets. -/
def bracketed (left right : String) : Reader KeyPath := do
  Reader.literal left
  skipSpaces
  let path ← keyPath
  skipSpaces
  Reader.literal right
  return path

/-- Reads a statement. -/
def statement : Reader Statement :=
  .orElse (do return .element (← bracketed "[[" "]]")) <|
  .orElse (do return .header (← bracketed "[" "]")) do
    let (path, value) ← assignment skipSpaces (value maxDepth)
    return .assign path value

/-- Reads a line up to its end. -/
def line : Reader (Option Statement) := do
  skipSpaces
  let s ← Reader.optional statement
  skipSpaces
  let _ ← Reader.optional comment
  return s

/-- Reads lines until there are no more. -/
def statements : Reader (List Statement) := do
  let ended ← Reader.repeated (do
    let s ← line
    newline
    return s)
  let last ← line
  return ended.reduceOption ++ last.toList

/-- The table that a text is. A byte order mark may stand before it. -/
def parse? (s : String) : Option Value := do
  let cs := s.toList
  let ss ← Reader.whole statements (if cs.head? = some '\ufeff' then cs.tail else cs)
  ofStatements ss

end BoxArrow.Toml
