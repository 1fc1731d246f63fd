import BoxArrow.Json.Basic
import BoxArrow.Text.Reader

/-!
# How JSON documents are read

Reading is strict: nothing is accepted beyond the grammar of JSON, the blanks are space, tab, line
feed and carriage return, surrogate escapes have to come in pairs, and a number has to be in range.
Brackets may be nested 127 deep. A document that was read has the members of its objects by
ascending key, and of members with the same key it has the last.

## Main definitions

* `BoxArrow.Json.document` — the reader of a document inside of a given number of brackets.
* `BoxArrow.Json.parse?` — the document that a text is.
-/

namespace BoxArrow.Json

/-- Skips the blanks of JSON. -/
def skipBlanks : Reader Unit := do
  let _ ← Reader.span fun c => c == ' ' || c == '\t' || c == '\n' || c == '\r'

/-! ### Strings -/

/-- The value of a hexadecimal digit in either case. -/
def hexValue? (c : Char) : Option Nat :=
  if '0' ≤ c ∧ c ≤ '9' then some (c.toNat - '0'.toNat)
  else if 'a' ≤ c ∧ c ≤ 'f' then some (c.toNat - 'a'.toNat + 10)
  else if 'A' ≤ c ∧ c ≤ 'F' then some (c.toNat - 'A'.toNat + 10)
  else none

/-- Reads one hexadecimal digit. -/
def hexDigit : Reader Nat :=
  Reader.filterMap hexValue? (Reader.one fun _ => true)

/-- Reads four hexadecimal digits as one number. -/
def hexQuad : Reader Nat := do
  let a ← hexDigit
  let b ← hexDigit
  let c ← hexDigit
  let d ← hexDigit
  return ((a * 16 + b) * 16 + c) * 16 + d

/-- Reads the rest of an escape by code point, after the `u`. A leading surrogate has to be followed
by an escape of a trailing one, and a trailing surrogate may not stand elsewhere. -/
def unicodeEscape : Reader Char := do
  let unit ← hexQuad
  if 0xd800 ≤ unit ∧ unit < 0xdc00 then
    Reader.literal "\\u"
    let low ← Reader.filterMap (fun n => if 0xdc00 ≤ n ∧ n < 0xe000 then some n else none) hexQuad
    return Char.ofNat (0x10000 + (unit - 0xd800) * 0x400 + (low - 0xdc00))
  else if 0xdc00 ≤ unit ∧ unit < 0xe000 then Reader.fail
  else return Char.ofNat unit

/-- The character that a backslash and a letter stand for. -/
def shortEscape? (c : Char) : Option Char :=
  if c == '"' then some '"'
  else if c == '\\' then some '\\'
  else if c == '/' then some '/'
  else if c == 'b' then some '\x08'
  else if c == 'f' then some '\x0c'
  else if c == 'n' then some '\n'
  else if c == 'r' then some '\r'
  else if c == 't' then some '\t'
  else none

/-- Reads one character of a string, which may be written as an escape. -/
def oneChar : Reader Char
  | '\\' :: 'u' :: rest => unicodeEscape rest
  | '\\' :: c :: rest => (shortEscape? c).map (·, rest)
  | c :: rest => if c == '"' || c == '\\' || c < ' ' then none else some (c, rest)
  | [] => none

/-- Reads a string. -/
def stringLiteral : Reader String := do
  Reader.literal "\""
  let chars ← Reader.repeated oneChar
  Reader.literal "\""
  return String.ofList chars

/-! ### Numbers -/

/-- Reads one or more digits. -/
def digits : Reader (List Nat) := do
  let run ← Reader.span1 Char.isDigit
  return run.toList.map fun c => c.toNat - '0'.toNat

/-- Reads the digits before the decimal point. A zero stands alone. -/
def wholeDigits : Reader (List Nat) :=
  Reader.filterMap (fun ds => if ds.head? = some 0 ∧ ds.length ≠ 1 then none else some ds) digits

/-- Reads a decimal point and digits. -/
def fractionPart : Reader (List Nat) := do
  Reader.literal "."
  digits

/-- Reads an exponent: whether it is negative, and its digits. -/
def exponentPart : Reader (Bool × List Nat) := do
  let _ ← Reader.one fun c => c == 'e' || c == 'E'
  let sign ← Reader.optional (.one fun c => c == '+' || c == '-')
  let ds ← digits
  return (sign == some '-', ds)

/-- Reads a numeral. -/
def numeral : Reader Numeral := do
  let sign ← Reader.optional (.literal "-")
  let whole ← wholeDigits
  let fraction ← Reader.optional fractionPart
  let exponent ← Reader.optional exponentPart
  return ⟨sign.isSome, whole, fraction.getD [], exponent⟩

/-! ### Documents -/

/-- Reads a document that has no brackets. -/
def scalar : Reader Json :=
  .orElse (do Reader.literal "null"; return .null) <|
  .orElse (do Reader.literal "true"; return .bool true) <|
  .orElse (do Reader.literal "false"; return .bool false) <|
  .orElse (do return .string (← stringLiteral)) <|
  .filterMap (fun n => n.value.map .number) numeral

/-- Reads what stands after an opening bracket, the closing one included: nothing, or entries with
commas between them. -/
def entries {α : Type} (entry : Reader α) (close : String) : Reader (List α) := do
  skipBlanks
  Reader.orElse (do Reader.literal close; return []) do
    let first ← entry
    let more ← Reader.repeated (do
      skipBlanks
      Reader.literal ","
      entry)
    skipBlanks
    Reader.literal close
    return first :: more

/-- Reads a member of an object whose value is read by the given reader. -/
def memberOf (value : Reader Json) : Reader (String × Json) := do
  skipBlanks
  let key ← stringLiteral
  skipBlanks
  Reader.literal ":"
  let j ← value
  return (key, j)

/-- Reads a document with at most `depth` brackets around its innermost part. -/
def document : Nat → Reader Json
  | 0 => do
    skipBlanks
    scalar
  | depth + 1 => do
    skipBlanks
    Reader.orElse (do
      Reader.literal "["
      let items ← entries (document depth) "]"
      return .array items) <|
    Reader.orElse (do
      Reader.literal "\x7b"
      let members ← entries (memberOf (document depth)) "\x7d"
      return .object (sortMembers members)) scalar

/-- How deep brackets may be nested. -/
def maxDepth : Nat := 127

/-- The document that a text is, with nothing but blanks around it. -/
def parse? (text : String) : Option Json :=
  Reader.whole (do
    let j ← document maxDepth
    skipBlanks
    return j) text.toList

end BoxArrow.Json
