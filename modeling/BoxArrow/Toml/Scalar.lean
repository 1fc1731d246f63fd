import BoxArrow.Json.Reader
import BoxArrow.Timestamp.Calendar
import BoxArrow.Toml.Value

/-!
# TOML texts, numbers and dates

Texts stand in double quotes, where a backslash begins an escape, or in single quotes, where every
character stands for itself. Three quotes open a text that may go over several lines. Whatever
stands without quotes is a word of its own and is a truth value, a number or a date as a whole.

## Main definitions

* `BoxArrow.Toml.text` — the reader of texts, `BoxArrow.Toml.lineText` of those on one line.
* `BoxArrow.Toml.word` — the reader of everything that stands without quotes.
-/

namespace BoxArrow.Toml

/-- Skips spaces and tabs. -/
def skipSpaces : Reader Unit := do
  let _ ← Reader.span fun c => c == ' ' || c == '\t'

/-- Reads the end of a line. -/
def newline : Reader Unit :=
  .orElse (.literal "\n") (.literal "\r\n")

/-- The characters that may stand for themselves in texts and comments. -/
def isPlain (c : Char) : Bool :=
  c == '\t' || (' ' ≤ c && c != '\x7f')

/-! ### Texts -/

/-- Reads the given number of hexadecimal digits as one number. -/
def hexDigits : Nat → Reader Nat
  | 0 => return 0
  | n + 1 => do
    let high ← Json.hexDigit
    return high * Nat.pow 16 n + (← hexDigits n)

/-- Reads a code point in so many hexadecimal digits. Surrogates are not characters. -/
def codePoint (digits : Nat) : Reader Char :=
  Reader.filterMap (fun n => if n.isValidChar then some (Char.ofNat n) else none) (hexDigits digits)

/-- The character that a backslash and a letter stand for. -/
def shortEscape? (c : Char) : Option Char :=
  if c == '"' || c == '\\' then some c
  else if c == 'b' then some '\x08'
  else if c == 't' then some '\t'
  else if c == 'n' then some '\n'
  else if c == 'f' then some '\x0c'
  else if c == 'r' then some '\r'
  else if c == 'e' then some '\x1b'
  else none

/-- Reads an escape. -/
def escape : Reader Char := do
  Reader.literal "\\"
  match ← Reader.one fun _ => true with
  | 'x' => codePoint 2
  | 'u' => codePoint 4
  | 'U' => codePoint 8
  | c => Reader.filterMap shortEscape? (pure c)

/-- Reads a text in double quotes on one line. -/
def basicText : Reader String := do
  Reader.literal "\""
  let cs ← Reader.repeated (.orElse escape (.one fun c => isPlain c && c != '"' && c != '\\'))
  Reader.literal "\""
  return String.ofList cs

/-- Reads a text in single quotes on one line. -/
def literalText : Reader String := do
  Reader.literal "'"
  let s ← Reader.span fun c => isPlain c && c != '\''
  Reader.literal "'"
  return s

/-- Reads a text on one line. -/
def lineText : Reader String :=
  .orElse basicText literalText

/-- Reads a line break in a text and gives a line feed. -/
def lineBreak : Reader (List Char) := do
  newline
  return ['\n']

/-- Reads a backslash at the end of a line, which takes away all blanks up to the next character. -/
def joinedLine : Reader (List Char) := do
  Reader.literal "\\"
  skipSpaces
  newline
  let _ ← Reader.repeated (.orElse newline (do
    let _ ← Reader.one fun c => c == ' ' || c == '\t'))
  return []

/-- Reads one or two quotes that are followed by something else, or by closing quotes. -/
def innerQuotes (quote : Char) : Reader (List Char) := fun cs =>
  match (cs.takeWhile (· == quote)).length with
  | 1 => some ([quote], cs.drop 1)
  | 2 => some ([quote, quote], cs.drop 2)
  | 4 => some ([quote], cs.drop 1)
  | 5 => some ([quote, quote], cs.drop 2)
  | _ => none

/-- Reads a text that may go over several lines. A line break right after the opening quotes does
not count. -/
def longText (quote : Char) (piece : Reader (List Char)) : Reader String := do
  let quotes := Reader.literal (String.ofList [quote, quote, quote])
  quotes
  let _ ← Reader.optional newline
  let pieces ← Reader.repeated (.orElse lineBreak (.orElse piece (innerQuotes quote)))
  quotes
  return String.ofList pieces.flatten

/-- Reads a piece of a long text in double quotes. -/
def longBasicPiece : Reader (List Char) :=
  .orElse joinedLine <|
  .orElse (do return [← escape]) do
    return [← Reader.one fun c => isPlain c && c != '"' && c != '\\']

/-- Reads a piece of a long text in single quotes. -/
def longLiteralPiece : Reader (List Char) := do
  return [← Reader.one fun c => isPlain c && c != '\'']

/-- Reads a text. -/
def text : Reader String :=
  .orElse (longText '"' longBasicPiece) <|
  .orElse (longText '\'' longLiteralPiece) lineText

/-! ### Numbers -/

/-- The value of a row of digits of the given base. -/
def digitsValue (base : Nat) (ds : List Char) : Nat :=
  ds.foldl (fun n c => base * n + (Json.hexValue? c).getD 0) 0

/-- Reads digits of a class, which single underscores may separate. -/
def digitRow (p : Char → Bool) : Reader (List Char) := do
  let first ← Reader.one p
  let more ← Reader.repeated (do
    let _ ← Reader.optional (.literal "_")
    Reader.one p)
  return first :: more

/-- Reads a sign and says whether it is a minus. -/
def sign : Reader Bool := do
  return (← Reader.optional (.one fun c => c == '+' || c == '-')) == some '-'

/-- Reads digits of which the first is no zero, or a single zero. -/
def wholeDigits : Reader (List Char) :=
  Reader.filterMap (fun ds => if ds.head? = some '0' ∧ ds.length ≠ 1 then none else some ds)
    (digitRow Char.isDigit)

/-- Reads a whole number in the base ten. -/
def decimalInteger : Reader Int := do
  let negative ← sign
  let n := digitsValue 10 (← wholeDigits)
  return if negative then -n else n

/-- Reads a whole number in another base, which a mark announces. -/
def basedInteger : Reader Int :=
  let based (mark : String) (base : Nat) : Reader Int := do
    Reader.literal mark
    let ds ← digitRow fun c => (Json.hexValue? c).any (· < base)
    return digitsValue base ds
  .orElse (based "0x" 16) (.orElse (based "0o" 8) (based "0b" 2))

/-- Reads a whole number. -/
def integer : Reader Value := do
  return .integer (← .orElse basedInteger decimalInteger)

/-- Reads a decimal point and digits. -/
def fractionPart : Reader (List Char) := do
  Reader.literal "."
  digitRow Char.isDigit

/-- Reads an exponent. -/
def exponentPart : Reader Int := do
  let _ ← Reader.one fun c => c == 'e' || c == 'E'
  let negative ← sign
  let n := digitsValue 10 (← digitRow Char.isDigit)
  return if negative then -n else n

/-- The floating point number nearest to a digit row times a power of ten. Beyond the exponents that
are looked at there is nothing but zero and infinity. -/
def scaled (ds : List Char) (exponent : Int) : Float :=
  let m := digitsValue 10 ds
  if m = 0 ∨ exponent < -(1000 + ds.length : Int) then 0
  else if 1000 < exponent then 1.0 / 0.0
  else Float.ofScientific m (exponent < 0) exponent.natAbs

/-- Reads a number with a fraction or an exponent. -/
def fractional : Reader Value := do
  let negative ← sign
  let whole ← wholeDigits
  let fraction ← Reader.optional fractionPart
  let exponent ← Reader.optional exponentPart
  if fraction.isNone && exponent.isNone then Reader.fail
  let ds := fraction.getD []
  let x := scaled (whole ++ ds) (exponent.getD 0 - ds.length)
  return if x.isInf then .overflow else .fraction (if negative then -x else x)

/-- Reads one of the numbers that have names. -/
def named : Reader Value := do
  let negative ← sign
  let x : Float ← .orElse (do
    Reader.literal "inf"
    return 1.0 / 0.0) (do
    Reader.literal "nan"
    return 0.0 / 0.0)
  return .fraction (if negative then -x else x)

/-! ### Dates and times -/

/-- Reads a number of exactly so many digits, provided that it lies within bounds. -/
def fixedNumber (digits low high : Nat) : Reader Nat := fun cs =>
  let ds := (cs.take digits).takeWhile Char.isDigit
  let n := digitsValue 10 ds
  if ds.length = digits ∧ low ≤ n ∧ n ≤ high then some (n, cs.drop digits) else none

/-- Reads a date of the calendar. -/
def date : Reader Unit := do
  let year ← fixedNumber 4 0 9999
  Reader.literal "-"
  let month ← fixedNumber 2 1 12
  Reader.literal "-"
  let day ← fixedNumber 2 1 31
  if !(Date.isValid ⟨year, month, day⟩) then Reader.fail

/-- Reads a time of day. The seconds may be left out. -/
def timeOfDay : Reader Unit := do
  let _ ← fixedNumber 2 0 23
  Reader.literal ":"
  let _ ← fixedNumber 2 0 59
  let _ ← Reader.optional (do
    Reader.literal ":"
    let _ ← fixedNumber 2 0 60
    let _ ← Reader.optional (do
      Reader.literal "."
      let _ ← Reader.span1 Char.isDigit))

/-- Reads an offset from universal time. -/
def offset : Reader Unit :=
  .orElse (do let _ ← Reader.one fun c => c == 'Z' || c == 'z') do
    let _ ← Reader.one fun c => c == '+' || c == '-'
    let _ ← fixedNumber 2 0 23
    Reader.literal ":"
    let _ ← fixedNumber 2 0 59

/-- Reads a date, a time of day, or both with or without an offset. -/
def dateTime : Reader Unit :=
  .orElse (do
    date
    let _ ← Reader.optional (do
      let _ ← Reader.one fun c => c == 'T' || c == 't' || c == ' '
      timeOfDay
      let _ ← Reader.optional offset)) timeOfDay

/-! ### Words -/

/-- What a word without quotes stands for. -/
def wordValue? (cs : List Char) : Option Value :=
  if cs = ['t', 'r', 'u', 'e'] then some (.truth true)
  else if cs = ['f', 'a', 'l', 's', 'e'] then some (.truth false)
  else
    (Reader.whole integer cs).orElse fun _ =>
    (Reader.whole fractional cs).orElse fun _ =>
    (Reader.whole named cs).orElse fun _ =>
    (Reader.whole dateTime cs).map fun _ => .date (String.ofList cs)

/-- The characters of a word. -/
def isWordChar (c : Char) : Bool :=
  c.isAlphanum || c == '+' || c == '-' || c == '.' || c == ':' || c == '_'

/-- Reads a word. A space between a date and a time belongs to the word. -/
def word : Reader Value :=
  let run := Reader.span1 isWordChar
  .orElse (Reader.filterMap (fun s => wordValue? s.toList) (do
    let day ← run
    Reader.literal " "
    let time ← run
    if (Reader.whole date day.toList).isNone then Reader.fail
    return day ++ " " ++ time)) (Reader.filterMap (fun s => wordValue? s.toList) run)

end BoxArrow.Toml
