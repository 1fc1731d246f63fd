import BoxArrow.Text.Blank
import BoxArrow.Timestamp.Calendar

/-!
# Points in time as text

A point in time is written in universal time, as `2026-01-31T23:59:60.500Z`: with the fewest of no,
three, six or nine decimals that show it exactly, and with a sign before a year that does not have
four digits. Reading is more lenient: blanks may stand around the parts, numbers need no leading
zeros, and the text may give an offset from universal time.

## Main definitions

* `BoxArrow.Timestamp.text` — a point in time as it is written.
* `BoxArrow.Timestamp.TextError` — why a text does not stand for a point in time.
* `BoxArrow.Timestamp.parse` — the point in time that a text stands for.
-/

namespace BoxArrow.Timestamp

/-! ### Writing -/

/-- A number with zeros before it, so that it has at least `width` digits. -/
def padded (width n : Nat) : String :=
  let ds := Nat.toDigits 10 n
  String.ofList (List.replicate (width - ds.length) '0' ++ ds)

/-- A year with at least four digits, and with a sign when four digits are not enough or the year
is negative. -/
def yearText (year : Int) : String :=
  if 0 ≤ year ∧ year ≤ 9999 then padded 4 year.toNat
  else (if year < 0 then "-" else "+") ++ padded 4 year.natAbs

/-- A part of a second with the fewest of no, three, six or nine decimals. -/
def fractionText (nano : Nat) : String :=
  if nano = 0 then ""
  else if nano % 1000000 = 0 then "." ++ padded 3 (nano / 1000000)
  else if nano % 1000 = 0 then "." ++ padded 6 (nano / 1000)
  else "." ++ padded 9 nano

/-- A point in time as it is written. A leap second is the second 60 of its minute. -/
def text (t : Timestamp) : String :=
  let d := Date.ofDay t.day
  let (leap, nano) := if 1000000000 ≤ t.nano then (1, t.nano - 1000000000) else (0, t.nano)
  yearText d.year ++ "-" ++ padded 2 d.month ++ "-" ++ padded 2 d.day ++ "T" ++
    padded 2 (t.second / 3600) ++ ":" ++ padded 2 (t.second / 60 % 60) ++ ":" ++
    padded 2 (t.second % 60 + leap) ++ fractionText nano ++ "Z"

/-! ### Reading -/

/-- Why a text does not stand for a point in time. -/
inductive TextError where
  /-- The text ends where something is still wanted. -/
  | tooShort
  /-- Something else stands where a part is wanted. -/
  | unexpected
  /-- A number is beyond its bounds, or the calendar does not have the date. -/
  | outOfRange
  /-- The offset leads out of the years that are counted. -/
  | impossible
  /-- Something stands after the last part. -/
  | tooLong
deriving DecidableEq, Repr

/-- The wording of an error. -/
def TextError.message : TextError → String
  | tooShort => "premature end of input"
  | unexpected => "input contains invalid characters"
  | outOfRange => "input is out of range"
  | impossible => "no possible date and time matching input"
  | tooLong => "trailing input"

/-- Takes a value off the front of a text, or says why there is none. -/
abbrev Scan (α : Type) : Type :=
  StateT (List Char) (Except TextError) α

/-- Skips blanks. -/
def skipBlanks : Scan Unit :=
  modify trimStart

/-- What is wrong where a part is wanted that the rest of the text does not begin with. -/
def missing (rest : List Char) : TextError :=
  if rest.isEmpty then .tooShort else .unexpected

/-- Takes one character of a class. -/
def one (p : Char → Bool) : Scan Char
  | [] => .error .tooShort
  | c :: rest => if p c then .ok (c, rest) else .error .unexpected

/-- Takes the given character if it comes next, and says whether it did. -/
def next? (c : Char) : Scan Bool
  | [] => .ok (false, [])
  | d :: rest => if d = c then .ok (true, rest) else .ok (false, d :: rest)

/-- The value of a row of digits. -/
def digitsValue (ds : List Char) : Nat :=
  ds.foldl (fun n c => 10 * n + (c.toNat - '0'.toNat)) 0

/-- Takes the digits at the front, of which there has to be one. -/
def digits : Scan (List Char) := fun cs =>
  match cs.takeWhile Char.isDigit with
  | [] => .error (missing cs)
  | ds => .ok (ds, cs.drop ds.length)

/-- Takes a number of one digit or more, but not more than `most`. -/
def number (most : Nat) : Scan Nat := fun cs =>
  match (cs.take most).takeWhile Char.isDigit with
  | [] => .error (missing cs)
  | ds => .ok (digitsValue ds, cs.drop ds.length)

/-- A number that has to lie within bounds. -/
def within (low high n : Int) : Scan Unit :=
  if low ≤ n ∧ n ≤ high then pure () else throw .outOfRange

/-- Takes a number of one or two digits after blanks, which has to lie within bounds. -/
def part (low high : Nat) : Scan Nat := do
  skipBlanks
  let n ← number 2
  within low high n
  return n

/-- Takes a year after blanks. Without a sign it has at most four digits, and with one it has to fit
in 32 bits. -/
def year : Scan Int := do
  skipBlanks
  let y ← (do
    if ← next? '-' then return -(digitsValue (← digits) : Int)
    if ← next? '+' then return (digitsValue (← digits) : Int)
    return (← number 4 : Nat))
  within (-2147483648) 2147483647 y
  return y

/-- Takes the given character after blanks. -/
def mark (c : Char) : Scan Unit := do
  skipBlanks
  let _ ← one (· == c)

/-- Takes the decimals of a second, if there are any, as nanoseconds. What is finer is cut off. -/
def decimals : Scan Nat := do
  if ← next? '.' then
    let ds := (← digits).take 9
    return digitsValue ds * Nat.pow 10 (9 - ds.length)
  else return 0

/-- Takes a number of two digits. A text that ends before two bytes is too short. -/
def twoDigits : Scan Nat
  | [] => .error .tooShort
  | [c] => .error (if c.utf8Size = 1 then .tooShort else .unexpected)
  | a :: b :: rest =>
    if a.isDigit && b.isDigit then .ok (digitsValue [a, b], rest) else .error .unexpected

/-- What follows a name of universal time, if the text begins with one. -/
def afterZulu? (cs : List Char) : Option (List Char) :=
  if (cs.take 3).map Char.toLower = ['u', 't', 'c'] then some (cs.drop 3)
  else if (cs.take 1).map Char.toLower = ['z'] then some (cs.drop 1)
  else none

/-- Takes an offset from universal time in minutes that is given in figures. The minus sign may be
the typographic one, and colons and blanks may separate hours and minutes. -/
def signedOffset : Scan Int := do
  let sign ← one fun c => c == '+' || c == '-' || c == '\u2212'
  let hours ← twoDigits
  modify fun cs => cs.dropWhile fun c => c == ':' || isBlank c
  let minutes ← twoDigits
  within 0 59 minutes
  let total : Int := 60 * hours + minutes
  return if sign == '+' then total else -total

/-- Takes an offset from universal time in minutes. -/
def offset : Scan Int := fun cs =>
  match afterZulu? cs with
  | some rest => .ok (0, rest)
  | none => signedOffset cs

/-- A date and a time of day with their offset from universal time in minutes. -/
structure Local where
  date : Date
  hour : Nat
  minute : Nat
  /-- The second of the minute, 60 for a leap second. -/
  second : Nat
  nano : Nat
  offset : Int

/-- Takes a date, a time of day and an offset. -/
def dateAndTime : Scan Local := do
  let y ← year
  mark '-'
  let month ← part 1 12
  mark '-'
  let day ← part 1 31
  let _ ← one fun c => c == 'T' || c == 't' || c == ' '
  let hour ← part 0 23
  mark ':'
  let minute ← part 0 59
  mark ':'
  let second ← part 0 60
  let nano ← decimals
  skipBlanks
  let o ← offset
  return ⟨⟨y, month, day⟩, hour, minute, second, nano, o⟩

/-- Whether a day lies in the years that are counted, -262143 to 262142. -/
def inRange (day : Int) : Bool :=
  Date.toDay ⟨-262143, 1, 1⟩ ≤ day && day ≤ Date.toDay ⟨262142, 12, 31⟩

/-- The point in time of a local date and time of day. The offset has to be less than a day. -/
def Local.toTimestamp (l : Local) : Except TextError Timestamp :=
  let (second, nano) := if l.second = 60 then (59, l.nano + 1000000000) else (l.second, l.nano)
  let total : Int := 3600 * l.hour + 60 * l.minute + second - 60 * l.offset
  let day := l.date.toDay + total / 86400
  if !l.date.isValid || !inRange l.date.toDay || 1440 ≤ l.offset.natAbs then .error .outOfRange
  else if !inRange day then .error .impossible
  else .ok ⟨day, (total % 86400).toNat, nano⟩

/-- The point in time that a text stands for. -/
def parse (s : String) : Except TextError Timestamp := do
  let (l, rest) ← dateAndTime.run s.toList
  if !(trimStart rest).isEmpty then throw .tooLong
  l.toTimestamp

end BoxArrow.Timestamp
