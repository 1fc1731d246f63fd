import BoxArrow.Decimal.Shortest

/-!
# How numbers are written

A finite floating point number is written with its shortest digits. From 0.00001 up to but not at
10^16 the digits are written out and there is always a decimal point; otherwise an exponent follows,
with its sign, and a whole number of units has no decimal point.

## Main definitions

* `BoxArrow.Decimal.layout` — the text of a decimal.
* `BoxArrow.floatText` — the text of a floating point number.
-/

namespace BoxArrow

namespace Decimal

/-- The digits of a decimal as characters. -/
def digitChars (d : Decimal) : List Char :=
  Nat.toDigits 10 d.digits

/-- The exponent of the first digit: a decimal with leading exponent `e` is `d.ddd * 10 ^ e`. -/
def leading (d : Decimal) : Int :=
  d.digitChars.length - 1 + d.exponent

/-- The digits written out around a decimal point. -/
def positional (d : Decimal) : List Char :=
  let ds := d.digitChars
  if 0 ≤ d.exponent then ds ++ List.replicate d.exponent.toNat '0' ++ ['.', '0']
  else if 0 ≤ d.leading then
    let whole := d.leading.toNat + 1
    ds.take whole ++ '.' :: ds.drop whole
  else '0' :: '.' :: List.replicate (-d.leading - 1).toNat '0' ++ ds

/-- The digits with the point after the first one, and an exponent. -/
def scientific (d : Decimal) : List Char :=
  let mantissa :=
    match d.digitChars with
    | first :: second :: rest => first :: '.' :: second :: rest
    | ds => ds
  let sign := if d.leading < 0 then '-' else '+'
  mantissa ++ 'e' :: sign :: Nat.toDigits 10 d.leading.natAbs

/-- The text of a decimal. -/
def layout (d : Decimal) : List Char :=
  if -5 ≤ d.leading ∧ d.leading ≤ 15 then d.positional else d.scientific

end Decimal

/-- The text of the magnitude of a finite floating point number. -/
def magnitudeText (x : Float) : List Char :=
  if x == 0 then ['0', '.', '0'] else (Decimal.shortest (.ofBits x.toBits)).layout

/-- Whether a floating point number carries a minus sign, as negative zero does. -/
def isNegative (x : Float) : Bool :=
  x.toBits >>> 63 == 1

/-- The text of a finite floating point number. -/
def floatText (x : Float) : String :=
  String.ofList (if isNegative x then '-' :: magnitudeText x else magnitudeText x)

end BoxArrow
