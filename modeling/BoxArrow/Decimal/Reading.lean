/-!
# How numbers are read

A numeral has a sign, digits, and perhaps a fraction and an exponent. Without the two latter it is
a whole number as long as it fits in 64 bits. Every other numeral is read as a floating point
number: the digits are gathered into a 64-bit integer for as long as they fit, and that integer is
scaled by one power of ten. The scaling rounds, so the result need not be the floating point number
nearest to the numeral.

## Main definitions

* `BoxArrow.Numeral` — the parts of a numeral.
* `BoxArrow.Number` — a whole number or a floating point number.
* `BoxArrow.Numeral.value` — the number that a numeral is read as, if it is in range.
-/

namespace BoxArrow

/-- The parts of a numeral as they are written. Digits are values from 0 to 9. -/
structure Numeral where
  negative : Bool
  whole : List Nat
  fraction : List Nat
  /-- The exponent: whether it has a minus sign, and its digits. -/
  exponent : Option (Bool × List Nat)
deriving DecidableEq, Repr

/-- A number as it is read: a whole number within 64 bits, or a floating point number. -/
inductive Number where
  | int (n : Int)
  | float (x : Float)
deriving DecidableEq, Repr, Inhabited

/-- The floating point number nearest to a number. -/
def Number.toFloat : Number → Float
  | int n => Float.ofInt n
  | float x => x

namespace Numeral

/-- Appends digits to a number for as long as the result fits in 64 bits. The digits that are left
over come back with the result. -/
def gather (n : Nat) : List Nat → Nat × List Nat
  | [] => (n, [])
  | d :: ds => if 10 * n + d < Nat.pow 2 64 then gather (10 * n + d) ds else (n, d :: ds)

/-- A power of ten as a floating point number. -/
def tenPow (k : Nat) : Float :=
  Float.ofScientific 1 false k

/-- A 64-bit integer divided by a power of ten. Above `10 ^ 308`, the greatest power of ten that
there is, the division takes two steps; and above `10 ^ 616` nothing is left. -/
def scaleDown (significand : Nat) (k : Nat) : Float :=
  let x := Float.ofNat significand
  if k ≤ 308 then x / tenPow k
  else if k ≤ 616 then x / tenPow 308 / tenPow (k - 308)
  else 0

/-- A 64-bit integer multiplied by a power of ten, unless the result is out of range. -/
def scaleUp (significand : Nat) (k : Nat) : Option Float :=
  if significand = 0 then some 0
  else if k ≤ 308 then
    let x := Float.ofNat significand * tenPow k
    if x.isFinite then some x else none
  else none

/-- A 64-bit integer scaled by a power of ten, unless the result is out of range. -/
def scale (significand : Nat) (exponent : Int) : Option Float :=
  if exponent < 0 then some (scaleDown significand exponent.natAbs)
  else scaleUp significand exponent.natAbs

/-- The value of a row of decimal digits. -/
def digitsValue (ds : List Nat) : Nat :=
  ds.foldl (fun n d => 10 * n + d) 0

/-- The value of a written exponent. -/
def exponentValue : Option (Bool × List Nat) → Int
  | none => 0
  | some (true, ds) => -digitsValue ds
  | some (false, ds) => digitsValue ds

/-- The floating point number that a numeral is read as, or nothing when it is out of range. -/
def floatValue (n : Numeral) : Option Float :=
  let (whole, overflow) := gather 0 n.whole
  let (significand, ignored) := gather whole n.fraction
  let shift : Int := overflow.length - (n.fraction.length - ignored.length : Nat)
  (scale significand (shift + exponentValue n.exponent)).map fun x => if n.negative then -x else x

/-- The number that a numeral is read as, or nothing when it is out of range. A negative zero is a
floating point number, and so is a whole number that does not fit in 64 bits. -/
def value (n : Numeral) : Option Number :=
  match n.fraction, n.exponent, gather 0 n.whole with
  | [], none, (m, []) =>
    if !n.negative then some (.int m)
    else if m = 0 ∨ Nat.pow 2 63 < m then some (.float (-Float.ofNat m))
    else some (.int (-m))
  | _, _, _ => n.floatValue.map .float

end Numeral

end BoxArrow
