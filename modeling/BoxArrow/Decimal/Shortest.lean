/-!
# The shortest decimal of a floating point number

A positive floating point number stands for an interval of reals: those that are nearer to it than
to its neighbours, with the two ends included when its mantissa is even. Its *shortest decimal* is
the decimal in this interval with the fewest digits; of two with as many digits the nearer one, and
of two equally near the one with an even last digit. All arithmetic is exact, on natural numbers.

## Main definitions

* `BoxArrow.Decimal` — digits scaled by a power of ten.
* `BoxArrow.Rounding.Interval` — the reals that round to a number.
* `BoxArrow.Decimal.shortest` — the shortest decimal in such an interval.
-/

namespace BoxArrow

/-- The number `digits * 10 ^ exponent`. -/
structure Decimal where
  digits : Nat
  exponent : Int
deriving DecidableEq, Repr

namespace Rounding

/-- The reals that round to a positive number, as numerators over one denominator, which is a power
of two. -/
structure Interval where
  /-- The numerator of the number itself. -/
  value : Nat
  /-- The numerator of the lower end. -/
  low : Nat
  /-- The numerator of the upper end. -/
  high : Nat
  /-- The binary logarithm of the denominator. -/
  scale : Nat
  /-- Whether the two ends belong to the interval. -/
  closed : Bool
deriving DecidableEq, Repr

/-- The interval around `mantissa * 2 ^ exponent`. Below a power of two the neighbours are only half
as far apart, and the lower end is half as far away: then `narrow` is set. -/
def Interval.around (mantissa : Nat) (exponent : Int) (narrow : Bool) : Interval :=
  let unit := Nat.pow 2 (exponent - 2).toNat
  { value := 4 * mantissa * unit
    low := (4 * mantissa - if narrow then 1 else 2) * unit
    high := (4 * mantissa + 2) * unit
    scale := (2 - exponent).toNat
    closed := mantissa % 2 == 0 }

/-- The interval around the magnitude of a finite number, given by its bits. -/
def Interval.ofBits (bits : UInt64) : Interval :=
  let biased := (bits >>> 52 &&& 0x7ff).toNat
  let fraction := (bits &&& 0xfffffffffffff).toNat
  if biased = 0 then .around fraction (-1074) false
  else .around (Nat.pow 2 52 + fraction) (biased - 1075) (fraction == 0 && biased != 1)

/-- Compares a numerator over the denominator of an interval with a decimal. -/
def Interval.compareTo (i : Interval) (numerator : Nat) (d : Decimal) : Ordering :=
  compare (numerator * Nat.pow 10 (-d.exponent).toNat)
    (d.digits * Nat.pow 10 d.exponent.toNat * Nat.pow 2 i.scale)

/-- Whether a decimal lies in the interval. -/
def Interval.contains (i : Interval) (d : Decimal) : Bool :=
  match i.compareTo i.low d, i.compareTo i.high d with
  | .lt, .gt => true
  | .eq, _ => i.closed
  | _, .eq => i.closed
  | _, _ => false

/-- The exponent `e` for which the number lies from `10 ^ (e - 1)` up to but not at `10 ^ e`. -/
def Interval.magnitude (i : Interval) : Int :=
  let whole := i.value / Nat.pow 2 i.scale
  if whole = 0 then 1 - (Nat.toDigits 10 ((Nat.pow 2 i.scale - 1) / i.value)).length
  else (Nat.toDigits 10 whole).length

/-- The decimal at or below the number on the grid of multiples of `10 ^ exponent`. -/
def Interval.floor (i : Interval) (exponent : Int) : Decimal where
  digits := i.value * Nat.pow 10 (-exponent).toNat / (Nat.pow 2 i.scale * Nat.pow 10 exponent.toNat)
  exponent := exponent

end Rounding

namespace Decimal

/-- The next decimal on the same grid. -/
def next (d : Decimal) : Decimal :=
  { d with digits := d.digits + 1 }

/-- The decimal halfway between this one and the next one. -/
def halfway (d : Decimal) : Decimal where
  digits := 10 * d.digits + 5
  exponent := d.exponent - 1

/-- The nearer of a decimal below a number and the next decimal, the one with an even last digit
when both are equally near. -/
def nearer (i : Rounding.Interval) (below : Decimal) : Decimal :=
  match i.compareTo i.value below.halfway with
  | .lt => below
  | .gt => below.next
  | .eq => if below.digits % 2 = 0 then below else below.next

/-- The decimal with at most `places` digits that stands for the number, if there is one. -/
def atPlaces (i : Rounding.Interval) (places : Nat) : Option Decimal :=
  let below := i.floor (i.magnitude - places)
  match i.contains below, i.contains below.next with
  | true, true => some (nearer i below)
  | true, false => some below
  | false, true => some below.next
  | false, false => none

/-- The same number with fewer digits, after at most `rounds` zeros at the end are taken off. -/
def strip (d : Decimal) : Nat → Decimal
  | 0 => d
  | rounds + 1 =>
    if d.digits != 0 && d.digits % 10 == 0 then strip ⟨d.digits / 10, d.exponent + 1⟩ rounds else d

/-- The exact value of the number in the middle of an interval. -/
def exact (i : Rounding.Interval) : Decimal where
  digits := i.value * Nat.pow 5 i.scale
  exponent := -i.scale

/-- The shortest decimal in an interval. Seventeen digits are enough to tell every two numbers
apart. -/
def shortest (i : Rounding.Interval) : Decimal :=
  (((List.range' 1 17).findSome? (atPlaces i)).getD (exact i)).strip 17

end Decimal

end BoxArrow
