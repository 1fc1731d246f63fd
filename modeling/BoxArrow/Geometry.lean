/-!
# Places and sizes of nodes

No diagram language says where a node stands. Nodes found in a text stand on a grid in the order in
which they are found; after that only moves and resizes change their geometry.

## Main definitions

* `BoxArrow.Position.gridSlot` — the place of the node found at a given index.
* `BoxArrow.Position.dropped` — the place of a node added by hand, from two random words.
* `BoxArrow.Size.atLeastMin` — the size that a resize leads to.
-/

namespace BoxArrow

/-- The top left corner of a node, `x` to the right and `y` down. -/
structure Position where
  x : Float
  y : Float
deriving DecidableEq, Repr, Inhabited

/-- Positions are compared as numbers: a NaN differs from itself and the two zeros agree. -/
instance : BEq Position where
  beq p q := p.x == q.x && p.y == q.y

/-- The width and height of a node. -/
structure Size where
  width : Float
  height : Float
deriving DecidableEq, Repr, Inhabited

/-- Sizes are compared as numbers, as positions are. -/
instance : BEq Size where
  beq s t := s.width == t.width && s.height == t.height

namespace Position

/-- Slots fill rows of three from left to right, 250 apart in a row and 150 from row to row. -/
def gridSlot (index : Nat) : Position where
  x := 100 + 250 * Float.ofNat (index % 3)
  y := 100 + 150 * Float.ofNat (index / 3)

/-- The fraction in `[0, 1)` held by the upper 52 bits of a random word. -/
def fraction (word : UInt64) : Float :=
  (word >>> 12).toFloat / 4503599627370496

/-- The place at which a node added by hand is dropped: 100 up to 500 across and 100 up to 400
down, drawn from two random words. -/
def dropped (across down : UInt64) : Position where
  x := fraction across * 400 + 100
  y := fraction down * 300 + 100

end Position

namespace Size

/-- The size of every newly made node. -/
def default : Size := ⟨120, 60⟩

/-- The smallest size that a resize leads to. -/
def min : Size := ⟨80, 40⟩

/-- A length grown to at least the given one; a length that is no finite number counts as the
smallest. -/
def growTo (least value : Float) : Float :=
  if value.isFinite then (if value < least then least else value) else least

/-- The size grown, on each axis, to at least `Size.min`. -/
def atLeastMin (s : Size) : Size where
  width := growTo min.width s.width
  height := growTo min.height s.height

end Size

end BoxArrow
