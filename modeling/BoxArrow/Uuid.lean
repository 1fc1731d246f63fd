/-!
# Random identifiers

An identifier is sixteen random bytes, of which six bits say that it is a random one, written as
thirty-two hexadecimal digits in five groups.

## Main definitions

* `BoxArrow.uuidText` — the identifier made of random bytes.
-/

namespace BoxArrow

/-- A byte as two hexadecimal digits. -/
def byteDigits (b : Nat) : List Char :=
  [Nat.digitChar (b / 16 % 16), Nat.digitChar (b % 16)]

/-- How many bytes the groups of an identifier have. -/
def uuidGroups : List Nat := [4, 2, 2, 2, 6]

/-- Digits of bytes in groups of the given sizes, with hyphens between the groups. -/
def grouped : List Nat → List Nat → List Char
  | [], _ => []
  | [size], bytes => (bytes.take size).flatMap byteDigits
  | size :: sizes, bytes =>
    (bytes.take size).flatMap byteDigits ++ '-' :: grouped sizes (bytes.drop size)

/-- The bytes with the marks of a random identifier: the version 4 and the variant 10 in binary. -/
def markRandom (bytes : List Nat) : List Nat :=
  bytes.mapIdx fun i b =>
    if i = 6 then 0x40 + b % 16 else if i = 8 then 0x80 + b % 64 else b

/-- The identifier made of sixteen random bytes. -/
def uuidText (bytes : List Nat) : String :=
  String.ofList (grouped uuidGroups (markRandom bytes))

end BoxArrow
