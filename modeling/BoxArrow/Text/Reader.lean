/-!
# Readers

A reader takes a value off the front of a text and returns it with the rest, or refuses the text.
Readers are greedy and never reconsider: a choice that was taken stays taken, and only
`Reader.orElse` and `Reader.optional` start again from where they began.

## Main definitions

* `BoxArrow.Reader` — readers, with their sequencing.
* `BoxArrow.Reader.many` — repetition, for at most as many rounds as there are characters.
* `BoxArrow.Reader.whole` — a reader asked to account for a whole text.
-/

namespace BoxArrow

/-- A value taken off the front of a text with the rest of it, or a refusal. -/
def Reader (α : Type) : Type :=
  List Char → Option (α × List Char)

namespace Reader

variable {α β : Type}

/-- Reads with one reader and goes on with the reader that its value leads to. -/
def andThen (r : Reader α) (f : α → Reader β) : Reader β := fun cs =>
  match r cs with
  | some (a, rest) => f a rest
  | none => none

instance : Monad Reader where
  pure a := fun cs => some (a, cs)
  bind := andThen

/-- Refuses every text. -/
def fail : Reader α := fun _ => none

/-- Reads the longest run of characters in a class, which may be empty. -/
def span (p : Char → Bool) : Reader String := fun cs =>
  some (String.ofList (cs.takeWhile p), cs.dropWhile p)

/-- Reads the longest run of characters in a class and refuses an empty one. -/
def span1 (p : Char → Bool) : Reader String := fun cs =>
  match cs.takeWhile p with
  | [] => none
  | run => some (String.ofList run, cs.dropWhile p)

/-- Reads exactly the given text. -/
def literal (s : String) : Reader Unit := fun cs =>
  (s.toList.isPrefixOf? cs).map fun rest => ((), rest)

/-- Reads everything that is left. -/
def remainder : Reader String := fun cs =>
  some (String.ofList cs, [])

/-- Reads one character of a class. -/
def one (p : Char → Bool) : Reader Char
  | c :: rest => if p c then some (c, rest) else none
  | [] => none

/-- Reads with the first reader, or from the same place with the second. -/
def orElse (r s : Reader α) : Reader α := fun cs =>
  match r cs with
  | some found => some found
  | none => s cs

/-- Reads a value if there is one, and otherwise nothing. -/
def optional (r : Reader α) : Reader (Option α) := fun cs =>
  match r cs with
  | some (a, rest) => some (some a, rest)
  | none => some (none, cs)

/-- Reads a value and keeps it only where `f` gives a result. -/
def filterMap (f : α → Option β) (r : Reader α) : Reader β := fun cs =>
  match r cs with
  | some (a, rest) => (f a).map (·, rest)
  | none => none

/-- Reads values onto those already read, which are held with the latest first, until there is no
further one. There is at most one round for each character of `rounds`. -/
def manyOnto (r : Reader α) : List Char → List α → List Char → List α × List Char
  | [], got, cs => (got.reverse, cs)
  | _ :: rounds, got, cs =>
    match r cs with
    | none => (got.reverse, cs)
    | some (a, rest) => manyOnto r rounds (a :: got) rest

/-- Reads as many values as there are. When every value takes at least one character, there are no
more of them than characters. -/
def many (r : Reader α) (cs : List Char) : List α × List Char :=
  manyOnto r cs [] cs

/-- Reads as many values as there are, and accepts that there may be none. -/
def repeated (r : Reader α) : Reader (List α) := fun cs =>
  some (many r cs)

/-- The value that a reader takes from the whole of a text. -/
def whole (r : Reader α) (cs : List Char) : Option α :=
  match r cs with
  | some (a, []) => some a
  | _ => none

end Reader

end BoxArrow
