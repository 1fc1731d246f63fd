/-!
# Blank characters, lines and words

Texts are taken apart as lists of characters. A character is *blank* when it has the Unicode
property `White_Space`; trimming and the first word of a line go by this class.

## Main definitions

* `BoxArrow.isBlank` — the Unicode property `White_Space`.
* `BoxArrow.trim`, `BoxArrow.lines`, `BoxArrow.firstWord` — how a text is cut.
* `BoxArrow.unlines` — lines joined, each ended by a line feed.
-/

namespace BoxArrow

/-- The characters with the Unicode property `White_Space`. -/
def isBlank (c : Char) : Bool :=
  ('\t' ≤ c && c ≤ '\r') || c == ' ' || c == '\u0085' || c == '\u00a0' || c == '\u1680' ||
    ('\u2000' ≤ c && c ≤ '\u200a') || c == '\u2028' || c == '\u2029' || c == '\u202f' ||
    c == '\u205f' || c == '\u3000'

/-- The text without the blanks at its start. -/
def trimStart (cs : List Char) : List Char :=
  cs.dropWhile isBlank

/-- The text without the blanks at its end. -/
def trimEnd (cs : List Char) : List Char :=
  (cs.reverse.dropWhile isBlank).reverse

/-- The text without the blanks at its two ends. -/
def trim (cs : List Char) : List Char :=
  trimEnd (trimStart cs)

/-- The lines of a text: the pieces between line feeds. A carriage return before a line feed
stays with its line, where trimming takes it off. -/
def lines (cs : List Char) : List (List Char) :=
  cs.splitOn '\n'

/-- The first blank-separated word of a text, empty when the text is all blank. -/
def firstWord (cs : List Char) : List Char :=
  (trimStart cs).takeWhile (fun c => !isBlank c)

/-- The given lines as a text in which a line feed ends every line. -/
def unlines (ls : List String) : String :=
  String.join (ls.map (· ++ "\n"))

end BoxArrow
