import BoxArrow.Text.Reader

/-!
# Statements and the lexemes that the languages share

What is understood of a line of diagram text is a *statement*. The four languages differ in how
statements are written; the parts below are common to several of them.

## Main definitions

* `BoxArrow.Statement`, `BoxArrow.Mention` — what a line says about the graph.
* `BoxArrow.word`, `BoxArrow.spaces`, `BoxArrow.endOfStatement`, `BoxArrow.colonLabel` — lexemes.
-/

namespace BoxArrow

/-- A node as a statement names it: its id, and a label where one is written beside the id. -/
structure Mention where
  id : String
  label : Option String
deriving DecidableEq, Repr

/-- What one line of diagram text says. -/
inductive Statement where
  /-- There is an arrow from `source` to `target`, and both are nodes. -/
  | connection (source target : Mention) (label : Option String)
  /-- There is a node. -/
  | declaration (node : Mention)
  /-- A node that other statements introduce, before or after this one, has this label. -/
  | nodeLabel (id label : String)
deriving DecidableEq, Repr

/-- A node named without a label. -/
def Mention.bare (id : String) : Mention := ⟨id, none⟩

/-- The characters of identifiers: ASCII letters, ASCII digits and the underscore. -/
def isWordChar (c : Char) : Bool :=
  c.isAlphanum || c == '_'

/-- Reads an identifier. -/
def word : Reader String :=
  .span1 isWordChar

/-- The characters that may stand between the parts of a statement. -/
def isSpace (c : Char) : Bool :=
  c == ' ' || c == '\t'

/-- Reads any number of spaces and tabs. -/
def spaces : Reader Unit := do
  let _ ← Reader.span isSpace

/-- Reads a non-empty text in which `close` does not occur, between `opening` and `close`. -/
def enclosed (opening close : Char) : Reader String := do
  Reader.literal (.singleton opening)
  let text ← .span1 (· != close)
  Reader.literal (.singleton close)
  return text

/-- Reads what may end a statement: spaces around an optional semicolon. -/
def endOfStatement : Reader Unit := do
  spaces
  let _ ← Reader.optional (.literal ";")
  spaces

/-- Reads a colon and the rest of the line as a label. Spaces at the start of the label are
dropped, and an empty label counts as none. -/
def colonLabel : Reader (Option String) := do
  spaces
  Reader.literal ":"
  spaces
  let text ← Reader.remainder
  return if text.isEmpty then none else some text

end BoxArrow
