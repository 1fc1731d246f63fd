import BoxArrow.Text.Printable

/-!
# Quoted text in messages

A message that shows a piece of text puts it between double quotes, so that every text takes one
line and every character can be told. Quotes, backslashes and the usual control characters are
written as a backslash and one character, all other characters that do not show by code point.

## Main definitions

* `BoxArrow.quoted` — a text between quotes.
-/

namespace BoxArrow

/-- The code point of a character in braces, in lower-case hexadecimal. -/
def codePointEscape (c : Char) : List Char :=
  "\\u\x7b".toList ++ Nat.toDigits 16 c.toNat ++ "\x7d".toList

/-- A character as it is written between quotes. -/
def quotedChar (c : Char) : List Char :=
  if c == '\x00' then ['\\', '0']
  else if c == '\t' then ['\\', 't']
  else if c == '\r' then ['\\', 'r']
  else if c == '\n' then ['\\', 'n']
  else if c == '\\' then ['\\', '\\']
  else if c == '"' then ['\\', '"']
  else if isVisible c then [c]
  else codePointEscape c

/-- A text between quotes. -/
def quoted (s : String) : String :=
  String.ofList ('"' :: s.toList.flatMap quotedChar ++ ['"'])

end BoxArrow
