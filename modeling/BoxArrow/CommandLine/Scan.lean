/-!
# Command line arguments

Arguments are words, options that take a value, and flags. An option is spelled out after two
hyphens or abbreviated to a letter after one, and its value follows in the next argument or in the
same one. An option whose value was given in the next argument is settled only when the argument
after that is understood, so that an argument that makes no sense is reported before it.

## Main definitions

* `BoxArrow.Argument` — the forms of an argument.
* `BoxArrow.Grammar` — which options there are, and how many words.
* `BoxArrow.Grammar.scan` — the options and words among arguments, up to the first word too many.
* `BoxArrow.UsageError` — why arguments are not accepted.
-/

namespace BoxArrow

/-- Why arguments are not accepted, or why they ask for something other than work. -/
inductive UsageError where
  | helpRequested
  | versionRequested
  /-- There are no arguments at all. -/
  | nothingGiven
  | missingCommand
  | unknownCommand
  /-- A word or an option that a command needs is not there. -/
  | missingArgument
  /-- An option does not have a value. -/
  | missingValue
  /-- A flag has a value. -/
  | needlessValue
  /-- There is no such option, or there are too many words. -/
  | unknownArgument
  /-- An option is given twice. -/
  | repeatedOption
deriving DecidableEq, Repr

/-- The forms of an argument. -/
inductive Argument where
  /-- Two hyphens alone, after which every argument is a word. -/
  | separator
  /-- A name after two hyphens, and the value after an equals sign. -/
  | long (name : String) (value : Option String)
  /-- Letters after one hyphen. -/
  | short (letter : Char) (rest : List Char)
  | word (text : String)
deriving DecidableEq, Repr

/-- The form of an argument. -/
def Argument.ofString (s : String) : Argument :=
  match s.toList with
  | ['-', '-'] => .separator
  | '-' :: '-' :: body =>
    match body.dropWhile (· != '=') with
    | [] => .long (String.ofList body) none
    | _ :: value => .long (String.ofList (body.takeWhile (· != '='))) (some (String.ofList value))
  | '-' :: letter :: rest => .short letter rest
  | _ => .word s

/-- An option that takes a value. -/
structure OptionShape where
  name : String
  /-- The letter that abbreviates the name. -/
  letter : Option Char
deriving DecidableEq, Repr

/-- Which arguments are accepted. -/
structure Grammar where
  options : List OptionShape
  /-- How many words there may be. -/
  words : Nat
  /-- Whether the version may be asked for. -/
  hasVersion : Bool
deriving DecidableEq, Repr

/-- What has been found among arguments. -/
structure Scan where
  /-- The options that are settled, with their values. -/
  options : List (String × String)
  /-- The option that was given last, with its value if that has been given too. -/
  waiting : Option (String × Option String)
  words : List String
  /-- Whether the separator has been passed. -/
  separated : Bool
deriving DecidableEq, Repr

namespace Scan

/-- Nothing found yet. -/
def start : Scan := ⟨[], none, [], false⟩

/-- The value of an option that is settled. -/
def value? (s : Scan) (name : String) : Option String :=
  s.options.lookup name

/-- Settles an option. -/
def commit (s : Scan) (name value : String) : Except UsageError Scan :=
  if (s.value? name).isSome then .error .repeatedOption
  else .ok { s with options := s.options ++ [(name, value)] }

/-- Settles the option that is waiting. -/
def settle (s : Scan) : Except UsageError Scan :=
  match s.waiting with
  | none => .ok s
  | some (_, none) => .error .missingValue
  | some (name, some value) => { s with waiting := none }.commit name value

/-- Begins an option, whose value may be part of the same argument. -/
def giveOption (s : Scan) (name : String) (value : Option String) : Except UsageError Scan := do
  let s ← s.settle
  match value with
  | some v => s.commit name v
  | none => return { s with waiting := some (name, none) }

/-- Meets a flag. -/
def giveFlag (s : Scan) (request : UsageError) : Except UsageError Scan := do
  let _ ← s.settle
  throw request

/-- Adds a word. -/
def giveWord (s : Scan) (text : String) : Except UsageError Scan := do
  let s ← s.settle
  return { s with words := s.words ++ [text] }

/-- Whether the next argument is the value of the option that is waiting. -/
def wantsValue (s : Scan) : Bool :=
  !s.separated && s.waiting.any (·.2.isNone)

/-- Takes an argument as the value of the option that is waiting. -/
def giveValue (s : Scan) (text : String) : Scan :=
  { s with waiting := s.waiting.map fun w => (w.1, some text) }

end Scan

namespace Grammar

/-- What a flag with the given name asks for. -/
def flag? (g : Grammar) (name : String) : Option UsageError :=
  if name = "help" then some .helpRequested
  else if name = "version" ∧ g.hasVersion then some .versionRequested
  else none

/-- The name of the flag that a letter abbreviates. -/
def flagName (letter : Char) : String :=
  if letter = 'h' then "help" else if letter = 'V' then "version" else ""

/-- Takes an argument with a spelled-out name. -/
def takeLong (g : Grammar) (s : Scan) (name : String) (value : Option String) :
    Except UsageError Scan :=
  match g.flag? name, value with
  | some _, some _ => .error .needlessValue
  | some request, none => s.giveFlag request
  | none, _ =>
    if g.options.any (·.name == name) then s.giveOption name value else .error .unknownArgument

/-- The value that stands behind a letter in the same argument, perhaps after an equals sign. -/
def shortValue : List Char → Option String
  | [] => none
  | '=' :: value => some (String.ofList value)
  | value => some (String.ofList value)

/-- Takes an argument that begins with a letter. -/
def takeShort (g : Grammar) (s : Scan) (letter : Char) (rest : List Char) :
    Except UsageError Scan :=
  match g.flag? (flagName letter), g.options.find? (·.letter == some letter) with
  | some request, _ => s.giveFlag request
  | none, some o => s.giveOption o.name (shortValue rest)
  | none, none => .error .unknownArgument

/-- Whether there is room for a further word. -/
def hasRoom (g : Grammar) (s : Scan) : Bool :=
  s.words.length < g.words

/-- Finds the options and words among arguments. At a word for which there is no room the scan ends,
and the word comes back with the arguments after it. -/
def scan (g : Grammar) (s : Scan) :
    List String → Except UsageError (Scan × Option (String × List String))
  | [] => .ok (s, none)
  | text :: rest =>
    match (if s.separated then .word text else Argument.ofString text) with
    | .separator => g.scan { s with separated := true } rest
    | .long name value => do g.scan (← g.takeLong s name value) rest
    | .short letter letters => do g.scan (← g.takeShort s letter letters) rest
    | .word _ =>
      if s.wantsValue then g.scan (s.giveValue text) rest
      else if g.hasRoom s then do g.scan (← s.giveWord text) rest
      else .ok (s, some (text, rest))

end Grammar

end BoxArrow
