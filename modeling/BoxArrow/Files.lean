import BoxArrow.Fault
import BoxArrow.Procedure

/-!
# Files and paths

A tree of files has a root, and one of its directories is the working directory. Whatever is in the
tree has a place, which is the list of the names that lead to it from the root. Paths are walked
name by name, from the root if they begin with a slash and from the working directory otherwise.
Empty names and single dots stay, and two dots go up, but not above the root. There are no links, so
that every directory has one place.

A tree says for itself at which places the system lets no file be written. Everything else can be
written, also outside the working directory.

## Main definitions

* `BoxArrow.FileTree`, with `read`, `isThere` and `write`.
* `BoxArrow.FileTree.find` — what a path leads to.
* `BoxArrow.extensionOf` — the extension of the file that a path names.
-/

namespace BoxArrow

/-- The names of a path. -/
def pathNames (path : String) : List String :=
  ((path.toList.splitOn '/').filter (· != [])).map String.ofList

/-- The extension of a file name: what stands after its last dot, unless the only dot begins the
name. -/
def nameExtension (name : List Char) : List Char :=
  match name.reverse.dropWhile (· != '.') with
  | [] => []
  | [_] => []
  | _ => (name.reverse.takeWhile (· != '.')).reverse

/-- The extension of the file that a path names, empty when there is none. -/
def extensionOf (path : String) : String :=
  match ((pathNames path).filter (· != ".")).getLast? with
  | none => ""
  | some name => if name = ".." then "" else String.ofList (nameExtension name.toList)

/-- The text that the content of a file is. -/
def textOfContent (content : ByteArray) : Except FileFault String :=
  match String.fromUTF8? content with
  | some text => .ok text
  | none => .error .notUtf8

/-- The names that lead from the root to something. -/
abbrev Place := List String

/-- What is at a place. -/
inductive Entry where
  | file (content : ByteArray)
  | directory
  /-- A device that is empty and keeps nothing. -/
  | nullDevice

/-- Files and directories by their places. -/
structure FileTree where
  /-- The place of the working directory. -/
  here : Place
  /-- What there is. The directories that lead to the entries and to the working directory are there
  without being listed. -/
  entries : List (Place × Entry)
  /-- Why the system lets no file be written at a place, if it does not. -/
  refusal : Place → Option FileFault

namespace FileTree

/-- What a path leads to. -/
inductive Found where
  | directory (place : Place)
  | file (place : Place) (content : ByteArray)
  | nullDevice
  /-- Nothing yet, in a directory that is there. -/
  | nothing (place : Place)
  /-- Nothing, under a name that is too long for a file. -/
  | unnameable

/-- How many bytes there may be in a name. -/
def maxNameSize : Nat := 255

/-- How many bytes there may be in a path. -/
def maxPathSize : Nat := 4095

/-- Whether the names of a place begin those of the working directory or of an entry. -/
def leadsOn (t : FileTree) (place : Place) : Bool :=
  place.isPrefixOf t.here || t.entries.any fun e => place.isPrefixOf e.1

/-- What is at a place. -/
def atPlace (t : FileTree) (place : Place) : Found :=
  match t.entries.lookup place with
  | some (.file content) => .file place content
  | some .directory => .directory place
  | some .nullDevice => .nullDevice
  | none => if t.leadsOn place then .directory place else .nothing place

/-- What a name stands for in a directory. -/
def look (t : FileTree) (directory : Place) (name : String) : Found :=
  if name = "." then .directory directory
  else if name = ".." then .directory directory.dropLast
  else if maxNameSize < name.utf8ByteSize then .unnameable
  else t.atPlace (directory ++ [name])

/-- Why nothing is found behind something that is no directory. -/
def Found.deadEnd : Found → FileFault
  | .nothing _ => .notFound
  | .unnameable => .nameTooLong
  | _ => .notDirectory

/-- What names lead to, one after the other, from a directory. -/
def walk (t : FileTree) (directory : Place) : List String → Except FileFault Found
  | [] => .ok (.directory directory)
  | name :: names =>
    match t.look directory name with
    | .directory next => t.walk next names
    | found => if names.isEmpty then .ok found else .error found.deadEnd

/-- Where a path begins. -/
def start (t : FileTree) (path : String) : Place :=
  if path.startsWith "/" then [] else t.here

/-- What a path leads to. An empty path leads nowhere. -/
def find (t : FileTree) (path : String) : Except FileFault Found :=
  if path.contains '\x00' then .error .nulInPath
  else if path.isEmpty then .error .notFound
  else if maxPathSize < path.utf8ByteSize then .error .nameTooLong
  else t.walk (t.start path) (pathNames path)

/-- Whether a path says by its end that it names a directory. -/
def namesDirectory (path : String) : Bool :=
  path.endsWith "/"

/-- The text of the file that a path names. -/
def read (t : FileTree) (path : String) : Except FileFault String := do
  match ← t.find path with
  | .directory _ => throw .isDirectory
  | .nothing _ => throw .notFound
  | .unnameable => throw .nameTooLong
  | .nullDevice => if namesDirectory path then throw .notDirectory else return ""
  | .file _ content => if namesDirectory path then throw .notDirectory else textOfContent content

/-- Whether a path names a file or a directory. -/
def isThere (t : FileTree) (path : String) : Bool :=
  match t.find path with
  | .ok (.directory _) => true
  | .ok (.file _ _) => !namesDirectory path
  | .ok .nullDevice => !namesDirectory path
  | _ => false

/-- The tree with a file of the given content at a place, where there may have been one before. -/
def put (t : FileTree) (place : Place) (content : ByteArray) : FileTree :=
  { t with entries := (place, .file content) :: t.entries.filter (·.1 != place) }

/-- A place, provided that the system lets a file be written there. -/
def allowed (t : FileTree) (place : Place) : Except FileFault Place :=
  match t.refusal place with
  | some fault => .error fault
  | none => .ok place

/-- The place of the file that a text is written to under a path. The null device keeps nothing and
has no place. -/
def target (path : String) (t : FileTree) : Except FileFault (Option Place) := do
  let found ← t.find path
  if namesDirectory path then throw .isDirectory
  else
    match found with
    | .directory _ => throw .isDirectory
    | .unnameable => throw .nameTooLong
    | .nullDevice => return none
    | .file place _ => some <$> t.allowed place
    | .nothing place => some <$> t.allowed place

/-- Writes a text to the file that a path names. -/
def write (path text : String) : Procedure FileFault FileTree Unit := do
  match ← liftExcept ((← get).target path) with
  | some place => modify fun t => t.put place text.toUTF8
  | none => pure ()

end FileTree

end BoxArrow
