import BoxArrow.Toml.Value

/-!
# Tables and how they grow

A TOML document adds to a table one statement after the other. A table may be spoken of in several
statements, but it may be defined only once: by a header, by dotted keys, or by a value that is
written all at once and is closed from then on. A table that the header of another one only passed
through may still be defined later, by a header or by dotted keys that lead into it.

## Main definitions

* `BoxArrow.Toml.Table` — a table that may still grow.
* `BoxArrow.Toml.Table.assign`, `open?`, `append?` — what statements add to a table.
* `BoxArrow.Toml.Statement`, `BoxArrow.Toml.ofStatements` — the table that statements define.
* `BoxArrow.Toml.Table.toValue` — a grown table as a value.
-/

namespace BoxArrow.Toml

/-- How a table came to be. -/
inductive Origin where
  /-- A header passed through it. -/
  | passed
  /-- Dotted keys define it. -/
  | dotted
  /-- A header defines it. -/
  | header
deriving DecidableEq, Repr

/-- The origin of a table after a path has led into it, unless the path may not do so. Dotted keys
define the tables that they lead into, and a table that a header defines is closed to them. -/
def Origin.entered (origin : Origin) : Origin → Option Origin
  | .dotted => if origin = .header then none else some .dotted
  | _ => some origin

/-- What stands under a key. -/
inductive Entry where
  /-- A value, to which nothing can be added. -/
  | closed (value : Value)
  /-- A table that may still grow. -/
  | table (origin : Origin) (entries : List (String × Entry))
  /-- A list of tables, of which the last may still grow. -/
  | tables (done : List Value) (last : List (String × Entry))
deriving Inhabited

/-- A table that may still grow. The keys are distinct. -/
abbrev Table := List (String × Entry)

/-- A path of keys, of which the last is named apart from those that lead to it. -/
structure KeyPath where
  /-- The keys on the way. -/
  way : List String
  key : String
deriving DecidableEq, Repr

/-- All keys of a path. -/
def KeyPath.toList (p : KeyPath) : List String :=
  p.way ++ [p.key]

/-- The path along a nonempty row of keys, given by its first key. -/
def KeyPath.ofKeys (first : String) : List String → KeyPath
  | [] => ⟨[], first⟩
  | next :: rest =>
    let p := ofKeys next rest
    ⟨first :: p.way, p.key⟩

mutual

/-- What stands under a key, as a value. -/
def Entry.toValue : Entry → Value
  | .closed value => value
  | .table _ entries => .table (valuesOf entries)
  | .tables done last => .array (done ++ [.table (valuesOf last)])

/-- The entries of a table as values. -/
def valuesOf : List (String × Entry) → List (String × Value)
  | [] => []
  | (key, entry) :: rest => (key, entry.toValue) :: valuesOf rest

end

namespace Table

/-- A table as a value. -/
def toValue (t : Table) : Value :=
  .table (valuesOf t)

/-- Lets `f` make another entry of the one under a key, or a first one where there is none. -/
def alter (key : String) (f : Option Entry → Option Entry) : Table → Option Table
  | [] => do return [(key, ← f none)]
  | (k, entry) :: rest =>
    if k = key then do return (k, ← f (some entry)) :: rest
    else do return (k, entry) :: (← alter key f rest)

/-- Puts an entry under a key that is still free. -/
def insertNew (key : String) (entry : Entry) (t : Table) : Option Table :=
  t.alter key fun
    | none => some entry
    | some _ => none

/-- Goes along a path from one table to the next and edits the table at its end. Tables that are
missing are made with the origin `fresh`, and that of the others changes as `Origin.entered` says. A
list of tables stands for its last one. -/
def within (fresh : Origin) (edit : Origin → Table → Option Table) :
    List String → Origin → Table → Option Table
  | [], origin, t => edit origin t
  | key :: way, _, t =>
    t.alter key fun
      | none => (within fresh edit way fresh []).map (.table fresh)
      | some (.table origin entries) => do
        let origin ← origin.entered fresh
        return .table origin (← within fresh edit way origin entries)
      | some (.tables done last) => (within fresh edit way .header last).map (.tables done)
      | some (.closed _) => none

/-- Puts a value under a path of keys. The last table on the way has to be one that dotted keys
define, unless there is no way to go. -/
def assign (path : KeyPath) (value : Value) (origin : Origin) (t : Table) : Option Table :=
  within .dotted (fun reached inner =>
    if path.way.isEmpty ∨ reached = .dotted then inner.insertNew path.key (.closed value)
    else none) path.way origin t

/-- Defines the table at a path by a header. It may have been passed through before. -/
def open? (path : KeyPath) (t : Table) : Option Table :=
  within .passed (fun _ inner =>
    inner.alter path.key fun
      | none => some (.table .header [])
      | some (.table .passed entries) => some (.table .header entries)
      | some _ => none) path.way .header t

/-- Adds an empty table to the list of tables at a path. -/
def append? (path : KeyPath) (t : Table) : Option Table :=
  within .passed (fun _ inner =>
    inner.alter path.key fun
      | none => some (.tables [] [])
      | some (.tables done last) => some (.tables (done ++ [Table.toValue last]) [])
      | some _ => none) path.way .header t

end Table

/-- A statement of a document. -/
inductive Statement where
  /-- A value for a path of keys, counted from the table of the latest header. -/
  | assign (path : KeyPath) (value : Value)
  /-- The header of a table. -/
  | header (path : KeyPath)
  /-- The header of a further table in a list of tables. -/
  | element (path : KeyPath)

/-- A document as far as it has been read: its table, and the keys that lead to the table of the
latest header. -/
structure Draft where
  root : Table
  place : List String

namespace Draft

/-- The draft before any statement. -/
def start : Draft := ⟨[], []⟩

/-- The draft with what a statement adds, unless the statement defines something again. -/
def add (d : Draft) : Statement → Option Draft
  | .assign path value => do
    let root ← Table.within .passed (Table.assign path value) d.place .header d.root
    return { d with root := root }
  | .header path => do return ⟨← d.root.open? path, path.toList⟩
  | .element path => do return ⟨← d.root.append? path, path.toList⟩

end Draft

/-- The table that statements define. -/
def ofStatements (ss : List Statement) : Option Value := do
  let d ← ss.foldlM Draft.add .start
  return d.root.toValue

end BoxArrow.Toml
