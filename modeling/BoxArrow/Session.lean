import BoxArrow.Config
import BoxArrow.Dialect
import BoxArrow.Graph.Change
import BoxArrow.Snapshot

/-!
# Sessions

A session is one diagram while it is being worked on: a text and a graph that are two views of it.
The views are not kept in step. They meet only when the user asks for it, by importing the text into
the graph or by generating the text from the graph. What a session takes from the clock and from
chance is handed to it.

Most operations cannot fail, and are functions on sessions. The others are procedures, which check
and change the session in a certain order. What a failed operation leaves is the session that its
procedure has come to.

## Main definitions

* `BoxArrow.Session`, `BoxArrow.Session.start`.
* `BoxArrow.Session.importText`, `BoxArrow.Session.generate` — from one view to the other.
* `BoxArrow.Session.snapshot` — saving.
* `BoxArrow.Session.adopt`, `BoxArrow.Session.importSnapshot`, `BoxArrow.Session.importDocument` —
  loading.
* `BoxArrow.Session.Operation`, `BoxArrow.Session.perform` — what can be done to a session.
* `BoxArrow.Session.step`, `BoxArrow.Session.run` — whole sessions.
-/

namespace BoxArrow

/-- One diagram while it is being worked on. -/
structure Session where
  id : String
  engine : Engine
  /-- The text. -/
  code : String
  graph : Graph
  createdAt : Timestamp
  /-- How often the text has been replaced. The count is kept in 64 bits, which `2 ^ 64`
  replacements would exceed; so many are out of reach. -/
  revision : Nat
  /-- The text that each engine starts with. -/
  sources : Sources
deriving DecidableEq, Repr

/-- What importing the text did. -/
inductive ImportOutcome where
  /-- The graph was replaced by one with so many nodes and edges. -/
  | imported (nodes edges : Nat)
  /-- The text was blank, and the graph was left as it was. -/
  | skipped
deriving DecidableEq, Repr

namespace Session

/-- A new session on the configured engine, with the text that this engine starts with and an empty
graph. -/
def start (config : Config) (id : String) (now : Timestamp) : Session where
  id := id
  engine := config.engine
  code := config.sources.get config.engine
  graph := Graph.empty
  createdAt := now
  revision := 0
  sources := config.sources

/-! ### The text -/

/-- Replaces the text. -/
def setCode (s : Session) (code : String) : Session :=
  { s with code := code, revision := s.revision + 1 }

/-- Switches to an engine and loads the text that it starts with. -/
def setEngine (s : Session) (engine : Engine) : Session :=
  { s with engine := engine }.setCode (s.sources.get engine)

/-- Switches to the engine with the given tag. -/
def setEngineTag (tag : String) : Procedure Fault Session Unit := do
  let engine ← liftExcept (Engine.ofTag tag)
  modify fun s => s.setEngine engine

/-! ### From one view to the other -/

/-- Whether the text is blank. -/
def isBlank (s : Session) : Bool :=
  (trim s.code.toList).isEmpty

/-- Replaces the graph by the one that the text describes. A blank text leaves the graph as it
is. -/
def importText (s : Session) : Session :=
  if s.isBlank then s else { s with graph := parse s.engine s.code }

/-- What importing the text does. -/
def importOutcome (s : Session) : ImportOutcome :=
  if s.isBlank then .skipped
  else .imported s.importText.graph.nodes.length s.importText.graph.edges.length

/-- Replaces the text by the one that describes the graph. -/
def generate (s : Session) : Session :=
  s.setCode (BoxArrow.generate s.engine s.graph)

/-! ### The graph -/

/-- The label of a node that is added without one. -/
def defaultLabel (s : Session) : String :=
  s!"Node {s.graph.nodes.length + 1}"

/-- Adds a node, at a place drawn from two random words. -/
def addNode (s : Session) (label : Option String) (stamp : Nat) (across down : UInt64) : Session :=
  { s with graph := s.graph.addNode (label.getD s.defaultLabel) stamp across down }

/-- Connects two nodes of the graph. -/
def connect (source target : String) (stamp : Nat) : Procedure Fault Session Unit :=
  (Graph.drawEdge source target stamp).onPart graph (fun s g => { s with graph := g }) .graph

/-- Gives a node a new label. -/
def relabel (s : Session) (id label : String) : Session :=
  { s with graph := s.graph.relabel id label }

/-- Takes out the selected nodes and edges, and the edges that lose an end. -/
def deleteSelected (s : Session) : Session × Removed :=
  let (g, removed) := s.graph.deleteSelected
  ({ s with graph := g }, removed)

/-- Applies a batch of changes from the editor. -/
def applyChanges (s : Session) (c : ChangeSet) : Session × ChangeOutcome :=
  let (g, outcome) := s.graph.applyChanges c
  ({ s with graph := g }, outcome)

/-! ### Saving and loading -/

/-- The session as a snapshot taken at the given time. -/
def snapshot (s : Session) (now : Timestamp) : Snapshot where
  version := Snapshot.currentVersion
  diagram :=
    { id := some s.id
      engine := s.engine
      code := s.code
      nodes := some s.graph.nodes
      edges := some s.graph.edges
      createdAt := some s.createdAt
      updatedAt := some now }

/-- The graph that a snapshot leads to, provided that it is valid. Arrays that the snapshot does not
have are those of the session. -/
def adoptedGraph (s : Session) (r : DiagramRecord) : Except Fault Graph :=
  match Graph.ofParts (r.nodes.getD s.graph.nodes) (r.edges.getD s.graph.edges) with
  | .ok g => .ok g
  | .error e => .error (.invalidFormat (.brokenGraph e))

/-- Takes over the state of a snapshot. The id and the time of the start stay where the snapshot has
none. -/
def adopt (snap : Snapshot) : Procedure Fault Session Unit := do
  let r := snap.diagram
  let g ← liftExcept ((← get).adoptedGraph r)
  r.id.forM fun id => modify fun s => { s with id := id }
  r.createdAt.forM fun createdAt => modify fun s => { s with createdAt := createdAt }
  modify fun s => { s with engine := r.engine }
  modify fun s => { s with graph := g }
  modify fun s => s.setCode r.code

/-- Loads a snapshot from JSON text. -/
def importSnapshot (text : String) : Procedure Fault Session Unit := do
  adopt (← liftExcept (Snapshot.parse text))

/-- Loads a snapshot from a JSON document. -/
def importDocument (j : Json) : Procedure Fault Session Unit := do
  adopt (← liftExcept (Snapshot.ofDocument j))

/-- The session with the snapshot of a text. -/
def restore (s : Session) (text : String) : Except Fault Session :=
  (importSnapshot text).outcome s

/-! ### Whole sessions -/

/-- What can be done to a session, with what the clock and chance give to it. -/
inductive Operation where
  | setEngine (engine : Engine)
  | setEngineTag (tag : String)
  | setCode (code : String)
  | importText
  | generate
  | addNode (label : Option String) (stamp : Nat) (across down : UInt64)
  | connect (source target : String) (stamp : Nat)
  | relabel (id label : String)
  | deleteSelected
  | applyChanges (changes : ChangeSet)
  | restore (text : String)
  | restoreDocument (document : Json)

/-- Carries out an operation. -/
def perform : Operation → Procedure Fault Session Unit
  | .setEngine engine => modify fun s => s.setEngine engine
  | .setEngineTag tag => setEngineTag tag
  | .setCode code => modify fun s => s.setCode code
  | .importText => modify importText
  | .generate => modify generate
  | .addNode label stamp across down => modify fun s => s.addNode label stamp across down
  | .connect source target stamp => connect source target stamp
  | .relabel id label => modify fun s => s.relabel id label
  | .deleteSelected => modify fun s => s.deleteSelected.1
  | .applyChanges changes => modify fun s => (s.applyChanges changes).1
  | .restore text => importSnapshot text
  | .restoreDocument document => importDocument document

/-- What an operation makes of a session, or why it cannot be done. -/
def attempt (s : Session) (op : Operation) : Except Fault Session :=
  (perform op).outcome s

/-- The session that an operation leaves, whether it can be done or not. -/
def step (s : Session) (op : Operation) : Session :=
  (perform op).left s

/-- The session after a sequence of operations. -/
def run (s : Session) (ops : List Operation) : Session :=
  ops.foldl step s

end Session

end BoxArrow
