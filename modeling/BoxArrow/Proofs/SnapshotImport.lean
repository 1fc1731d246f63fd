import BoxArrow.Proofs.Procedures
import BoxArrow.Proofs.Validity
import BoxArrow.Proofs.Versions
import BoxArrow.Session

/-!
# Loading a snapshot

A snapshot is loaded whole or not at all. Before a session takes anything over, the text has to be a
JSON document with a diagram, the document has to be that of a snapshot, the version has to be a
supported one, and the arrays have to make up a valid graph. Arrays that the snapshot leaves out are
those of the session, so that the last condition is one on both. Together these conditions are all
that loading asks for.

That nothing is left of a snapshot that is not accepted is a matter of order: the session is changed
part by part, but only after the last of the conditions has been checked.

## Main definitions

* `BoxArrow.Session.merged` — the graph that a snapshot would lead to.
* `BoxArrow.Session.adopted` — what a session becomes with a snapshot.

## Main results

* `BoxArrow.Snapshot.parse_eq_ok`, `BoxArrow.Snapshot.isInvalidFormat_of_parse` — which texts are
  read as snapshots, and how the others are refused.
* `BoxArrow.Session.run_adopt_eq_ok`, `BoxArrow.Session.failsCleanly_adopt` — when a snapshot is
  taken over, and that a session is left as it is otherwise.
* `BoxArrow.Session.restore_all_or_nothing` — loading a text, in all cases.
-/

namespace BoxArrow

/-- The fault is one of the format of a snapshot. -/
def Fault.IsInvalidFormat (fault : Fault) : Prop :=
  ∃ reason, fault = .invalidFormat reason

/-! ### Texts of snapshots -/

namespace Snapshot

variable {snap : Snapshot} {j : Json} {text : String} {fault : Fault}

theorem ofDocument_eq_ok :
    ofDocument j = .ok snap ↔
      (j.member? "diagram").isSome ∧ ofJson j = .ok snap ∧ HasMajor snap.version 1 := by
  rw [ofDocument]
  cases hmember : j.member? "diagram" with
  | none => simp
  | some diagram =>
    cases hdecoded : ofJson j with
    | error e => simp
    | ok read =>
      rw [← isSupportedVersion_iff]
      dsimp only
      constructor
      · intro h
        split_ifs at h with hversion
        obtain rfl := Except.ok.inj h
        exact ⟨rfl, rfl, hversion⟩
      · rintro ⟨-, hread, hversion⟩
        obtain rfl := Except.ok.inj hread
        rw [if_pos hversion]

theorem isInvalidFormat_of_ofDocument (h : ofDocument j = .error fault) :
    fault.IsInvalidFormat := by
  rw [ofDocument] at h
  cases hmember : j.member? "diagram" with
  | none =>
    rw [hmember] at h
    exact ⟨_, (Except.error.inj h).symm⟩
  | some diagram =>
    rw [hmember] at h
    dsimp only at h
    cases hdecoded : ofJson j with
    | error e =>
      rw [hdecoded] at h
      exact ⟨_, (Except.error.inj h).symm⟩
    | ok read =>
      rw [hdecoded] at h
      dsimp only at h
      split_ifs at h
      exact ⟨_, (Except.error.inj h).symm⟩

theorem parse_eq_ok :
    parse text = .ok snap ↔ ∃ j, Json.parse? text = some j ∧ (j.member? "diagram").isSome ∧
      ofJson j = .ok snap ∧ HasMajor snap.version 1 := by
  rw [parse]
  cases hjson : Json.parse? text with
  | none => simp
  | some j => simp [ofDocument_eq_ok]

theorem isInvalidFormat_of_parse (h : parse text = .error fault) : fault.IsInvalidFormat := by
  rw [parse] at h
  cases hjson : Json.parse? text with
  | none =>
    rw [hjson] at h
    exact ⟨_, (Except.error.inj h).symm⟩
  | some j =>
    rw [hjson] at h
    exact isInvalidFormat_of_ofDocument h

end Snapshot

/-! ### Taking a snapshot over -/

namespace Session

variable {s s' : Session} {snap : Snapshot}

/-- The nodes and the edges of a snapshot, with those of the session where the snapshot has none. -/
def merged (s : Session) (snap : Snapshot) : Graph :=
  ⟨snap.diagram.nodes.getD s.graph.nodes, snap.diagram.edges.getD s.graph.edges⟩

/-- A session with the state of a snapshot. The id and the time of the start stay where the snapshot
has none. -/
def adopted (s : Session) (snap : Snapshot) : Session where
  id := snap.diagram.id.getD s.id
  engine := snap.diagram.engine
  code := snap.diagram.code
  graph := s.merged snap
  createdAt := snap.diagram.createdAt.getD s.createdAt
  revision := s.revision + 1
  sources := s.sources

theorem adoptedGraph_eq_ok {g : Graph} :
    s.adoptedGraph snap.diagram = .ok g ↔ (s.merged snap).Valid ∧ g = s.merged snap := by
  have hparts : Graph.ofParts (snap.diagram.nodes.getD s.graph.nodes)
      (snap.diagram.edges.getD s.graph.edges) = .ok g ↔
        (s.merged snap).Valid ∧ g = s.merged snap := by
    rw [Graph.ofParts_eq_ok]
    rfl
  rw [adoptedGraph, ← hparts]
  cases Graph.ofParts (snap.diagram.nodes.getD s.graph.nodes)
    (snap.diagram.edges.getD s.graph.edges) <;> simp

theorem isInvalidFormat_of_adoptedGraph {r : DiagramRecord} {fault : Fault}
    (h : s.adoptedGraph r = .error fault) : fault.IsInvalidFormat := by
  rw [adoptedGraph] at h
  cases hparts : Graph.ofParts (r.nodes.getD s.graph.nodes) (r.edges.getD s.graph.edges) with
  | ok g => simp [hparts] at h
  | error e =>
    rw [hparts] at h
    exact ⟨_, (Except.error.inj h).symm⟩

/-- A snapshot is taken over exactly when its graph is valid, and then as a whole. -/
theorem run_adopt_eq_ok :
    (adopt snap).run s = .ok () s' ↔ (s.merged snap).Valid ∧ s' = s.adopted snap := by
  rw [adopt, Procedure.run_check_bind_eq_ok, adopted]
  simp only [adoptedGraph_eq_ok]
  rcases snap with ⟨version, id, engine, code, nodes, edges, createdAt, updatedAt⟩
  constructor
  · rintro ⟨g, ⟨hvalid, rfl⟩, hrun⟩
    refine ⟨hvalid, ?_⟩
    cases id <;> cases createdAt <;> exact (EStateM.Result.ok.inj hrun).2.symm
  · rintro ⟨hvalid, rfl⟩
    refine ⟨_, ⟨hvalid, rfl⟩, ?_⟩
    cases id <;> cases createdAt <;> rfl

/-- Everything is checked before anything is changed. -/
theorem failsCleanly_adopt (snap : Snapshot) : (adopt snap).FailsCleanly Fault.IsInvalidFormat := by
  refine Procedure.failsCleanly_check_bind (fun _ _ => isInvalidFormat_of_adoptedGraph) fun g =>
    Procedure.NeverFails.failsCleanly ?_ _
  have hmodify (f : Session → Session) : (modify f : Procedure Fault Session Unit).NeverFails :=
    Procedure.neverFails_modify f
  exact (Procedure.neverFails_forM fun _ => hmodify _).bind fun _ =>
    (Procedure.neverFails_forM fun _ => hmodify _).bind fun _ =>
      (hmodify _).bind fun _ => (hmodify _).bind fun _ => hmodify _

theorem run_importSnapshot_eq_ok {text : String} :
    (importSnapshot text).run s = .ok () s' ↔
      ∃ snap, Snapshot.parse text = .ok snap ∧ (s.merged snap).Valid ∧ s' = s.adopted snap := by
  rw [importSnapshot, Procedure.run_liftExcept_bind_eq_ok]
  simp only [run_adopt_eq_ok]

theorem run_importDocument_eq_ok {j : Json} :
    (importDocument j).run s = .ok () s' ↔
      ∃ snap, Snapshot.ofDocument j = .ok snap ∧ (s.merged snap).Valid ∧ s' = s.adopted snap := by
  rw [importDocument, Procedure.run_liftExcept_bind_eq_ok]
  simp only [run_adopt_eq_ok]

theorem restore_eq_ok {text : String} :
    s.restore text = .ok s' ↔
      ∃ snap, Snapshot.parse text = .ok snap ∧ (s.merged snap).Valid ∧ s' = s.adopted snap :=
  Procedure.outcome_eq_ok.trans
    ((exists_congr fun _ => run_importSnapshot_eq_ok).trans (exists_const Unit))

theorem failsCleanly_importSnapshot (text : String) :
    (importSnapshot text).FailsCleanly Fault.IsInvalidFormat :=
  Procedure.failsCleanly_liftExcept_bind (fun _ => Snapshot.isInvalidFormat_of_parse)
    failsCleanly_adopt

theorem failsCleanly_importDocument (j : Json) :
    (importDocument j).FailsCleanly Fault.IsInvalidFormat :=
  Procedure.failsCleanly_liftExcept_bind (fun _ => Snapshot.isInvalidFormat_of_ofDocument)
    failsCleanly_adopt

/-- A text is loaded exactly when it is the JSON text of a document with a diagram, the document is
that of a snapshot with the major version one, and the arrays of the snapshot, with those of the
session for the ones it lacks, make up a valid graph. The session then has the state of the
snapshot, and its text counts as replaced once more. Every other text is refused for its format, and
the session that is left then is the one that there was. -/
theorem restore_all_or_nothing (s : Session) (text : String) :
    (∀ s', (importSnapshot text).run s = .ok () s' ↔
      ∃ j snap, Json.parse? text = some j ∧ (j.member? "diagram").isSome ∧
        Snapshot.ofJson j = .ok snap ∧ Snapshot.HasMajor snap.version 1 ∧
        (s.merged snap).Valid ∧ s' = s.adopted snap) ∧
    ∀ fault left, (importSnapshot text).run s = .error fault left →
      (∃ reason, fault = .invalidFormat reason) ∧ left = s := by
  refine ⟨fun s' => ?_, fun fault left hrun => failsCleanly_importSnapshot text hrun⟩
  rw [run_importSnapshot_eq_ok]
  constructor
  · rintro ⟨snap, hparse, hvalid, hs'⟩
    obtain ⟨j, hjson, hmember, hdecoded, hversion⟩ := Snapshot.parse_eq_ok.mp hparse
    exact ⟨j, snap, hjson, hmember, hdecoded, hversion, hvalid, hs'⟩
  · rintro ⟨j, snap, hjson, hmember, hdecoded, hversion, hvalid, hs'⟩
    have hparse := Snapshot.parse_eq_ok.mpr ⟨j, hjson, hmember, hdecoded, hversion⟩
    exact ⟨snap, hparse, hvalid, hs'⟩

end Session

end BoxArrow
