import BoxArrow.Proofs.Sessions
import BoxArrow.Proofs.StoredForms

/-!
# Saved sessions

A session is saved as the text of a snapshot, and any session can load that text. The snapshot is
read back whole, because each of its parts is found again in its written form. It is adopted because
the graph of a session is valid in every state that the session reaches. What is loaded then
replaces everything but the texts that the engines start with.

## Main results

* `BoxArrow.Session.restore_of_parse` — loading the snapshot of a session with a valid graph.
* `BoxArrow.Session.restore_snapshot_text` — saving and loading.
-/

namespace BoxArrow.Session

variable {s : Session}

/-- The snapshot of a session is read back from its text, with the nodes as they are stored, when
the two points in time are read back. Blanks behind the text do not count. -/
theorem parse_snapshot_text {nodes : List Node}
    (hnodes : List.Forall₂ Node.StoredAs s.graph.nodes nodes)
    (hcreated : Timestamp.parse s.createdAt.text = .ok s.createdAt) {now : Timestamp}
    (hnow : Timestamp.parse now.text = .ok now) (tail : String)
    (htail : ∀ c ∈ tail.toList, Json.isBlank c = true) :
    Snapshot.parse ((s.snapshot now).text ++ tail) =
      .ok ({ s with graph := ⟨nodes, s.graph.edges⟩ }.snapshot now) := by
  have hversion : isSupportedVersion (s.snapshot now).version = true :=
    Snapshot.isSupportedVersion_currentVersion
  have hdiagram : Json.Recovers DiagramRecord.ofJson (Json.maxDepth - 1)
      (s.snapshot now).diagram.toJson
      ({ s with graph := ⟨nodes, s.graph.edges⟩ }.snapshot now).diagram :=
    DiagramRecord.recovers hnodes hcreated hnow (Json.maxDepth - 5)
  exact Snapshot.parse_text hversion hdiagram tail htail

/-- A snapshot of a session with a valid graph makes any other session a copy of it, but for the
number of times that its text was replaced and the texts that engines start with. -/
theorem restore_of_parse {text : String} {now : Timestamp} (h : s.graph.Valid)
    (hparse : Snapshot.parse text = .ok (s.snapshot now)) (t : Session) :
    t.restore text = .ok { t with
      id := s.id
      engine := s.engine
      code := s.code
      graph := s.graph
      createdAt := s.createdAt
      revision := t.revision + 1 } := by
  have hmerged : (t.merged (s.snapshot now)).Valid := h
  exact restore_eq_ok.mpr ⟨s.snapshot now, hparse, hmerged, rfl⟩

/-- Saving and loading: from the text that is saved of a session in any state that it reaches, every
other session takes over the id, the engine, the text, the graph and the time of the start, and its
own text counts as replaced once more. The numbers and the points in time that are saved have to be
read back from their texts. -/
theorem restore_snapshot_text (hs : s.Reachable) (t : Session) (now : Timestamp)
    (hnodes : ∀ n ∈ s.graph.nodes, n.Storable)
    (hcreated : Timestamp.parse s.createdAt.text = .ok s.createdAt)
    (hnow : Timestamp.parse now.text = .ok now) :
    t.restore (s.snapshot now).text = .ok { t with
      id := s.id
      engine := s.engine
      code := s.code
      graph := s.graph
      createdAt := s.createdAt
      revision := t.revision + 1 } := by
  have hstored : List.Forall₂ Node.StoredAs s.graph.nodes s.graph.nodes :=
    List.forall₂_same.mpr fun n hn => (hnodes n hn).storedAs
  have hparse := parse_snapshot_text hstored hcreated hnow "" nofun
  rw [String.append_empty] at hparse
  exact restore_of_parse hs.valid hparse t

/-- A session on a text with two connections, in which a node with an awkward label was added and
connected, a node moved far away, another resized, and a node and an edge selected. -/
def annotated : Session :=
  (start ⟨.graphviz, .default, 400⟩ "first" ⟨20667, 3600, 500000000⟩).run
    [.setCode "a -> b [label=\"x\\y\"]\nb -> a", .importText,
      .addNode (some "tab\t\"quoted\" \\ \x01 é\nline") 7 0 4611686018427387904,
      .connect "node-7" "a" 8,
      .applyChanges ⟨[.position "a" (some ⟨-0.0, 1e21⟩), .dimensions "b" (some ⟨1234.5, 0.25⟩),
        .select "b" true], [.select "b-a" true]⟩]

theorem restore_snapshot_text_annotated :
    let now : Timestamp := ⟨20668, 86399, 1000000007⟩
    let t := start ⟨.d2, .default, 400⟩ "second" now
    annotated.Reachable ∧ (∀ n ∈ annotated.graph.nodes, n.Storable) ∧
      Timestamp.parse annotated.createdAt.text = .ok annotated.createdAt ∧
      Timestamp.parse now.text = .ok now ∧
      annotated.graph.nodes.length = 3 ∧ annotated.graph.edges.length = 3 ∧
      t.restore (annotated.snapshot now).text = .ok
        ⟨"first", .graphviz, "a -> b [label=\"x\\y\"]\nb -> a", annotated.graph,
          ⟨20667, 3600, 500000000⟩, 1, .default⟩ := by
  have hs : annotated.Reachable := ⟨_, _, _, _, rfl⟩
  have hnodes : ∀ n ∈ annotated.graph.nodes, n.Storable := by decide +kernel
  have hcreated : Timestamp.parse annotated.createdAt.text = .ok annotated.createdAt := by
    decide +kernel
  have hnow : Timestamp.parse (Timestamp.text ⟨20668, 86399, 1000000007⟩) =
      .ok ⟨20668, 86399, 1000000007⟩ := by decide +kernel
  refine ⟨hs, hnodes, hcreated, hnow, by decide +kernel, by decide +kernel, ?_⟩
  exact restore_snapshot_text hs _ _ hnodes hcreated hnow

end BoxArrow.Session
