import BoxArrow.Proofs.Batches
import BoxArrow.Proofs.TwoViews

/-!
# The ids of edges stay distinct

Valid graphs may have several edges with one id, and a snapshot may bring such a graph. Everything
else that is done to a graph keeps the ids of edges distinct. The edges of a text are named by the
pairs of words that they join; an edge that is drawn by hand gets an id which no edge has, also
where an edge of a text happens to be called like one drawn by hand; and all other edits at most
take edges out. So a session that takes over no snapshot has one edge to each id in every state, and
a change from the editor is for the edge that it means.

## Main definitions

* `BoxArrow.Session.LoadsNothing` — no snapshot is taken over in a run.

## Main results

* `BoxArrow.Graph.nodup_edgeIds_connect`, `BoxArrow.Graph.nodup_edgeIds_deleteSelected`,
  `BoxArrow.nodup_edgeIds_parse` — edits and texts.
* `BoxArrow.Graph.applyChanges_singleton_edge` — a change of one edge.
* `BoxArrow.Session.nodup_edgeIds_run` — the edge ids in every state of a run.
* `BoxArrow.Session.one_edge_to_each_id` — the same, with what a change of an edge does there.
-/

namespace BoxArrow

namespace Graph

variable {g g' : Graph}

/-! ### Edits -/

/-- An edge that is drawn by hand gets an id of its own. -/
theorem nodup_edgeIds_connect (hids : g.edgeIds.Nodup) {source target : String} {stamp : Nat}
    (hok : g.connect source target stamp = .ok g') : g'.edgeIds.Nodup := by
  obtain ⟨-, -, rfl⟩ := connect_eq_ok.mp hok
  have happend : (g.edges ++ [g.newEdge source target stamp]).map (·.id) =
      g.edgeIds.concat (freshId "edge" stamp g.edgeIds) := by
    rw [List.map_append, List.map_singleton, List.concat_eq_append]
    rfl
  rw [edgeIds, happend, List.nodup_concat]
  exact ⟨freshId_notMem _ _ _, hids⟩

theorem nodup_edgeIds_deleteSelected (hids : g.edgeIds.Nodup) :
    g.deleteSelected.1.edgeIds.Nodup :=
  hids.sublist ((List.filter_sublist.trans List.filter_sublist).map _)

/-- A change of one edge of a valid graph is for that edge, in its place, and for nothing else. -/
theorem applyChanges_singleton_edge (hg : g.Valid) {before after : List Edge} {e : Edge}
    (hedges : g.edges = before ++ e :: after) (hbefore : ∀ f ∈ before, f.id ≠ e.id)
    {c : EdgeChange} (hc : c.id = e.id) :
    (g.applyChanges ⟨[], [c]⟩).1 =
      { g with edges := before ++ ((c.update e).toList ++ after) } := by
  have hnodes : (g.applyChanges ⟨[], [c]⟩).1.nodes = g.nodes := nodes_applyChanges g ⟨[], [c]⟩
  have hturn : EdgeChange.kind.afterAll [c] g.edges =
      before ++ ((c.update e).toList ++ after) := by
    have hnames : ∀ f ∈ before, EdgeChange.kind.name f ≠ EdgeChange.kind.target c :=
      fun f hf hname => hbefore f hf (hname.trans hc)
    rw [hedges]
    exact ChangeKind.after_append_cons hnames hc.symm
  have hjoins : ∀ f ∈ before ++ ((c.update e).toList ++ after), g.joins f = true := by
    have hall : ∀ f ∈ g.edges, g.joins f = true := fun f hf => joins_eq_true.mpr (hg.2 f hf)
    rw [hedges, List.forall_mem_append, List.forall_mem_cons] at hall
    obtain ⟨hfirst, he, hlast⟩ := hall
    rw [List.forall_mem_append, List.forall_mem_append]
    refine ⟨hfirst, fun f hf => ?_, hlast⟩
    rw [keeps_joins g (Option.mem_toList.mp hf), he]
  have hafter : (g.applyChanges ⟨[], [c]⟩).1.edges =
      before ++ ((c.update e).toList ++ after) := by
    rw [edges_applyChanges, joins_congr _ hnodes, hturn, List.filter_eq_self]
    exact hjoins
  exact congrArg₂ Graph.mk hnodes hafter

end Graph

/-! ### Texts -/

theorem nodup_edgeIds_parse (engine : Engine) (text : String) :
    (parse engine text).edgeIds.Nodup := by
  rw [parse_eq_described]
  exact Graph.nodup_edgeIds_described (statements_uses engine text)

/-! ### Sessions -/

namespace Session

variable {s s' : Session}

/-- No snapshot is taken over in a run. There may be some that are refused. -/
def LoadsNothing (s : Session) : List Operation → Prop
  | [] => True
  | op :: ops =>
    (op.scope = .both → ∃ fault, s.attempt op = .error fault) ∧ (s.step op).LoadsNothing ops

theorem nodup_edgeIds_importText (hids : s.graph.edgeIds.Nodup) :
    s.importText.graph.edgeIds.Nodup := by
  rw [importText]
  split_ifs
  · exact hids
  · exact nodup_edgeIds_parse s.engine s.code

/-- An operation other than on a snapshot keeps edge ids distinct. -/
theorem nodup_edgeIds_attempt (hids : s.graph.edgeIds.Nodup) {op : Operation}
    (hscope : op.scope ≠ .both) (hok : s.attempt op = .ok s') : s'.graph.edgeIds.Nodup := by
  rw [attempt_eq_ok] at hok
  cases op with
  | setEngine engine =>
    obtain ⟨⟩ := hok
    exact hids
  | setEngineTag tag =>
    obtain ⟨engine, -, rfl⟩ := run_setEngineTag_eq_ok.mp hok
    exact hids
  | setCode code =>
    obtain ⟨⟩ := hok
    exact hids
  | importText =>
    obtain ⟨⟩ := hok
    exact nodup_edgeIds_importText hids
  | generate =>
    obtain ⟨⟩ := hok
    exact hids
  | addNode label stamp across down =>
    obtain ⟨⟩ := hok
    exact hids
  | connect source target stamp =>
    obtain ⟨g, hg, rfl⟩ := run_connect_eq_ok.mp hok
    exact Graph.nodup_edgeIds_connect hids hg
  | relabel id label =>
    obtain ⟨⟩ := hok
    exact hids
  | deleteSelected =>
    obtain ⟨⟩ := hok
    exact Graph.nodup_edgeIds_deleteSelected hids
  | applyChanges changes =>
    obtain ⟨⟩ := hok
    exact Graph.nodup_edgeIds_applyChanges s.graph changes hids
  | restore text => exact absurd rfl hscope
  | restoreDocument document => exact absurd rfl hscope

theorem nodup_edgeIds_step (hids : s.graph.edgeIds.Nodup) {op : Operation}
    (hload : op.scope = .both → ∃ fault, s.attempt op = .error fault) :
    (s.step op).graph.edgeIds.Nodup := by
  cases hattempt : s.attempt op with
  | ok s' =>
    rw [step_of_ok hattempt]
    refine nodup_edgeIds_attempt hids (fun hscope => ?_) hattempt
    obtain ⟨fault, hfault⟩ := hload hscope
    rw [hattempt] at hfault
    exact absurd hfault nofun
  | error fault =>
    rw [step_of_error hattempt]
    exact hids

/-- In a run that takes over no snapshot, edge ids stay distinct. -/
theorem nodup_edgeIds_run (hids : s.graph.edgeIds.Nodup) {ops : List Operation}
    (hload : s.LoadsNothing ops) : (s.run ops).graph.edgeIds.Nodup := by
  induction ops generalizing s with
  | nil => exact hids
  | cons op ops ih => exact ih (nodup_edgeIds_step hids hload.1) hload.2

/-- Whatever the graph of a session, as long as its edge ids are distinct they stay so in every run
that takes over no snapshot. In particular, a session that has taken over no snapshot since it was
started has one edge to each id, in every state. A change of an edge that is named by its id is then
for this edge in its place, and for nothing else. -/
theorem one_edge_to_each_id :
    (∀ (s : Session) (ops : List Operation), s.graph.edgeIds.Nodup → s.LoadsNothing ops →
      (s.run ops).graph.edgeIds.Nodup) ∧
    ∀ (config : Config) (id : String) (now : Timestamp) (ops : List Operation),
      (start config id now).LoadsNothing ops →
      let s := (start config id now).run ops
      ∀ (before after : List Edge) (e : Edge), s.graph.edges = before ++ e :: after →
        (∀ f ∈ before ++ after, f.id ≠ e.id) ∧
        ∀ c : EdgeChange, c.id = e.id → s.step (.applyChanges ⟨[], [c]⟩) =
          { s with graph := { s.graph with
              edges := before ++ ((c.update e).toList ++ after) } } := by
  refine ⟨fun s ops hids hload => nodup_edgeIds_run hids hload, ?_⟩
  intro config id now ops hload s before after e hedges
  have hvalid : s.graph.Valid := valid_run Graph.valid_empty ops
  have hids : s.graph.edgeIds.Nodup :=
    nodup_edgeIds_run (s := start config id now) List.nodup_nil hload
  have hothers : ∀ f ∈ before ++ after, f.id ≠ e.id := by
    rw [Graph.edgeIds, hedges, List.map_append, List.map_cons, List.nodup_middle,
      List.nodup_cons, ← List.map_append] at hids
    exact fun f hf hid => hids.1 (List.mem_map.mpr ⟨f, hf, hid⟩)
  refine ⟨hothers, fun c hc => ?_⟩
  have hgraph := Graph.applyChanges_singleton_edge hvalid hedges
    (fun f hf => hothers f (List.mem_append_left _ hf)) hc
  change { s with graph := (s.graph.applyChanges ⟨[], [c]⟩).1 } = _
  rw [hgraph]

/-- An edge of a text is called like one drawn by hand. Two edges are then drawn by hand in one
millisecond, a snapshot is refused, and the first of the edges is taken out. -/
theorem one_edge_to_each_id_drawn :
    let ops : List Operation := [.setCode "edge --> 5", .importText, .connect "5" "edge" 5,
      .restore "no snapshot", .connect "edge" "5" 5]
    let s := (start .default "first" ⟨20667, 3600, 500000000⟩).run ops
    (start .default "first" ⟨20667, 3600, 500000000⟩).LoadsNothing ops ∧
      s.graph.edgeIds = ["edge-5", "edge-5-1", "edge-5-2"] ∧ s.graph.edgeIds.Nodup ∧
      s.step (.applyChanges ⟨[], [.remove "edge-5-1"]⟩) =
        { s with graph := { s.graph with edges :=
          [Edge.between "edge" "5" none] ++ [Edge.fresh "edge-5-2" "edge" "5"] } } := by
  intro ops s
  have hload : (start .default "first" ⟨20667, 3600, 500000000⟩).LoadsNothing ops :=
    ⟨nofun, nofun, nofun, fun _ => ⟨.invalidFormat .notJson, rfl⟩, nofun, trivial⟩
  have hedges : s.graph.edges = [Edge.between "edge" "5" none] ++
      Edge.fresh "edge-5-1" "5" "edge" :: [Edge.fresh "edge-5-2" "edge" "5"] := by
    decide +kernel
  refine ⟨hload, by decide +kernel, one_edge_to_each_id.1 _ ops List.nodup_nil hload, ?_⟩
  exact (one_edge_to_each_id.2 .default "first" ⟨20667, 3600, 500000000⟩ ops hload _ _ _ hedges).2
    (.remove "edge-5-1") rfl

end Session

end BoxArrow
