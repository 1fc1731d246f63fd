import BoxArrow.Proofs.Lines
import BoxArrow.Proofs.Sessions

/-!
# The two views of a session

The text and the graph of a session meet only when the user asks for it. Operations on the text
leave the graph alone, operations on the graph leave the text alone, and only a snapshot replaces
both. What the text is, and how often it has been replaced, follows from the texts that the
operations of a run put in place, one after the other. An operation that fails puts none in place,
and what it leaves is the session that there was.

## Main definitions

* `BoxArrow.Session.Scope`, `BoxArrow.Session.Operation.scope` — which view an operation is for.
* `BoxArrow.Session.newText?` — the text that an operation puts in place.
* `BoxArrow.Session.newTexts` — the texts that a run puts in place, in order.

## Main results

* `BoxArrow.Session.done_of_attempt`, `BoxArrow.Session.exists_attempt_of_newText?` — what an
  operation changes that can be done, and that no other one puts a text in place.
* `BoxArrow.Session.effect_step` — what any operation changes.
* `BoxArrow.Session.code_run`, `BoxArrow.Session.revision_run` — the text after a run.
* `BoxArrow.Session.two_views_run_start` — the two views in every state that a session reaches.
-/

namespace BoxArrow.Session

/-- The views that an operation can change. -/
inductive Scope where
  | text
  | graph
  | both
deriving DecidableEq

/-- Operations are for the text or for the graph, but for snapshots, which are for both. -/
def Operation.scope : Operation → Scope
  | .setEngine _ => .text
  | .setEngineTag _ => .text
  | .setCode _ => .text
  | .generate => .text
  | .importText => .graph
  | .addNode _ _ _ _ => .graph
  | .connect _ _ _ => .graph
  | .relabel _ _ => .graph
  | .deleteSelected => .graph
  | .applyChanges _ => .graph
  | .restore _ => .both
  | .restoreDocument _ => .both

/-- The text of a snapshot, provided that the snapshot was read and can be taken over. -/
def loadedText? (s : Session) : Except Fault Snapshot → Option String
  | .ok snap => if (s.merged snap).Valid then some snap.diagram.code else none
  | .error _ => none

/-- The text that an operation puts in place of the one that the session has. -/
def newText? (s : Session) : Operation → Option String
  | .setEngine engine => some (s.sources.get engine)
  | .setEngineTag tag => (Engine.ofTag? tag).map s.sources.get
  | .setCode code => some code
  | .generate => some (BoxArrow.generate s.engine s.graph)
  | .importText => none
  | .addNode _ _ _ _ => none
  | .connect _ _ _ => none
  | .relabel _ _ => none
  | .deleteSelected => none
  | .applyChanges _ => none
  | .restore text => s.loadedText? (Snapshot.parse text)
  | .restoreDocument document => s.loadedText? (Snapshot.ofDocument document)

/-- The texts that a run puts in place, in order. -/
def newTexts (s : Session) : List Operation → List String
  | [] => []
  | op :: ops => (s.newText? op).toList ++ (s.step op).newTexts ops

variable {s s' : Session} {op : Operation}

/-! ### One operation -/

/-- What an operation changes. -/
structure Effect (s : Session) (op : Operation) (s' : Session) : Prop where
  /-- Operations on the text change the text, with its engine and the count. -/
  text : op.scope = .text → s' = { s with
    engine := s'.engine
    code := s'.code
    revision := s'.revision }
  /-- Operations on the graph change the graph. -/
  graph : op.scope = .graph → s' = { s with graph := s'.graph }
  code_eq : s'.code = (s.newText? op).getD s.code
  revision_eq : s'.revision = s.revision + (s.newText? op).toList.length
  sources_eq : s'.sources = s.sources

/-- What an operation changes that can be done: it puts a text in place, unless it is for the graph
alone. -/
structure Done (s : Session) (op : Operation) (s' : Session) : Prop extends Effect s op s' where
  isSome_newText? : (s.newText? op).isSome ↔ op.scope ≠ .graph

theorem Effect.unchanged (htext : s.newText? op = none) : Effect s op s where
  text _ := rfl
  graph _ := rfl
  code_eq := by simp [htext]
  revision_eq := by simp [htext]
  sources_eq := rfl

theorem Done.of_graph (hscope : op.scope = .graph) (htext : s.newText? op = none) (g : Graph) :
    Done s op { s with graph := g } where
  text h := by simp [hscope] at h
  graph _ := rfl
  code_eq := by simp [htext]
  revision_eq := by simp [htext]
  sources_eq := rfl
  isSome_newText? := by simp [hscope, htext]

theorem Done.of_text {engine : Engine} {code : String} (hscope : op.scope = .text)
    (htext : s.newText? op = some code) :
    Done s op { s with engine := engine, code := code, revision := s.revision + 1 } where
  text _ := rfl
  graph h := by simp [hscope] at h
  code_eq := by simp [htext]
  revision_eq := by simp [htext]
  sources_eq := rfl
  isSome_newText? := by simp [hscope, htext]

theorem Done.of_load {snap : Snapshot} (hscope : op.scope = .both)
    (htext : s.newText? op = s.loadedText? (.ok snap)) (hvalid : (s.merged snap).Valid) :
    Done s op (s.adopted snap) := by
  have hsome : s.newText? op = some snap.diagram.code := htext.trans (if_pos hvalid)
  exact {
    text := by simp [hscope]
    graph := by simp [hscope]
    code_eq := by simp [hsome, adopted]
    revision_eq := by simp [hsome, adopted]
    sources_eq := rfl
    isSome_newText? := by simp [hscope, hsome] }

theorem importText_eq (s : Session) : ∃ g, s.importText = { s with graph := g } := by
  rw [importText]
  split_ifs
  · exact ⟨s.graph, rfl⟩
  · exact ⟨_, rfl⟩

theorem done_of_attempt (hok : s.attempt op = .ok s') : Done s op s' := by
  rw [attempt_eq_ok] at hok
  cases op with
  | setEngine engine =>
    obtain ⟨⟩ := hok
    exact .of_text rfl rfl
  | setEngineTag tag =>
    obtain ⟨engine, htag, rfl⟩ := run_setEngineTag_eq_ok.mp hok
    exact .of_text rfl (congrArg (Option.map s.sources.get) htag)
  | setCode code =>
    obtain ⟨⟩ := hok
    exact .of_text rfl rfl
  | generate =>
    obtain ⟨⟩ := hok
    exact .of_text rfl rfl
  | importText =>
    obtain ⟨g, hg⟩ := importText_eq s
    obtain ⟨⟩ := hok
    exact hg ▸ .of_graph rfl rfl g
  | addNode label stamp across down =>
    obtain ⟨⟩ := hok
    exact .of_graph rfl rfl _
  | connect source target stamp =>
    obtain ⟨g, -, rfl⟩ := run_connect_eq_ok.mp hok
    exact .of_graph rfl rfl g
  | relabel id label =>
    obtain ⟨⟩ := hok
    exact .of_graph rfl rfl _
  | deleteSelected =>
    obtain ⟨⟩ := hok
    exact .of_graph rfl rfl _
  | applyChanges changes =>
    obtain ⟨⟩ := hok
    exact .of_graph rfl rfl _
  | restore text =>
    obtain ⟨snap, hparse, hvalid, rfl⟩ := run_importSnapshot_eq_ok.mp hok
    exact .of_load rfl (congrArg s.loadedText? hparse) hvalid
  | restoreDocument document =>
    obtain ⟨snap, hparse, hvalid, rfl⟩ := run_importDocument_eq_ok.mp hok
    exact .of_load rfl (congrArg s.loadedText? hparse) hvalid

/-- A text is loaded from every snapshot whose graph is valid. -/
theorem exists_of_loadedText?_eq_some {read : Except Fault Snapshot} {code : String}
    (h : s.loadedText? read = some code) : ∃ snap, read = .ok snap ∧ (s.merged snap).Valid := by
  cases read with
  | error fault => exact absurd h nofun
  | ok snap =>
    by_cases hvalid : (s.merged snap).Valid
    · exact ⟨snap, rfl, hvalid⟩
    · exact absurd ((if_neg hvalid).symm.trans h) nofun

/-- Whatever is said to put a text in place can be done. -/
theorem exists_attempt_of_newText? {code : String} (h : s.newText? op = some code) :
    ∃ s', s.attempt op = .ok s' := by
  simp only [attempt_eq_ok]
  cases op with
  | setEngine engine => exact ⟨_, rfl⟩
  | setEngineTag tag =>
    obtain ⟨engine, htag, -⟩ := Option.map_eq_some_iff.mp h
    exact ⟨_, run_setEngineTag_eq_ok.mpr ⟨engine, htag, rfl⟩⟩
  | setCode code => exact ⟨_, rfl⟩
  | generate => exact ⟨_, rfl⟩
  | restore text =>
    obtain ⟨snap, hparse, hvalid⟩ := exists_of_loadedText?_eq_some h
    exact ⟨_, run_importSnapshot_eq_ok.mpr ⟨snap, hparse, hvalid, rfl⟩⟩
  | restoreDocument document =>
    obtain ⟨snap, hparse, hvalid⟩ := exists_of_loadedText?_eq_some h
    exact ⟨_, run_importDocument_eq_ok.mpr ⟨snap, hparse, hvalid, rfl⟩⟩
  | importText => exact absurd h nofun
  | addNode label stamp across down => exact absurd h nofun
  | connect source target stamp => exact absurd h nofun
  | relabel id label => exact absurd h nofun
  | deleteSelected => exact absurd h nofun
  | applyChanges changes => exact absurd h nofun

/-- An operation that cannot be done puts no text in place. -/
theorem newText?_of_error {fault : Fault} (herror : s.attempt op = .error fault) :
    s.newText? op = none := by
  cases htext : s.newText? op with
  | none => rfl
  | some code =>
    obtain ⟨s', hok⟩ := exists_attempt_of_newText? htext
    rw [hok] at herror
    exact absurd herror nofun

/-- A text is put in place by those operations that are not for the graph alone and can be done. -/
theorem isSome_newText?_iff :
    (s.newText? op).isSome ↔ op.scope ≠ .graph ∧ ∃ s', s.attempt op = .ok s' := by
  cases hattempt : s.attempt op with
  | ok s' => simp [(done_of_attempt hattempt).isSome_newText?]
  | error fault => simp [newText?_of_error hattempt]

/-- Whether an operation can be done or not, it changes no more than its views. -/
theorem effect_step (s : Session) (op : Operation) : Effect s op (s.step op) := by
  cases hattempt : s.attempt op with
  | ok s' =>
    rw [step_of_ok hattempt]
    exact (done_of_attempt hattempt).toEffect
  | error fault =>
    rw [step_of_error hattempt]
    exact .unchanged (newText?_of_error hattempt)

/-! ### Whole sessions -/

/-- The text after a run is the one that was put in place last. -/
theorem code_run (s : Session) (ops : List Operation) :
    (s.run ops).code = (s.newTexts ops).getLast?.getD s.code := by
  induction ops generalizing s with
  | nil => rfl
  | cons op ops ih =>
    rw [newTexts, List.getLast?_append, run, List.foldl_cons, ← run, ih, (effect_step s op).code_eq]
    cases (s.step op).newTexts ops |>.getLast? <;> cases s.newText? op <;> rfl

/-- Every text that is put in place counts. -/
theorem revision_run (s : Session) (ops : List Operation) :
    (s.run ops).revision = s.revision + (s.newTexts ops).length := by
  induction ops generalizing s with
  | nil => rfl
  | cons op ops ih =>
    rw [newTexts, List.length_append, ← Nat.add_assoc, ← (effect_step s op).revision_eq]
    exact ih (s.step op)

theorem sources_run (s : Session) (ops : List Operation) : (s.run ops).sources = s.sources := by
  induction ops generalizing s with
  | nil => rfl
  | cons op ops ih => exact (ih (s.step op)).trans (effect_step s op).sources_eq

/-! ### What meets what, and when -/

theorem isBlank_eq_true :
    s.isBlank = true ↔ ∀ c ∈ s.code.toList, BoxArrow.isBlank c = true := by
  rw [isBlank, List.isEmpty_iff, trim_eq_nil]

/-- A label for a node that is not there changes nothing. -/
theorem relabel_of_notMem {id : String} (hid : id ∉ s.graph.nodeIds) (label : String) :
    s.relabel id label = s := by
  rw [relabel, Graph.relabel, modifyFirst_eq_self]
  intro n hn
  rw [beq_eq_false_iff_ne]
  exact fun heq => hid (List.mem_map.mpr ⟨n, hn, heq⟩)

/-- In every state that a session reaches, and for every operation there: an operation on the text
changes the text, with its engine and the count, and nothing else; one on the graph changes the
graph and nothing else. An operation that fails leaves the session as it was, and so does a label
for a node that is not there. The text is the one that was put in place last in the run, or the one
that the engine started with, and the count is that of the texts put in place, which are those of
the operations other than on the graph that could be done. Importing the text gives the graph that
it describes, unless it is blank. -/
theorem two_views_run_start (config : Config) (id : String) (now : Timestamp)
    (ops : List Operation) (op : Operation) :
    let s := (start config id now).run ops
    let texts := (start config id now).newTexts ops
    (op.scope = .text → s.step op = { s with
      engine := (s.step op).engine
      code := (s.step op).code
      revision := (s.step op).revision }) ∧
    (op.scope = .graph → s.step op = { s with graph := (s.step op).graph }) ∧
    (∀ fault left, (perform op).run s = .error fault left → left = s ∧ s.step op = s) ∧
    (∀ node label, node ∉ s.graph.nodeIds → s.step (.relabel node label) = s) ∧
    s.revision = texts.length ∧
    s.code = texts.getLast?.getD (config.sources.get config.engine) ∧
    s.sources = config.sources ∧
    ((s.newText? op).isSome ↔ op.scope ≠ .graph ∧ ∃ s', (perform op).run s = .ok () s') ∧
    ((∃ c ∈ s.code.toList, BoxArrow.isBlank c = false) →
      (s.step .importText).graph = parse s.engine s.code) ∧
    ((∀ c ∈ s.code.toList, BoxArrow.isBlank c = true) → s.step .importText = s) := by
  intro s texts
  have himport : s.step .importText = s.importText := rfl
  refine ⟨(effect_step s op).text, (effect_step s op).graph, fun fault left hrun => ?_,
    fun node label hnode => relabel_of_notMem hnode label, ?_, code_run _ ops, sources_run _ ops,
    ?_, ?_, ?_⟩
  · have herror : s.attempt op = .error fault := Procedure.outcome_eq_error.mpr ⟨left, hrun⟩
    exact ⟨(failsCleanly_perform op hrun).2, step_of_error herror⟩
  · exact (revision_run _ ops).trans (Nat.zero_add _)
  · simp only [← attempt_eq_ok]
    exact isSome_newText?_iff
  · rintro ⟨c, hc, hprinted⟩
    have hblank : ¬s.isBlank = true := by
      intro hblank
      rw [isBlank_eq_true.mp hblank c hc] at hprinted
      exact absurd hprinted nofun
    rw [himport, importText, if_neg hblank]
  · intro hblank
    rw [himport, importText, if_pos (isBlank_eq_true.mpr hblank)]

end BoxArrow.Session
