import BoxArrow.Proofs.Described
import BoxArrow.Proofs.Edits
import BoxArrow.Proofs.SnapshotImport

/-!
# The graph of a session is always valid

Whatever is done to a session, and in whatever order, its graph stays valid. Texts and edits give
valid graphs by themselves. A snapshot may replace the nodes without the edges or the other way
round, and is turned away when the two do not fit. Operations that fail leave the session as it was.

## Main results

* `BoxArrow.Session.failsCleanly_perform` — an operation that fails leaves everything as it was.
* `BoxArrow.Session.valid_attempt` — one operation, by kind.
* `BoxArrow.Session.valid_run` — any number of operations on a session with a valid graph.
* `BoxArrow.Session.firstFault_run_start`, `BoxArrow.Session.Reachable.valid` — every state that a
  session reaches.
-/

namespace BoxArrow.Session

variable {s s' : Session} {op : Operation}

/-! ### Operations that fail -/

/-- The tag is read before the session is changed. -/
theorem failsCleanly_setEngineTag (tag : String) :
    (setEngineTag tag).FailsCleanly (· = .unsupportedEngine tag) := by
  refine Procedure.failsCleanly_liftExcept_bind (fun e he => ?_) fun engine =>
    (Procedure.neverFails_modify _).failsCleanly _
  rw [Engine.ofTag] at he
  cases htag : Engine.ofTag? tag with
  | some engine => simp [htag] at he
  | none =>
    rw [htag] at he
    exact (Except.error.inj he).symm

theorem failsCleanly_connect (source target : String) (stamp : Nat) :
    (connect source target stamp).FailsCleanly fun fault =>
      ∃ e, (∃ id, e = .unknownNode id) ∧ fault = .graph e :=
  (Graph.failsCleanly_drawEdge source target stamp).onPart fun _ => rfl

/-- The faults that an operation can fail with. -/
def Operation.Raises : Operation → Fault → Prop
  | .setEngineTag tag, fault => fault = .unsupportedEngine tag
  | .connect _ _ _, fault => ∃ e, (∃ id, e = .unknownNode id) ∧ fault = .graph e
  | .restore _, fault => fault.IsInvalidFormat
  | .restoreDocument _, fault => fault.IsInvalidFormat
  | _, _ => False

/-- Every operation that fails leaves the session as it was: it changes nothing before the last of
its checks. -/
theorem failsCleanly_perform (op : Operation) : (perform op).FailsCleanly op.Raises := by
  cases op with
  | setEngineTag tag => exact failsCleanly_setEngineTag tag
  | connect source target stamp => exact failsCleanly_connect source target stamp
  | restore text => exact failsCleanly_importSnapshot text
  | restoreDocument document => exact failsCleanly_importDocument document
  | setEngine engine => exact Procedure.neverFails_modify _
  | setCode code => exact Procedure.neverFails_modify _
  | importText => exact Procedure.neverFails_modify _
  | generate => exact Procedure.neverFails_modify _
  | addNode label stamp across down => exact Procedure.neverFails_modify _
  | relabel id label => exact Procedure.neverFails_modify _
  | deleteSelected => exact Procedure.neverFails_modify _
  | applyChanges changes => exact Procedure.neverFails_modify _

theorem step_of_error {fault : Fault} (herror : s.attempt op = .error fault) : s.step op = s :=
  (failsCleanly_perform op).left_eq herror

/-! ### Operations that can be done -/

theorem step_of_ok (hok : s.attempt op = .ok s') : s.step op = s' :=
  Procedure.left_of_outcome_eq_ok hok

theorem attempt_eq_ok : s.attempt op = .ok s' ↔ (perform op).run s = .ok () s' :=
  Procedure.outcome_eq_ok.trans ⟨fun ⟨_, hrun⟩ => hrun, fun hrun => ⟨(), hrun⟩⟩

theorem run_setEngineTag_eq_ok {tag : String} :
    (setEngineTag tag).run s = .ok () s' ↔
      ∃ engine, Engine.ofTag? tag = some engine ∧ s' = s.setEngine engine := by
  rw [setEngineTag, Procedure.run_liftExcept_bind_eq_ok, Engine.ofTag]
  cases Engine.ofTag? tag with
  | none => simp
  | some engine => simp [eq_comm]

theorem run_connect_eq_ok {source target : String} {stamp : Nat} :
    (connect source target stamp).run s = .ok () s' ↔
      ∃ g, s.graph.connect source target stamp = .ok g ∧ s' = { s with graph := g } := by
  rw [connect, Procedure.run_onPart_eq_ok]
  simp only [Graph.run_drawEdge_eq_ok, Graph.connect_eq_ok]

theorem valid_importText (h : s.graph.Valid) : s.importText.graph.Valid := by
  rw [importText]
  split_ifs
  · exact h
  · exact valid_parse s.engine s.code

/-- An operation that can be done leads from a valid graph to a valid graph. A snapshot is taken over
only when its arrays fit, with those it lacks taken from the session. -/
theorem valid_attempt (h : s.graph.Valid) (hok : s.attempt op = .ok s') : s'.graph.Valid := by
  rw [attempt_eq_ok] at hok
  cases op with
  | setEngine engine =>
    obtain ⟨⟩ := hok
    exact h
  | setEngineTag tag =>
    obtain ⟨engine, -, rfl⟩ := run_setEngineTag_eq_ok.mp hok
    exact h
  | setCode code =>
    obtain ⟨⟩ := hok
    exact h
  | importText =>
    obtain ⟨⟩ := hok
    exact valid_importText h
  | generate =>
    obtain ⟨⟩ := hok
    exact h
  | addNode label stamp across down =>
    obtain ⟨⟩ := hok
    exact Graph.valid_addNode h _ _ _ _
  | connect source target stamp =>
    obtain ⟨g, hg, rfl⟩ := run_connect_eq_ok.mp hok
    exact Graph.valid_connect h hg
  | relabel id label =>
    obtain ⟨⟩ := hok
    exact Graph.valid_relabel h id label
  | deleteSelected =>
    obtain ⟨⟩ := hok
    exact Graph.valid_deleteSelected h
  | applyChanges changes =>
    obtain ⟨⟩ := hok
    exact Graph.valid_applyChanges h changes
  | restore text =>
    obtain ⟨snap, -, hvalid, rfl⟩ := run_importSnapshot_eq_ok.mp hok
    exact hvalid
  | restoreDocument document =>
    obtain ⟨snap, -, hvalid, rfl⟩ := run_importDocument_eq_ok.mp hok
    exact hvalid

theorem valid_step (h : s.graph.Valid) (op : Operation) : (s.step op).graph.Valid := by
  cases hattempt : s.attempt op with
  | ok s' =>
    rw [step_of_ok hattempt]
    exact valid_attempt h hattempt
  | error fault =>
    rw [step_of_error hattempt]
    exact h

/-! ### Whole sessions -/

/-- Operations in any number and order keep the graph valid. -/
theorem valid_run (h : s.graph.Valid) (ops : List Operation) : (s.run ops).graph.Valid := by
  induction ops generalizing s with
  | nil => exact h
  | cons op ops ih => exact ih (valid_step h op)

/-- In every state that a session reaches, nothing is wrong with its graph: node ids are distinct,
and the ends of every edge are nodes. -/
theorem firstFault_run_start (config : Config) (id : String) (now : Timestamp)
    (ops : List Operation) :
    ((start config id now).run ops).graph.firstFault = none ∧
      ((start config id now).run ops).graph.Valid := by
  have hvalid := valid_run (s := start config id now) Graph.valid_empty ops
  exact ⟨Graph.firstFault_eq_none.mpr hvalid, hvalid⟩

/-- The session has come, by operations of any kind, from one that was started. -/
def Reachable (s : Session) : Prop :=
  ∃ (config : Config) (id : String) (now : Timestamp) (ops : List Operation),
    s = (start config id now).run ops

theorem Reachable.valid (h : s.Reachable) : s.graph.Valid := by
  obtain ⟨config, id, now, ops, rfl⟩ := h
  exact valid_run Graph.valid_empty ops

end BoxArrow.Session
