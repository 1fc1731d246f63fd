import BoxArrow.Procedure
import Mathlib.Logic.Basic

/-!
# Procedures that fail cleanly

A procedure *fails cleanly* with errors of some kind when each of its failing runs ends with such an
error and leaves the state as it was. Two orders of steps make it so. A procedure can first look and
check, which changes nothing, and then go on with one that fails cleanly. And it can begin with one
that fails cleanly, and then go on with steps that never fail, which may change what they like.
Writing first and checking then is not among them.

## Main definitions

* `BoxArrow.Procedure.FailsCleanly`, `BoxArrow.Procedure.NeverFails`.
* `BoxArrow.Procedure.Keeps` — procedures that change nothing as long as they succeed.

## Main results

* `BoxArrow.Procedure.FailsCleanly.bind_of_keeps`, `BoxArrow.Procedure.FailsCleanly.bind_of_never`
  — the two orders.
* `BoxArrow.Procedure.FailsCleanly.onPart` — failing cleanly on a part of a state.
* `BoxArrow.Procedure.FailsCleanly.left_eq` — what is left then.
-/

namespace BoxArrow.Procedure

variable {ε ε' σ τ α β : Type} {P Q : ε → Prop} {p : Procedure ε σ α} {f : α → Procedure ε σ β}
  {r : Except ε α} {s s' s'' : σ} {e : ε} {a : α} {b : β}

/-! ### What comes of a run -/

theorem outcome_eq_ok : p.outcome s = .ok s' ↔ ∃ a, p.run s = .ok a s' := by
  rw [outcome]
  cases p.run s <;> simp

theorem outcome_eq_error : p.outcome s = .error e ↔ ∃ s', p.run s = .error e s' := by
  rw [outcome]
  cases p.run s <;> simp

theorem left_of_outcome_eq_ok (h : p.outcome s = .ok s') : p.left s = s' := by
  obtain ⟨a, ha⟩ := outcome_eq_ok.mp h
  rw [left, ha]

theorem run_bind_eq_ok :
    (p >>= f).run s = .ok b s'' ↔ ∃ a s', p.run s = .ok a s' ∧ (f a).run s' = .ok b s'' := by
  rw [EStateM.run_bind]
  cases p.run s with
  | ok a s' =>
    refine ⟨fun h => ⟨a, s', rfl, h⟩, ?_⟩
    rintro ⟨_, _, ⟨⟩, h⟩
    exact h
  | error e s' => simp

/-- A procedure fails in its first part, or in its second one after what the first one did. -/
theorem run_bind_eq_error :
    (p >>= f).run s = .error e s'' ↔
      p.run s = .error e s'' ∨ ∃ a s', p.run s = .ok a s' ∧ (f a).run s' = .error e s'' := by
  rw [EStateM.run_bind]
  cases p.run s with
  | ok a s' =>
    refine ⟨fun h => .inr ⟨a, s', rfl, h⟩, ?_⟩
    rintro (⟨⟨⟩⟩ | ⟨_, _, ⟨⟩, h⟩)
    exact h
  | error e' s' => simp

theorem run_liftExcept_eq_ok :
    (liftExcept r : Procedure ε σ α).run s = .ok a s' ↔ r = .ok a ∧ s' = s := by
  cases r with
  | error e => exact iff_of_false nofun nofun
  | ok x =>
    change EStateM.Result.ok x s = EStateM.Result.ok a s' ↔ _
    simp [eq_comm]

theorem run_liftExcept_eq_error :
    (liftExcept r : Procedure ε σ α).run s = .error e s' ↔ r = .error e ∧ s' = s := by
  cases r with
  | error e' =>
    change EStateM.Result.error e' s = EStateM.Result.error e s' ↔ _
    simp [eq_comm]
  | ok x => exact iff_of_false nofun nofun

/-- A check is passed before the rest of a procedure is run on the same state. -/
theorem run_liftExcept_bind_eq_ok :
    ((liftExcept r : Procedure ε σ α) >>= f).run s = .ok b s' ↔
      ∃ a, r = .ok a ∧ (f a).run s = .ok b s' := by
  simp only [run_bind_eq_ok, run_liftExcept_eq_ok]
  constructor
  · rintro ⟨a, _, ⟨ha, rfl⟩, hrun⟩
    exact ⟨a, ha, hrun⟩
  · rintro ⟨a, ha, hrun⟩
    exact ⟨a, s, ⟨ha, rfl⟩, hrun⟩

/-! ### Failing cleanly -/

/-- Whenever the procedure fails, its error is one of these, and the state is left as it was. -/
def FailsCleanly (P : ε → Prop) (p : Procedure ε σ α) : Prop :=
  ∀ ⦃s e s'⦄, p.run s = .error e s' → P e ∧ s' = s

/-- The procedure succeeds in every state. -/
def NeverFails (p : Procedure ε σ α) : Prop :=
  p.FailsCleanly fun _ => False

/-- Whenever the procedure succeeds, the state is left as it was. -/
def Keeps (p : Procedure ε σ α) : Prop :=
  ∀ ⦃s a s'⦄, p.run s = .ok a s' → s' = s

theorem FailsCleanly.mono (h : p.FailsCleanly P) (hPQ : ∀ e, P e → Q e) : p.FailsCleanly Q :=
  fun _ _ _ hrun => (h hrun).imp_left (hPQ _)

theorem NeverFails.failsCleanly (h : p.NeverFails) (P : ε → Prop) : p.FailsCleanly P :=
  h.mono fun _ => False.elim

/-- After a procedure that fails cleanly and otherwise keeps the state, nothing has been changed
yet. -/
theorem FailsCleanly.bind_of_keeps (h : p.FailsCleanly P) (hkeeps : p.Keeps)
    (hf : ∀ a, (f a).FailsCleanly P) : (p >>= f).FailsCleanly P := by
  intro s e s'' hrun
  rcases run_bind_eq_error.mp hrun with hp | ⟨a, s', hp, hfa⟩
  · exact h hp
  · obtain rfl := hkeeps hp
    exact hf a hfa

/-- Steps that never fail may follow, whatever they change. -/
theorem FailsCleanly.bind_of_never (h : p.FailsCleanly P) (hf : ∀ a, (f a).NeverFails) :
    (p >>= f).FailsCleanly P := by
  intro s e s'' hrun
  rcases run_bind_eq_error.mp hrun with hp | ⟨a, s', hp, hfa⟩
  · exact h hp
  · exact (hf a hfa).1.elim

theorem NeverFails.bind (h : p.NeverFails) (hf : ∀ a, (f a).NeverFails) : (p >>= f).NeverFails :=
  FailsCleanly.bind_of_never h hf

theorem neverFails_pure (a : α) : (pure a : Procedure ε σ α).NeverFails :=
  nofun

theorem neverFails_get : (get : Procedure ε σ σ).NeverFails :=
  nofun

theorem keeps_get : (get : Procedure ε σ σ).Keeps := by
  rintro s a s' ⟨⟩
  rfl

theorem neverFails_modify (g : σ → σ) : (modify g : Procedure ε σ Unit).NeverFails :=
  nofun

theorem neverFails_forM {o : Option α} {f : α → Procedure ε σ Unit} (hf : ∀ a, (f a).NeverFails) :
    (o.forM f).NeverFails := by
  cases o with
  | none => exact neverFails_pure ()
  | some a => exact hf a

theorem failsCleanly_liftExcept (h : ∀ e, r = .error e → P e) :
    (liftExcept r : Procedure ε σ α).FailsCleanly P := by
  intro s e s' hrun
  obtain ⟨hr, hs⟩ := run_liftExcept_eq_error.mp hrun
  exact ⟨h e hr, hs⟩

theorem keeps_liftExcept (r : Except ε α) : (liftExcept r : Procedure ε σ α).Keeps :=
  fun _ _ _ hrun => (run_liftExcept_eq_ok.mp hrun).2

/-- A check comes before everything else. -/
theorem failsCleanly_liftExcept_bind (hr : ∀ e, r = .error e → P e)
    (hf : ∀ a, (f a).FailsCleanly P) :
    ((liftExcept r : Procedure ε σ α) >>= f).FailsCleanly P :=
  (failsCleanly_liftExcept hr).bind_of_keeps (keeps_liftExcept r) hf

/-- A procedure that looks at the state first. -/
theorem failsCleanly_get_bind {f : σ → Procedure ε σ β} (hf : ∀ s, (f s).FailsCleanly P) :
    ((get : Procedure ε σ σ) >>= f).FailsCleanly P :=
  (neverFails_get.failsCleanly P).bind_of_keeps keeps_get hf

section Check

variable {check : σ → Except ε α}

/-- A procedure that begins with a check of the state. -/
theorem failsCleanly_check_bind (hcheck : ∀ s e, check s = .error e → P e)
    (hf : ∀ a, (f a).FailsCleanly P) :
    ((get : Procedure ε σ σ) >>= fun s => liftExcept (check s) >>= f).FailsCleanly P :=
  failsCleanly_get_bind fun s => failsCleanly_liftExcept_bind (hcheck s) hf

theorem run_check_bind_of_ok (h : check s = .ok a) :
    ((get : Procedure ε σ σ) >>= fun s => liftExcept (check s) >>= f).run s = (f a).run s := by
  rw [EStateM.run_bind, EStateM.run_get]
  dsimp only
  rw [h]
  rfl

theorem run_check_bind_of_error (h : check s = .error e) :
    ((get : Procedure ε σ σ) >>= fun s => liftExcept (check s) >>= f).run s = .error e s := by
  rw [EStateM.run_bind, EStateM.run_get]
  dsimp only
  rw [h]
  rfl

theorem run_check_bind_eq_ok :
    ((get : Procedure ε σ σ) >>= fun s => liftExcept (check s) >>= f).run s = .ok b s' ↔
      ∃ a, check s = .ok a ∧ (f a).run s = .ok b s' := by
  cases hcheck : check s with
  | ok a => simp [run_check_bind_of_ok hcheck]
  | error e => simp [run_check_bind_of_error hcheck]

end Check

section Part

variable {part : τ → σ} {put : τ → σ → τ} {fault : ε → ε'} {t t' : τ}

theorem run_onPart_eq_ok :
    (p.onPart part put fault).run t = .ok a t' ↔
      ∃ s, p.run (part t) = .ok a s ∧ t' = put t s := by
  rw [EStateM.run, onPart]
  cases p.run (part t) with
  | ok x s =>
    constructor
    · rintro ⟨⟩
      exact ⟨s, rfl, rfl⟩
    · rintro ⟨_, ⟨⟩, rfl⟩
      rfl
  | error e s => simp

theorem run_onPart_eq_error {e' : ε'} :
    (p.onPart part put fault).run t = .error e' t' ↔
      ∃ e s, p.run (part t) = .error e s ∧ e' = fault e ∧ t' = put t s := by
  rw [EStateM.run, onPart]
  cases p.run (part t) with
  | ok x s => simp
  | error e s =>
    constructor
    · rintro ⟨⟩
      exact ⟨e, s, rfl, rfl, rfl⟩
    · rintro ⟨_, _, ⟨⟩, rfl, rfl⟩
      rfl

/-- What fails cleanly on a part of a state does so on the whole, provided that putting back what
was there changes nothing. -/
theorem FailsCleanly.onPart (h : p.FailsCleanly P) (hput : ∀ t, put t (part t) = t) :
    (p.onPart part put fault).FailsCleanly fun e' => ∃ e, P e ∧ e' = fault e := by
  intro t e' t' hrun
  obtain ⟨e, s, hp, rfl, rfl⟩ := run_onPart_eq_error.mp hrun
  obtain ⟨he, rfl⟩ := h hp
  exact ⟨⟨e, he, rfl⟩, hput t⟩

end Part

/-- A failure that is clean leaves nothing behind. -/
theorem FailsCleanly.left_eq (h : p.FailsCleanly P) (herror : p.outcome s = .error e) :
    p.left s = s := by
  obtain ⟨s', hrun⟩ := outcome_eq_error.mp herror
  rw [left, hrun]
  exact (h hrun).2

end BoxArrow.Procedure
