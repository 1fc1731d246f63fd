import BoxArrow.Pacing
import Mathlib.Data.List.Induction

/-!
# Paced renders over whole runs

A debouncer goes through edits, polls and results of renders in any order and at any times; times
need not even ascend. This file says what it does in terms of what has happened to it. The edit that
counts is the last one, as long as no poll has turned it into a request. It becomes a request at the
first poll that finds it rested, and the requests of a run are numbered in order, so that only the
result of the last one is passed on.

The debouncer remembers no more than one edit and one number. What ties them to the history is an
invariant, which every event keeps: the edit is the one that waits according to the history, the
number is that of the requests so far, and the edits that were requested, followed by the one that
waits, are among the recorded ones in order.

## Main definitions

* `BoxArrow.Debouncer.Event`, `BoxArrow.Debouncer.run`, `BoxArrow.Debouncer.requests` — whole runs.
* `BoxArrow.Debouncer.Waits` — the edit that waits after a history.

## Main results

* `BoxArrow.Debouncer.tracks_run_start` — what the state of a debouncer has to do with its history.
* `BoxArrow.Debouncer.poll_accept_run_start` — what polls and results give after any history.
-/

namespace BoxArrow.Debouncer

open scoped List

/-- What happens to a debouncer, with the results of renders in `α`. -/
inductive Event (α : Type) where
  | record (engine : Engine) (code : String) (now : Nat)
  | poll (now : Nat)
  | accept (ticket : Ticket) (result : α)

variable {α : Type}

/-- The text that an event records, with its engine. -/
def Event.edit? : Event α → Option (Engine × String)
  | .record engine code _ => some (engine, code)
  | .poll _ => none
  | .accept _ _ => none

/-- The debouncer after an event. Passing on a result changes nothing. -/
def step (d : Debouncer) : Event α → Debouncer
  | .record engine code now => d.record engine code now
  | .poll now => (d.poll now).1
  | .accept _ _ => d

/-- The request that an event yields. -/
def request? (d : Debouncer) : Event α → Option RenderRequest
  | .record _ _ _ => none
  | .poll now => (d.poll now).2
  | .accept _ _ => none

/-- The debouncer after a sequence of events. -/
def run (d : Debouncer) (es : List (Event α)) : Debouncer :=
  es.foldl step d

/-- The requests that a sequence of events yields, in order. -/
def requests (d : Debouncer) : List (Event α) → List RenderRequest
  | [] => []
  | e :: es => (d.request? e).toList ++ (d.step e).requests es

/-- The edit waits after a history: no edit was recorded after it, and no poll has yielded a request
since. -/
def Waits (window : Nat) (es : List (Event α)) (engine : Engine) (code : String) (made : Nat) :
    Prop :=
  ∃ before after : List (Event α), es = before ++ .record engine code made :: after ∧
    (∀ e ∈ after, e.edit? = none) ∧
    ((start window).run (before ++ [.record engine code made])).requests after = []

/-! ### One poll -/

variable {d : Debouncer} {now : Nat} {r : RenderRequest}

/-- A poll yields a request when an edit waits and has rested. -/
theorem poll_eq_some :
    (d.poll now).2 = some r ↔
      ∃ edit, d.pending = some edit ∧ edit.deadline ≤ now ∧
        r = ⟨d.sequencer.nextTicket, edit.engine, edit.code⟩ := by
  rw [poll]
  cases hpending : d.pending with
  | none => simp
  | some edit =>
    dsimp only
    split_ifs with hrested
    · simp [hrested, eq_comm]
    · simp [hrested]

/-- A poll that yields a request takes the waiting edit and issues a ticket. -/
theorem poll_of_some (h : (d.poll now).2 = some r) :
    (d.poll now).1 = { d with pending := none, sequencer := d.sequencer.issue } := by
  obtain ⟨edit, hpending, hrested, -⟩ := poll_eq_some.mp h
  rw [poll, hpending]
  simp only [hrested, if_true]

/-- A poll that yields nothing changes nothing. -/
theorem poll_of_none (h : (d.poll now).2 = none) : (d.poll now).1 = d := by
  rw [poll] at h ⊢
  cases hpending : d.pending with
  | none => rfl
  | some edit =>
    simp only [hpending] at h ⊢
    split_ifs at h ⊢ with hrested
    rfl

/-! ### One event more -/

variable {es fs : List (Event α)}

theorem run_append (d : Debouncer) (es fs : List (Event α)) :
    d.run (es ++ fs) = (d.run es).run fs :=
  List.foldl_append

theorem run_concat (d : Debouncer) (es : List (Event α)) (e : Event α) :
    d.run (es ++ [e]) = (d.run es).step e :=
  run_append d es [e]

theorem requests_append (d : Debouncer) (es fs : List (Event α)) :
    d.requests (es ++ fs) = d.requests es ++ (d.run es).requests fs := by
  induction es generalizing d with
  | nil => rfl
  | cons e es ih =>
    rw [List.cons_append, requests, requests, ih, List.append_assoc]
    rfl

theorem requests_concat (d : Debouncer) (es : List (Event α)) (e : Event α) :
    d.requests (es ++ [e]) = d.requests es ++ ((d.run es).request? e).toList := by
  rw [requests_append, requests, requests, List.append_nil]

theorem window_step (d : Debouncer) (e : Event α) : (d.step e).window = d.window := by
  cases e with
  | record engine code now => rfl
  | poll now =>
    change (d.poll now).1.window = d.window
    cases h : (d.poll now).2 with
    | none => rw [poll_of_none h]
    | some r => rw [poll_of_some h]
  | accept ticket result => rfl

theorem window_run (d : Debouncer) (es : List (Event α)) : (d.run es).window = d.window := by
  induction es generalizing d with
  | nil => rfl
  | cons e es ih => exact (ih (d.step e)).trans (window_step d e)

variable {window made : Nat} {engine : Engine} {code : String}

/-- The edit that was recorded last waits, and no other one does. -/
theorem waits_concat_record {engine' : Engine} {code' : String} {made' : Nat} :
    Waits window (es ++ [.record engine' code' made']) engine code made ↔
      engine' = engine ∧ code' = code ∧ made' = made := by
  constructor
  · rintro ⟨before, after, hes, hafter, -⟩
    cases after using List.reverseRecOn with
    | nil =>
      obtain ⟨-, hlast⟩ := List.append_inj' hes rfl
      simpa using hlast
    | append_singleton after e =>
      rw [← List.cons_append, ← List.append_assoc] at hes
      obtain ⟨-, hlast⟩ := List.append_inj' hes rfl
      obtain rfl := List.singleton_inj.mp hlast
      have hlate := hafter (.record engine' code' made') (by simp)
      exact absurd hlate nofun
  · rintro ⟨rfl, rfl, rfl⟩
    exact ⟨es, [], rfl, nofun, rfl⟩

/-- Events that record nothing leave the edit waiting exactly when they yield nothing. -/
theorem waits_concat_of_edit? {e : Event α} (he : e.edit? = none) :
    Waits window (es ++ [e]) engine code made ↔
      Waits window es engine code made ∧ ((start window).run es).request? e = none := by
  have hrun (before after : List (Event α)) :
      (start window).run (before ++ .record engine code made :: after) =
        ((start window).run (before ++ [.record engine code made])).run after := by
    rw [← run_append, List.append_assoc, List.singleton_append]
  constructor
  · rintro ⟨before, after, hes, hafter, hquiet⟩
    cases after using List.reverseRecOn with
    | nil =>
      obtain ⟨-, hlast⟩ := List.append_inj' hes rfl
      obtain rfl := List.singleton_inj.mp hlast
      exact absurd he nofun
    | append_singleton after e' =>
      rw [← List.cons_append, ← List.append_assoc] at hes
      obtain ⟨rfl, hlast⟩ := List.append_inj' hes rfl
      obtain rfl := List.singleton_inj.mp hlast
      rw [requests_concat, List.append_eq_nil_iff, Option.toList_eq_nil_iff] at hquiet
      rw [hrun]
      exact ⟨⟨before, after, rfl, fun f hf => hafter f (by simp [hf]), hquiet.1⟩, hquiet.2⟩
  · rintro ⟨⟨before, after, rfl, hafter, hquiet⟩, hnone⟩
    refine ⟨before, after ++ [e], by simp, ?_, ?_⟩
    · intro f hf
      rcases List.mem_append.mp hf with hf | hf
      · exact hafter f hf
      · exact List.mem_singleton.mp hf ▸ he
    · rw [requests_concat, hquiet, ← hrun, hnone]
      rfl

/-! ### The state and the history -/

/-- What the state of a debouncer has to do with its history. -/
structure Tracks (window : Nat) (es : List (Event α)) (d : Debouncer) : Prop where
  /-- The edit that is held waits, and its deadline is set by the time when it was made. -/
  pending_iff : ∀ edit, d.pending = some edit ↔
    ∃ made, Waits window es edit.engine edit.code made ∧ edit.deadline = made + window
  /-- As many tickets as requests have been issued. -/
  issued_eq : d.sequencer.issued = ((start window).requests es).length
  /-- Tickets were counted from one. -/
  tickets_eq : ((start window).requests es).map (·.ticket.number) =
    List.range' 1 ((start window).requests es).length
  /-- What was requested, and then what is held, was recorded in this order. -/
  edits_sublist : ((start window).requests es).map (fun r => (r.engine, r.code)) ++
    (d.pending.map fun edit => (edit.engine, edit.code)).toList <+ es.filterMap (·.edit?)

theorem tracks_start (window : Nat) : Tracks (α := α) window [] (start window) where
  pending_iff edit := by
    refine iff_of_false nofun ?_
    rintro ⟨made, ⟨before, after, hnil, -⟩, -⟩
    exact absurd hnil (by simp)
  issued_eq := rfl
  tickets_eq := rfl
  edits_sublist := List.Sublist.refl _

/-- A recorded edit takes the place of one that is held. -/
theorem Tracks.record (h : Tracks window es ((start window).run es)) :
    Tracks window (es ++ [.record engine code made])
      (((start window).run es).record engine code made) where
  pending_iff edit := by
    have hwindow : ((start window).run es).window = window := window_run _ es
    simp only [waits_concat_record, Debouncer.record, Option.some.injEq, hwindow]
    constructor
    · rintro rfl
      exact ⟨made, ⟨rfl, rfl, rfl⟩, rfl⟩
    · rintro ⟨_, ⟨rfl, rfl, rfl⟩, hdeadline⟩
      rw [← hdeadline]
  issued_eq := by
    rw [requests_concat]
    simpa [request?, Debouncer.record] using h.issued_eq
  tickets_eq := by
    rw [requests_concat]
    simpa [request?] using h.tickets_eq
  edits_sublist := by
    have hbefore := (List.sublist_append_left _ _).trans h.edits_sublist
    rw [requests_concat, List.filterMap_append]
    simpa [request?, Debouncer.record, Event.edit?] using hbefore.append_right [(engine, code)]

/-- A poll that yields a request uses up the edit that is held. -/
theorem Tracks.poll_of_some (h : Tracks window es ((start window).run es))
    (hr : (((start window).run es).poll now).2 = some r) :
    Tracks window (es ++ [.poll now]) (((start window).run es).poll now).1 := by
  have hrequest : ((start window).run es).request? (.poll (α := α) now) = some r := hr
  obtain ⟨edit, hpending, -, rfl⟩ := poll_eq_some.mp hr
  have hissued := h.issued_eq
  rw [Debouncer.poll_of_some hr]
  refine ⟨fun other => ?_, ?_, ?_, ?_⟩
  · refine iff_of_false nofun ?_
    rintro ⟨made, hwaits, -⟩
    have hnone := ((waits_concat_of_edit? rfl).mp hwaits).2
    rw [hrequest] at hnone
    exact absurd hnone nofun
  · rw [requests_concat, hrequest]
    simp [Sequencer.issue, hissued]
  · rw [requests_concat, hrequest, List.map_append, h.tickets_eq, List.length_append,
      ← List.range'_append_1]
    simp [Sequencer.nextTicket, hissued, Nat.add_comm]
  · have hedits := h.edits_sublist
    rw [hpending] at hedits
    rw [requests_concat, hrequest, List.filterMap_append]
    simpa [Event.edit?] using hedits

/-- An event that records nothing and yields nothing changes nothing. -/
theorem Tracks.of_quiet {e : Event α} (h : Tracks window es ((start window).run es))
    (he : e.edit? = none) (hquiet : ((start window).run es).request? e = none) :
    Tracks window (es ++ [e]) ((start window).run es) := by
  have hrequests : (start window).requests (es ++ [e]) = (start window).requests es := by
    rw [requests_concat, hquiet]
    exact List.append_nil _
  refine ⟨fun edit => ?_, ?_, ?_, ?_⟩
  · rw [h.pending_iff]
    simp only [waits_concat_of_edit? he, hquiet, and_true]
  · rw [hrequests]
    exact h.issued_eq
  · rw [hrequests]
    exact h.tickets_eq
  · rw [hrequests, List.filterMap_append, List.filterMap_cons_none he]
    simpa using h.edits_sublist

theorem Tracks.step (h : Tracks window es ((start window).run es)) (e : Event α) :
    Tracks window (es ++ [e]) (((start window).run es).step e) := by
  cases e with
  | record engine code now => exact h.record
  | poll now =>
    cases hr : (((start window).run es).poll now).2 with
    | some r => exact h.poll_of_some hr
    | none =>
      have hquiet := h.of_quiet (e := .poll now) rfl hr
      rwa [← poll_of_none hr] at hquiet
  | accept ticket result => exact h.of_quiet rfl rfl

/-- Whatever has happened to a debouncer, its state tells what matters of it. -/
theorem tracks_run_start (window : Nat) (es : List (Event α)) :
    Tracks window es ((start window).run es) := by
  induction es using List.reverseRecOn with
  | nil => exact tracks_start window
  | append_singleton es e ih =>
    rw [run_concat]
    exact ih.step e

/-! ### What polls and results give -/

/-- The last of the requests that were numbered from one has their count as its ticket. -/
theorem ticket_getLast? {sent : List RenderRequest} {n : Nat}
    (h : sent.map (·.ticket.number) = List.range' 1 sent.length) :
    sent.getLast?.map (·.ticket) = some ⟨n + 1⟩ ↔ n + 1 = sent.length := by
  cases sent using List.reverseRecOn with
  | nil => simp
  | append_singleton rs r =>
    rw [List.map_append, List.length_append, List.length_singleton, ← List.range'_append_1] at h
    obtain ⟨-, hlast⟩ := List.append_inj' h rfl
    have hnumber : r.ticket.number = 1 + rs.length := List.singleton_inj.mp hlast
    have hticket : r.ticket = ⟨rs.length + 1⟩ := by
      rw [Nat.add_comm, ← hnumber]
    rw [List.getLast?_concat, Option.map_some, hticket, List.length_append, List.length_singleton]
    simp [eq_comm]

/-- After any history, a poll yields a request exactly when an edit waits that has rested, and the
request is for this edit. Requests are numbered from one, and what is requested are some of the
recorded edits, in their order and none of them twice. A result is passed on exactly when its ticket
is that of the last request, whatever edit waits. -/
theorem poll_accept_run_start (window : Nat) (es : List (Event α)) :
    let d := (start window).run es
    let sent := (start window).requests es
    (∀ now r, (d.poll now).2 = some r ↔
      ∃ engine code made, Waits window es engine code made ∧ made + window ≤ now ∧
        r = ⟨⟨sent.length + 1⟩, engine, code⟩) ∧
    sent.map (·.ticket.number) = List.range' 1 sent.length ∧
    (sent.map fun r => (r.engine, r.code)) <+ es.filterMap (·.edit?) ∧
    ∀ (n : Nat) (result : α), d.accept ⟨n + 1⟩ result =
      if sent.getLast?.map (·.ticket) = some ⟨n + 1⟩ then some result else none := by
  intro d sent
  have h : Tracks window es d := tracks_run_start window es
  refine ⟨fun now r => ?_, h.tickets_eq, (List.sublist_append_left _ _).trans h.edits_sublist,
    fun n result => ?_⟩
  · rw [poll_eq_some]
    constructor
    · rintro ⟨edit, hpending, hrested, rfl⟩
      obtain ⟨made, hwaits, hdeadline⟩ := (h.pending_iff edit).mp hpending
      refine ⟨edit.engine, edit.code, made, hwaits, hdeadline ▸ hrested, ?_⟩
      rw [Sequencer.nextTicket, h.issued_eq]
    · rintro ⟨engine, code, made, hwaits, hrested, rfl⟩
      refine ⟨⟨engine, code, made + window⟩, (h.pending_iff _).mpr ⟨made, hwaits, rfl⟩, hrested, ?_⟩
      rw [Sequencer.nextTicket, h.issued_eq]
  · rw [Debouncer.accept, Sequencer.accept, Sequencer.isCurrent, h.issued_eq]
    have hlast : sent.getLast?.map (·.ticket) = some ⟨n + 1⟩ ↔ n + 1 = sent.length :=
      ticket_getLast? h.tickets_eq
    simp only [hlast, beq_iff_eq]
    rfl

end BoxArrow.Debouncer
