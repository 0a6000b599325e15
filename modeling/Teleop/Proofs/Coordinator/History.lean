import Teleop.Proofs.Coordinator.Sessions

/-!
# Histories

What the events show one after the other: the sessions that begin and what each of them
dispatches.
-/

namespace Teleop

namespace World

/-- What `look` finds in the events, each of them looked at in the world that it meets. -/
def trace {α : Type} (look : World → Event → Option α) (w : World) : List Event → List α
  | [] => []
  | e :: events => (look w e).toList ++ trace look (w.step e) events

theorem trace_append {α : Type} (look : World → Event → Option α) (w : World)
    (events more : List Event) :
    w.trace look (events ++ more) = w.trace look events ++ (w.run events).trace look more := by
  induction events generalizing w with
  | nil => rfl
  | cons e events ih =>
    rw [List.cons_append, trace, trace, ih, List.append_assoc]
    rfl

theorem trace_concat {α : Type} (look : World → Event → Option α) (w : World)
    (events : List Event) (e : Event) :
    w.trace look (events ++ [e]) = w.trace look events ++ (look (w.run events) e).toList := by
  rw [trace_append, trace, trace, List.append_nil]

theorem mem_trace {α : Type} {look : World → Event → Option α} {w : World} {events : List Event}
    {a : α} (h : a ∈ w.trace look events) :
    ∃ before e after, events = before ++ e :: after ∧ look (w.run before) e = some a := by
  induction events generalizing w with
  | nil => cases h
  | cons e events ih =>
    rcases List.mem_append.mp h with h | h
    · exact ⟨[], e, events, rfl, Option.mem_toList.mp h⟩
    · obtain ⟨before, e', after, rfl, hlook⟩ := ih h
      exact ⟨e :: before, e', after, rfl, hlook⟩

theorem run_concat (w : World) (events : List Event) (e : Event) :
    w.run (events ++ [e]) = (w.run events).step e := by
  rw [run_append]
  rfl

/-! ## Beginnings -/

/-- The connection whose handshake is done when the coordinator looks, while it may go on. -/
def opened? (w : World) (e : Event) : Option Connection :=
  match e, w.phase with
  | .coordinator, .greeting c => if w.shutdown = false ∧ c.handshake = .done then some c else none
  | _, _ => none

variable {w : World} {n : Nat} {e : Event}

theorem opened?_eq_some {c : Connection} :
    w.opened? e = some c ↔
      e = .coordinator ∧ w.phase = .greeting c ∧ w.shutdown = false ∧ c.handshake = .done := by
  unfold opened?
  split
  · rename_i c' hphase
    constructor
    · intro h
      split at h
      · rename_i hdone
        obtain rfl := Option.some.inj h
        exact ⟨rfl, hphase, hdone⟩
      · cases h
    · rintro ⟨-, hc, hdone⟩
      rw [hphase] at hc
      obtain rfl := CoordinatorPhase.greeting.inj hc
      rw [if_pos hdone]
  · rename_i hno
    constructor
    · intro h
      cases h
    · rintro ⟨he, hphase, -⟩
      exact absurd hphase (hno c he)

theorem sessions_of_opened {c : Connection} (h : w.opened? e = some c) :
    (w.step e).sessions = w.sessions ++ [.start c] := by
  obtain ⟨rfl, hphase, hdown, hdone⟩ := opened?_eq_some.mp h
  rw [step, coordinate, hphase]
  simp [hdown, hdone, sessions, hphase, CoordinatorPhase.session?]

theorem connections_of_set {s s' : LiveSession} (hs : w.session? n = some s)
    (hsame : s'.connection = s.connection) :
    (w.sessions.set n s').map LiveSession.connection =
      w.sessions.map LiveSession.connection := by
  rw [session?_eq_getElem?] at hs
  obtain ⟨hlt, rfl⟩ := List.getElem?_eq_some_iff.mp hs
  have hlt' : n < (w.sessions.map LiveSession.connection).length := by simpa using hlt
  have hself := List.set_getElem_self hlt'
  rw [List.getElem_map] at hself
  rw [List.map_set, hsame, hself]

theorem connections_of_not_opened (h : w.opened? e = none) :
    (w.step e).sessions.map LiveSession.connection = w.sessions.map LiveSession.connection := by
  have hmove := sessionsMove_step w e
  generalize (w.step e).sessions = l at hmove ⊢
  cases hmove with
  | same => rfl
  | opens hphase hdown hdone =>
    rw [opened?_eq_some.mpr ⟨rfl, hphase, hdown, hdone⟩] at h
    cases h
  | steers hon hsteer => exact connections_of_set (session?_on hon) hsteer.connection_eq
  | task hs hmove => exact connections_of_set hs hmove.connection_eq

theorem opened_of_new {s' : LiveSession} (h : w.session? n = none)
    (hs' : (w.step e).session? n = some s') :
    ∃ c, w.opened? e = some c ∧ n = w.sessions.length ∧ s' = .start c := by
  rw [session?_eq_getElem?] at h hs'
  have hge := List.getElem?_eq_none_iff.mp h
  have hlt := (List.getElem?_eq_some_iff.mp hs').1
  cases hopened : w.opened? e with
  | none =>
    have hlength := congrArg List.length (connections_of_not_opened hopened)
    rw [List.length_map, List.length_map] at hlength
    omega
  | some c =>
    rw [sessions_of_opened hopened] at hs' hlt
    obtain rfl : n = w.sessions.length := by
      rw [List.length_append, List.length_singleton] at hlt
      omega
    rw [List.getElem?_concat_length] at hs'
    exact ⟨c, rfl, rfl, (Option.some.inj hs').symm⟩

theorem connections_step (w : World) (e : Event) :
    (w.step e).sessions.map LiveSession.connection =
      w.sessions.map LiveSession.connection ++ (w.opened? e).toList.map Connection.id := by
  cases h : w.opened? e with
  | none => rw [connections_of_not_opened h, Option.toList_none, List.map_nil, List.append_nil]
  | some c =>
    rw [sessions_of_opened h, List.map_append]
    rfl

theorem connections_run (w : World) (events : List Event) :
    (w.run events).sessions.map LiveSession.connection =
      w.sessions.map LiveSession.connection ++ (w.trace opened? events).map Connection.id := by
  induction events generalizing w with
  | nil => simp [run, trace]
  | cons e events ih =>
    change ((w.step e).run events).sessions.map _ = _
    rw [ih, connections_step, trace, List.map_append, List.append_assoc]

theorem length_sessions_run (w : World) (events : List Event) :
    (w.run events).sessions.length = w.sessions.length + (w.trace opened? events).length := by
  simpa using congrArg List.length (connections_run w events)

/-! ## Dispatches -/

end World

def LiveSession.dispatch? (s : LiveSession) (w : World) : Option Dispatch :=
  match s.command with
  | .running run _ => run.dispatch? (w.engineOf s)
  | _ => none

namespace World

/-- What the session with number `n` dispatches in an event. -/
def dispatch? (n : Nat) (w : World) (e : Event) : Option Dispatch :=
  match e with
  | .task m .command .run => if m = n then (w.session? n).bind fun s => s.dispatch? w else none
  | _ => none

variable {w : World} {n : Nat} {e : Event}

theorem dispatch?_of_none (h : w.session? n = none) (e : Event) : w.dispatch? n e = none := by
  unfold dispatch?
  split
  · rw [h]
    split <;> rfl
  · rfl

theorem dispatch?_of_over {s : LiveSession} (h : w.session? n = some s)
    (hover : s.command.isLive = false) (e : Event) : w.dispatch? n e = none := by
  have hnone : s.dispatch? w = none := by
    unfold LiveSession.dispatch?
    split
    · rename_i htask
      rw [htask] at hover
      cases hover
    · rfl
  unfold dispatch?
  split
  · rw [h]
    split
    · exact hnone
    · rfl
  · rfl

theorem dispatch?_of_past (h : w.InOrder) (hn : n < w.past.length) (e : Event) :
    w.dispatch? n e = none :=
  dispatch?_of_over (session?_of_lt hn) (h.past _ (List.getElem_mem hn)).command e

def dispatches (n : Nat) (w : World) (events : List Event) : List Dispatch :=
  w.trace (dispatch? n) events

def motions (n : Nat) (w : World) (events : List Event) : List DriveCall :=
  (w.dispatches n events).flatMap Dispatch.calls

end World

end Teleop
