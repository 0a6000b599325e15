import Teleop.Proofs.Coordinator.Moves
import Teleop.Proofs.Session.Dispatches

/-!
# The sessions of a world

All sessions in the order in which they began, the ones that are over and the one that is on. A
session is over only when its command task is, and when nobody is left that it turns away.
-/

namespace Teleop

/-- Nobody is left on the control side of a session. -/
structure LiveSession.Deserted (s : LiveSession) : Prop where
  command : s.command.isLive = false
  rejections : s.rejections = []

namespace World

/-- A world in which nothing has happened yet. -/
def opening (speed : Speed) (drive : Drive) (studio : Studio) : World := { speed, drive, studio }

def sessions (w : World) : List LiveSession := w.past ++ w.phase.session?.toList

variable {w w' : World} {n : Nat} {s s' : LiveSession}

theorem session?_eq_getElem? (w : World) (n : Nat) : w.session? n = w.sessions[n]? := by
  unfold session? sessions
  split
  · rw [List.getElem?_append_left ‹_›]
  · rename_i hlt
    rw [List.getElem?_append_right (Nat.le_of_not_lt hlt)]
    split
    · rename_i heq
      subst heq
      cases w.phase.session? <;> simp
    · rename_i hne
      cases w.phase.session? with
      | none => simp
      | some s =>
        rw [Option.toList_some, List.getElem?_eq_none]
        rw [List.length_singleton]
        omega

theorem lt_length_sessions (h : w.session? n = some s) : n < w.sessions.length := by
  rw [session?_eq_getElem?] at h
  exact (List.getElem?_eq_some_iff.mp h).1

theorem sessions_of_phase (h : w.phase.session? = some s) : w.sessions = w.past ++ [s] := by
  rw [sessions, h]
  rfl

theorem length_sessions_of_off (h : w.phase.session? = none) :
    w.sessions.length = w.past.length := by
  rw [sessions, h, Option.toList_none, List.append_nil]

theorem length_past_le_sessions (w : World) : w.past.length ≤ w.sessions.length := by
  rw [sessions, List.length_append]
  omega

theorem session?_on (h : w.phase.session? = some s) : w.session? w.past.length = some s := by
  rw [session?, if_neg (Nat.lt_irrefl _), if_pos rfl, h]

theorem session?_of_lt (h : n < w.past.length) : w.session? n = some w.past[n] := by
  rw [session?, if_pos h, List.getElem?_eq_getElem h]

theorem session?_withSession {p : CoordinatorPhase} (h : p.session? = some s) (s' : LiveSession) :
    (p.withSession s').session? = some s' := by
  cases p <;> simp_all [CoordinatorPhase.session?, CoordinatorPhase.withSession]

theorem Replaces.past_or_on (hw : w.Replaces n s' w') (hs : w.session? n = some s) :
    (n < w.past.length ∧ s ∈ w.past ∧ w'.past = w.past.set n s' ∧ w'.phase = w.phase) ∨
      (n = w.past.length ∧ w.phase.session? = some s ∧ w'.past = w.past ∧
        w'.phase = w.phase.withSession s') := by
  have hpast := hw.past
  have hphase := hw.phase
  unfold putSession at hpast hphase
  rcases session?_eq_some hs with ⟨hn, hmem⟩ | ⟨rfl, hon⟩
  · rw [if_pos hn] at hpast hphase
    exact Or.inl ⟨hn, List.mem_of_getElem? hmem, hpast, hphase⟩
  · rw [if_neg (Nat.lt_irrefl _)] at hpast hphase
    exact Or.inr ⟨rfl, hon, hpast, hphase⟩

theorem Replaces.sessions_eq (hw : w.Replaces n s' w') (hs : w.session? n = some s) :
    w'.sessions = w.sessions.set n s' := by
  rcases hw.past_or_on hs with ⟨hn, -, hpast, hphase⟩ | ⟨rfl, hon, hpast, hphase⟩
  · rw [sessions, sessions, hpast, hphase, List.set_append_left _ _ hn]
  · rw [sessions, sessions, hpast, hphase, session?_withSession hon, hon]
    simp

theorem Replaces.length_past (hw : w.Replaces n s' w') (hs : w.session? n = some s) :
    w'.past.length = w.past.length := by
  rcases hw.past_or_on hs with ⟨-, -, hpast, -⟩ | ⟨-, -, hpast, -⟩
  · rw [hpast, List.length_set]
  · rw [hpast]

end World

/-! ## What an event does to the sessions -/

/-- What the coordinator does to the session that is on. -/
inductive Steering (w : World) (s : LiveSession) : Event → LiveSession → Prop where
  | aborts (hdown : w.shutdown = true) :
    Steering w s .coordinator { s with command := s.command.abort }
  | dismisses (hover : s.command.isLive = false) : Steering w s .coordinator (World.dismiss s)
  | turnsAway {c : Connection} {rest : List Connection} (hphase : w.phase = .serving s)
      (hdown : w.shutdown = false) (hlive : s.command.isLive = true)
      (hwaiting : w.control.waiting = c :: rest) :
    Steering w s .coordinator { s with rejections := s.rejections ++ [.start (.of c)] }
  | reaps (hlive : s.command.isLive = true) :
    Steering w s .coordinator { s with rejections := s.rejections.filter Task.isLive }
  | closes (hphase : w.phase = .dismissing s) (hover : s.rejections.any Task.isLive = false) :
    Steering w s .coordinator { s with rejections := [], state := s.state.close }
  | givesUp (hlive : s.image.isLive = true) :
    Steering w s .graceExpires { s with image := s.image.abort }

/-- What an event does to the list of the sessions. -/
inductive SessionsMove (w : World) : Event → List LiveSession → Prop where
  | same {e : Event} : SessionsMove w e w.sessions
  | opens {c : Connection} (hphase : w.phase = .greeting c) (hdown : w.shutdown = false)
      (hdone : c.handshake = .done) :
    SessionsMove w .coordinator (w.sessions ++ [.start c])
  | steers {e : Event} {s s' : LiveSession} (hon : w.phase.session? = some s)
      (hsteer : Steering w s e s') :
    SessionsMove w e (w.sessions.set w.past.length s')
  | task {n : Nat} {name : TaskName} {fate : TaskFate} {s s' : LiveSession} {d : Drive}
      (hs : w.session? n = some s) (hmove : TaskMove w s name fate s' d) :
    SessionsMove w (.task n name fate) (w.sessions.set n s')

namespace World

theorem sessions_set_on {w : World} {s : LiveSession} (h : w.phase.session? = some s)
    (s' : LiveSession) : w.sessions.set w.past.length s' = w.past ++ [s'] := by
  rw [sessions_of_phase h]
  simp

theorem sessionsMove_steers {w w' : World} {e : Event} {s s' : LiveSession}
    (hon : w.phase.session? = some s) (hsteer : Steering w s e s')
    (hpast : w'.past ++ w'.phase.session?.toList = w.past ++ [s']) :
    SessionsMove w e w'.sessions := by
  rw [sessions, hpast, ← sessions_set_on hon]
  exact .steers hon hsteer

theorem sessionsMove_coordination {w w' : World} (h : Coordination w w') :
    SessionsMove w .coordinator w'.sessions := by
  have hsame (hpast : w'.sessions = w.sessions) : SessionsMove w .coordinator w'.sessions :=
    hpast ▸ .same
  cases h with
  | waits => exact .same
  | stops hphase => exact hsame (by simp [sessions, hphase, CoordinatorPhase.session?])
  | takes hphase => exact hsame (by simp [sessions, hphase, CoordinatorPhase.session?])
  | drops hphase => exact hsame (by simp [sessions, hphase, CoordinatorPhase.session?])
  | concludes hphase =>
    exact hsame (by simp [sessions, conclude, hphase, CoordinatorPhase.session?])
  | @opens c hphase hdown hdone =>
    have hsessions : w.sessions ++ [.start c] = w.past ++ [.start c] := by
      simp [sessions, hphase, CoordinatorPhase.session?]
    rw [sessions, CoordinatorPhase.session?, Option.toList_some, ← hsessions]
    exact .opens hphase hdown hdone
  | joins hphase hdown =>
    exact sessionsMove_steers (by rw [hphase]; rfl) (.aborts hdown) rfl
  | dismisses hphase hover =>
    refine sessionsMove_steers ?_ (.dismisses hover) rfl
    rcases hphase with hphase | hphase <;> rw [hphase] <;> rfl
  | turnsAway hphase hdown hlive hwaiting =>
    exact sessionsMove_steers (by rw [hphase]; rfl) (.turnsAway hphase hdown hlive hwaiting) rfl
  | reaps hphase hlive =>
    exact sessionsMove_steers (by rw [hphase]; rfl) (.reaps hlive) rfl
  | drains hphase hover =>
    exact sessionsMove_steers (by rw [hphase]; rfl) (.closes hphase hover) rfl

theorem sessionsMove_step (w : World) (e : Event) : SessionsMove w e (w.step e).sessions := by
  have hmove := move_step w e
  generalize w.step e = w' at hmove ⊢
  cases hmove with
  | coordinates h => exact sessionsMove_coordination h
  | givesUp hphase hlive =>
    exact sessionsMove_steers (by rw [hphase]; rfl) (.givesUp hlive)
      (List.append_nil _)
  | task hs hmove hw =>
    rw [hw.sessions_eq hs]
    exact .task hs hmove
  | _ => exact .same

theorem session?_step {w : World} {e : Event} {n : Nat} {s' : LiveSession}
    (h : (w.step e).session? n = some s') :
    w.session? n = some s' ∨
      (∃ c, e = .coordinator ∧ w.phase = .greeting c ∧ n = w.sessions.length ∧ s' = .start c) ∨
      (∃ s, w.session? n = some s ∧ n = w.past.length ∧ w.phase.session? = some s ∧
        Steering w s e s') ∨
      ∃ s name fate d, w.session? n = some s ∧ e = .task n name fate ∧
        TaskMove w s name fate s' d := by
  have hmove := sessionsMove_step w e
  rw [session?_eq_getElem?] at h
  generalize (w.step e).sessions = l at hmove h
  cases hmove with
  | same => exact Or.inl (by rwa [session?_eq_getElem?])
  | @opens c hphase hdown hdone =>
    rcases Nat.lt_trichotomy n w.sessions.length with hlt | rfl | hgt
    · rw [List.getElem?_append_left hlt] at h
      exact Or.inl (by rwa [session?_eq_getElem?])
    · rw [List.getElem?_append_right (Nat.le_refl _), Nat.sub_self] at h
      exact Or.inr (Or.inl ⟨c, rfl, hphase, rfl, (Option.some.inj h).symm⟩)
    · rw [List.getElem?_eq_none (by simpa using Nat.succ_le_of_lt hgt)] at h
      cases h
  | @steers e s s₁ hon hsteer =>
    have hs := session?_on hon
    rw [List.getElem?_set] at h
    split at h
    · rename_i hn
      subst hn
      rw [if_pos (lt_length_sessions hs)] at h
      obtain rfl := Option.some.inj h
      exact Or.inr (Or.inr (Or.inl ⟨s, hs, rfl, hon, hsteer⟩))
    · exact Or.inl (by rwa [session?_eq_getElem?])
  | @task m name fate s s₁ d hs hmove =>
    rw [List.getElem?_set] at h
    split at h
    · rename_i hn
      subst hn
      rw [if_pos (lt_length_sessions hs)] at h
      obtain rfl := Option.some.inj h
      exact Or.inr (Or.inr (Or.inr ⟨s, name, fate, d, hs, rfl, hmove⟩))
    · exact Or.inl (by rwa [session?_eq_getElem?])

theorem session_moves {w : World} {e : Event} {n : Nat} {s s' : LiveSession}
    (hs : w.session? n = some s) (hs' : (w.step e).session? n = some s') :
    s' = s ∨ Steering w s e s' ∨
      ∃ name fate d, e = .task n name fate ∧ TaskMove w s name fate s' d := by
  rcases session?_step hs' with hsame | ⟨c, -, -, rfl, -⟩ | ⟨s₀, hs₀, -, -, hsteer⟩ |
    ⟨s₀, name, fate, d, hs₀, he, hmove⟩
  · rw [hs] at hsame
    exact Or.inl (Option.some.inj hsame).symm
  · exact absurd (lt_length_sessions hs) (Nat.lt_irrefl _)
  · rw [hs] at hs₀
    obtain rfl := Option.some.inj hs₀
    exact Or.inr (Or.inl hsteer)
  · rw [hs] at hs₀
    obtain rfl := Option.some.inj hs₀
    exact Or.inr (Or.inr ⟨name, fate, d, he, hmove⟩)

end World

/-! ## What stays with a session -/

namespace TaskMove

variable {w : World} {s s' : LiveSession} {name : TaskName} {fate : TaskFate} {d : Drive}

theorem connection_eq (h : TaskMove w s name fate s' d) : s'.connection = s.connection := by
  cases h <;> rfl

theorem command_eq (h : TaskMove w s name fate s' d) (hover : s.command.isLive = false) :
    s'.command = s.command := by
  cases h with
  | command htask => simp [htask, Task.isLive] at hover
  | commandVanishes hlive => simp [hlive] at hover
  | commandCrashes hlive => simp [hlive] at hover
  | _ => rfl

theorem deserted (h : TaskMove w s name fate s' d) (hs : s.Deserted) : s'.Deserted := by
  refine ⟨by rw [h.command_eq hs.command, hs.command], ?_⟩
  have hnil := hs.rejections
  cases h <;> first | exact hnil | simp [hnil]

end TaskMove

theorem Steering.connection_eq {w : World} {s s' : LiveSession} {e : Event}
    (h : Steering w s e s') :
    s'.connection = s.connection := by
  cases h <;> rfl

/-! ## The order of a teardown -/

/-- What the coordinator has waited for. -/
structure World.InOrder (w : World) : Prop where
  past : ∀ s ∈ w.past, s.Deserted
  dismissing : ∀ s, w.phase = .dismissing s → s.command.isLive = false
  draining : ∀ s, w.phase = .draining s → s.Deserted

namespace World

variable {w : World}

theorem inOrder_opening (speed : Speed) (drive : Drive) (studio : Studio) :
    (opening speed drive studio).InOrder where
  past := by simp [opening]
  dismissing := by simp [opening]
  draining := by simp [opening]

theorem inOrder_coordination {w' : World} (h : w.InOrder) (hmove : Coordination w w') :
    w'.InOrder := by
  obtain ⟨hpast, hdismissing, hdraining⟩ := h
  cases hmove with
  | waits => exact ⟨hpast, hdismissing, hdraining⟩
  | dismisses hphase hover =>
    refine ⟨hpast, ?_, by simp⟩
    rintro s hs
    cases hs
    exact hover
  | drains hphase hover =>
    have hcommand := hdismissing _ hphase
    refine ⟨hpast, by simp, ?_⟩
    rintro s hs
    cases hs
    exact ⟨hcommand, rfl⟩
  | concludes hphase hover =>
    refine ⟨?_, by simp [conclude], by simp [conclude]⟩
    intro s hs
    rcases List.mem_append.mp hs with hs | hs
    · exact hpast s hs
    · rw [List.mem_singleton] at hs
      exact hs ▸ hdraining _ hphase
  | _ => exact ⟨hpast, by simp, by simp⟩

theorem inOrder_step (h : w.InOrder) (e : Event) : (w.step e).InOrder := by
  have hmove := move_step w e
  generalize w.step e = w' at hmove ⊢
  cases hmove with
  | coordinates hmove => exact inOrder_coordination h hmove
  | givesUp hphase hlive =>
    refine ⟨?_, by simp [conclude], by simp [conclude]⟩
    intro s hs
    rcases List.mem_append.mp hs with hs | hs
    · exact h.past s hs
    · rw [List.mem_singleton] at hs
      subst hs
      exact ⟨(h.draining _ hphase).command, (h.draining _ hphase).rejections⟩
  | @task n name fate s s' w' hs hmove hw =>
    rcases hw.past_or_on hs with ⟨-, hmem, hpast, hphase⟩ | ⟨-, hon, hpast, hphase⟩
    · refine ⟨?_, ?_, ?_⟩
      · intro t ht
        rw [hpast] at ht
        rcases List.mem_or_eq_of_mem_set ht with ht | rfl
        · exact h.past t ht
        · exact hmove.deserted (h.past s hmem)
      · rw [hphase]
        exact h.dismissing
      · rw [hphase]
        exact h.draining
    · refine ⟨by rw [hpast]; exact h.past, ?_, ?_⟩
      · intro t ht
        rw [hphase] at ht
        cases hp : w.phase with
        | dismissing s₁ =>
          rw [hp] at hon ht
          cases hon
          cases ht
          rw [hmove.command_eq (h.dismissing s hp), h.dismissing s hp]
        | _ => simp [hp, CoordinatorPhase.withSession] at ht
      · intro t ht
        rw [hphase] at ht
        cases hp : w.phase with
        | draining s₁ =>
          rw [hp] at hon ht
          cases hon
          cases ht
          exact hmove.deserted (h.draining s hp)
        | _ => simp [hp, CoordinatorPhase.withSession] at ht
  | _ => exact ⟨h.past, h.dismissing, h.draining⟩

theorem inOrder_run (h : w.InOrder) (events : List Event) : (w.run events).InOrder := by
  induction events generalizing w with
  | nil => exact h
  | cons e events ih => exact ih (inOrder_step h e)

end World

end Teleop
