import Mathlib.Data.List.Induction
import Teleop.Proofs.Coordinator.Greetings
import Teleop.Proofs.Coordinator.Rejections

/-!
# One operator at a time, whatever the others do

A connection that comes while a command task is live is turned away, and all that it can do is
to be answered. No session begins but by a handshake, and none after the shutdown signal.
-/

namespace Teleop

namespace World

variable {w : World}

/-- The connection that is taken while the command task of session `n` is live. -/
def turnedAway? (n : Nat) (w : World) (e : Event) : Option Connection :=
  if (w.session? n).any fun s => s.command.isLive then w.taken? e else none

/-! ## Whom a session turns away -/

theorem turnedAway_of_turnsAway {s : LiveSession} {c : Connection} {rest : List Connection}
    (hphase : w.phase = .serving s) (hdown : w.shutdown = false) (hlive : s.command.isLive = true)
    (hwaiting : w.control.waiting = c :: rest) :
    w.turnedAway? w.past.length .coordinator = some c := by
  have hstep : (w.step .coordinator).control.waiting = rest := by
    rw [step, coordinate, hphase]
    simp [hdown, hlive, hwaiting]
  have hon : w.session? w.past.length = some s := session?_on (by rw [hphase]; rfl)
  have hany : ((w.session? w.past.length).any fun s => s.command.isLive) = true := by
    rw [hon]
    exact hlive
  rw [turnedAway?, if_pos hany, taken_of_rest hwaiting hstep]

end World

theorem Task.state_abort {α : Type} (t : Task α) : t.abort.state = t.state := by
  cases t <;> rfl

theorem Steering.rejections {w : World} {s s' : LiveSession} {e : Event}
    (h : Steering w s e s') {t' : Task Rejection} (ht' : t' ∈ s'.rejections) :
    (∃ t ∈ s.rejections, t'.state = t.state) ∨
      ∃ c, w.turnedAway? w.past.length e = some c ∧ t'.state = .of c := by
  cases h with
  | aborts => exact Or.inl ⟨t', ht', rfl⟩
  | givesUp => exact Or.inl ⟨t', ht', rfl⟩
  | closes => cases ht'
  | reaps => exact Or.inl ⟨t', (List.mem_filter.mp ht').1, rfl⟩
  | dismisses =>
    obtain ⟨t, ht, rfl⟩ := List.mem_map.mp ht'
    exact Or.inl ⟨t, ht, t.state_abort⟩
  | @turnsAway c rest hphase hdown hlive hwaiting =>
    rcases List.mem_append.mp ht' with ht | ht
    · exact Or.inl ⟨t', ht, rfl⟩
    · rw [List.mem_singleton] at ht
      subst ht
      exact Or.inr ⟨c, World.turnedAway_of_turnsAway hphase hdown hlive hwaiting, rfl⟩

theorem TaskMove.rejections {w : World} {s s' : LiveSession} {name : TaskName} {fate : TaskFate}
    {d : Drive} (h : TaskMove w s name fate s' d) {t' : Task Rejection}
    (ht' : t' ∈ s'.rejections) :
    ∃ t ∈ s.rejections, t'.state = t.state ∨ t'.state = t.state.step := by
  cases h with
  | @rejection i fate r aborted t₁ htask ht =>
    have hmem := List.mem_of_getElem? htask
    rcases List.mem_or_eq_of_mem_set ht' with hold | rfl
    · exact ⟨t', hold, Or.inl rfl⟩
    · refine ⟨_, hmem, ?_⟩
      subst ht
      cases fate with
      | run =>
        right
        simp only [Task.arrive]
        split
        · rfl
        · split <;> rfl
      | vanish =>
        left
        cases aborted <;> rfl
      | crash => exact Or.inl rfl
  | _ => exact ⟨t', ht', Or.inl rfl⟩

namespace World

variable {w : World}

theorem rejections_run (h : w.sessions = []) (events : List Event) {n : Nat} {s : LiveSession}
    (hs : (w.run events).session? n = some s) {t : Task Rejection} (ht : t ∈ s.rejections) :
    ∃ c ∈ w.trace (turnedAway? n) events, Rejection.Follows c t.state := by
  induction events using List.reverseRecOn generalizing n s t with
  | nil =>
    change w.session? n = some s at hs
    rw [session?_eq_getElem?, h] at hs
    cases hs
  | append_singleton events e ih =>
    rw [trace_concat]
    rw [run_concat] at hs
    rcases session?_step hs with hs | ⟨c, -, -, -, rfl⟩ | ⟨s₀, hs₀, rfl, -, hsteer⟩ |
      ⟨s₀, name, fate, d, hs₀, -, hmove⟩
    · obtain ⟨c, hc, hfollows⟩ := ih hs ht
      exact ⟨c, List.mem_append_left _ hc, hfollows⟩
    · cases ht
    · rcases hsteer.rejections ht with ⟨t₀, ht₀, hstate⟩ | ⟨c, hc, hstate⟩
      · obtain ⟨c, hc, hfollows⟩ := ih hs₀ ht₀
        exact ⟨c, List.mem_append_left _ hc, hstate ▸ hfollows⟩
      · refine ⟨c, List.mem_append_right _ ?_, hstate ▸ .taken⟩
        rw [hc]
        exact List.mem_singleton_self c
    · obtain ⟨t₀, ht₀, hstate⟩ := hmove.rejections ht
      obtain ⟨c, hc, hfollows⟩ := ih hs₀ ht₀
      refine ⟨c, List.mem_append_left _ hc, ?_⟩
      rcases hstate with hstate | hstate
      · exact hstate ▸ hfollows
      · exact hstate ▸ hfollows.steps

theorem drive_of_rejection (w : World) (n i : Nat) (fate : TaskFate) :
    (w.step (.task n (.rejection i) fate)).drive = w.drive := by
  have hmove := move_step w (.task n (.rejection i) fate)
  generalize w.step (.task n (.rejection i) fate) = w' at hmove ⊢
  cases hmove with
  | noTask => rfl
  | task hs hmove hw =>
    generalize w'.drive = d at hmove ⊢
    cases hmove <;> rfl

/-! ## The flags of a session -/

/-- The flags of a session are written by its own two channels, and by the coordinator to close
it behind everyone else. -/
theorem state_step (h : w.InOrder) {e : Event} {n : Nat} {s s' : LiveSession}
    (hs : w.session? n = some s) (hs' : (w.step e).session? n = some s')
    (hne : s'.state ≠ s.state) :
    e = .task n .command .run ∨ e = .task n .image .run ∨
      (e = .coordinator ∧ s'.state = s.state.close ∧ s.command.isLive = false ∧
        s.rejections.any Task.isLive = false ∧ s'.Deserted) := by
  rcases session_moves hs hs' with rfl | hsteer | ⟨name, fate, d, rfl, hmove⟩
  · exact absurd rfl hne
  · cases hsteer with
    | closes hphase hover =>
      have hcommand := h.dismissing s hphase
      exact Or.inr (Or.inr ⟨rfl, rfl, hcommand, hover, hcommand, rfl⟩)
    | _ => exact absurd rfl hne
  · cases hmove with
    | command => exact Or.inl rfl
    | image => exact Or.inr (Or.inl rfl)
    | _ => exact absurd rfl hne

/-! ## Live engines -/

theorem countP_live_le_one (h : w.InOrder) :
    (w.sessions.countP fun s => s.command.isLive) ≤ 1 := by
  have hpast : (w.past.countP fun s => s.command.isLive) = 0 := by
    rw [List.countP_eq_zero]
    intro s hs
    simp [(h.past s hs).command]
  rw [sessions, List.countP_append, hpast, Nat.zero_add]
  refine Nat.le_trans List.countP_le_length ?_
  cases w.phase.session? <;> simp

/-! ## Behind the shutdown signal -/

theorem shutdown_step (h : w.shutdown = true) (e : Event) : (w.step e).shutdown = true := by
  have hmove := move_step w e
  generalize w.step e = w' at hmove ⊢
  cases hmove with
  | shutdown => rfl
  | task hs hmove hw => rw [hw.shutdown, h]
  | coordinates hmove => cases hmove <;> exact h
  | _ => exact h

theorem shutdown_run (h : w.shutdown = true) (events : List Event) :
    (w.run events).shutdown = true := by
  induction events generalizing w with
  | nil => exact h
  | cons e events ih => exact ih (shutdown_step h e)

theorem opened_of_shutdown (h : w.shutdown = true) (events : List Event) :
    w.trace opened? events = [] := by
  induction events generalizing w with
  | nil => rfl
  | cons e events ih =>
    have hnone : w.opened? e = none := by
      cases hopened : w.opened? e with
      | none => rfl
      | some c =>
        obtain ⟨-, -, hdown, -⟩ := opened?_eq_some.mp hopened
        rw [h] at hdown
        cases hdown
    rw [trace, hnone, ih (shutdown_step h e)]
    rfl

end World

/-! ## The law -/

/-- One operator at a time, for the world behind some events. -/
structure Exclusive (w₀ : World) (events : List Event) (w : World) : Prop where
  one_engine : (w.sessions.countP fun s => s.command.isLive) ≤ 1
  /-- A connection that is taken while a session is on is turned away, with nothing else done. -/
  turned_away : ∀ s e c, w.phase.session? = some s → w.taken? e = some c →
    s.command.isLive = true ∧ ∃ rest, w.control.waiting = c :: rest ∧ w.step e =
      { w with
        control := { w.control with waiting := rest }
        phase := .serving { s with rejections := s.rejections ++ [.start (.of c)] }
        summary := { w.summary with busyRejections := w.summary.busyRejections + 1 } }
  /-- Only connections that were taken while no session was on become sessions. -/
  greeted : (w₀.trace World.opened? events).Sublist (w₀.trace World.greeted? events)
  /-- Who is turned away came while the command task was live, and was sent nothing, or the first
  bytes of one `CONN_ERR` line after a complete line. -/
  answered : ∀ n s t, w.session? n = some s → t ∈ s.rejections →
    ∃ c ∈ w₀.trace (World.turnedAway? n) events, t.state.id = c.id ∧
      (t.state.channel.stream.sent = c.stream.sent ∨
        c.handshake = .done ∧ c.SendsLine ∧ ∃ e : StreamEvent,
          e.IsPartOf Response.connErr.framed ∧ t.state.channel.stream.sent = c.stream.sent ++ [e])
  /-- Who is turned away does nothing to the drive. -/
  still : ∀ n i fate, (w.step (.task n (.rejection i) fate)).drive = w.drive
  /-- The flags of a session are written by its own two channels, and by the coordinator to close
  it once nobody is left whom it turns away. -/
  flags : ∀ e n s s', w.session? n = some s → (w.step e).session? n = some s' →
    s'.state ≠ s.state →
      e = .task n .command .run ∨ e = .task n .image .run ∨
        (e = .coordinator ∧ s'.state = s.state.close ∧ s.command.isLive = false ∧
          s.rejections.any Task.isLive = false ∧ s'.Deserted)
  /-- Nobody comes back to a session behind that. -/
  deserted : ∀ s, s ∈ w.past ∨ w.phase = .draining s → s.Deserted
  /-- A session begins disconnected and open. -/
  fresh : ∀ e, (w.step e).sessions.length ≠ w.sessions.length →
    ∃ c, w.opened? e = some c ∧ (w.step e).sessions = w.sessions ++ [.start c] ∧
      (LiveSession.start c).state = { connected := false, closed := false }
  /-- No session begins behind the shutdown signal. -/
  shut : w.shutdown = true → ∀ more,
    (w.run more).shutdown = true ∧ (w.run more).sessions.length = w.sessions.length

namespace World

/-- **Whatever happens, one operator has the robot, and the others are turned away.** -/
theorem exclusive_run (speed : Speed) (drive : Drive) (studio : Studio) (events : List Event) :
    Exclusive (opening speed drive studio) events ((opening speed drive studio).run events) := by
  have h := inOrder_run (inOrder_opening speed drive studio) events
  generalize hw : (opening speed drive studio).run events = w at h ⊢
  refine ⟨countP_live_le_one h, ?_, ?_, ?_, drive_of_rejection w, ?_, ?_, ?_, ?_⟩
  · intro s e c hon htaken
    obtain ⟨-, htaking⟩ := taking_of_taken htaken
    generalize w.step e = w' at htaking ⊢
    cases htaking with
    | serves hphase =>
      rw [hphase] at hon
      cases hon
    | turnsAway hphase hdown hlive hwaiting =>
      rw [hphase] at hon
      obtain rfl := Option.some.inj hon
      exact ⟨hlive, _, hwaiting, rfl⟩
  · exact opened_sublist_greeted (opening speed drive studio) events
  · intro n s t hs ht
    rw [← hw] at hs
    obtain ⟨c, hc, hfollows⟩ := rejections_run rfl events hs ht
    exact ⟨c, hc, Rejection.id_of_follows hfollows, Rejection.sent_of_follows hfollows⟩
  · intro e n s s' hs hs' hne
    exact state_step h hs hs' hne
  · rintro s (hs | hphase)
    · exact h.past s hs
    · exact h.draining s hphase
  · intro e hne
    cases hopened : w.opened? e with
    | none =>
      have hlength := congrArg List.length (connections_of_not_opened hopened)
      rw [List.length_map, List.length_map] at hlength
      exact absurd hlength hne
    | some c => exact ⟨c, rfl, sessions_of_opened hopened, rfl⟩
  · intro hdown more
    refine ⟨shutdown_run hdown more, ?_⟩
    rw [length_sessions_run, opened_of_shutdown hdown]
    rfl

end World

end Teleop
