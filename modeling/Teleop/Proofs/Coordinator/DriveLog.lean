import Mathlib.Data.List.Basic
import Mathlib.Data.List.Induction
import Teleop.Proofs.Coordinator.History

/-!
# The log of the drive

The drive runs what the sessions dispatch, one session after the other, and is idled once behind
each of them.
-/

namespace Teleop

theorem TaskMove.calls_eq {w : World} {n : Nat} {s s' : LiveSession} {name : TaskName}
    {fate : TaskFate} {d : Drive} (h : TaskMove w s name fate s' d) (hs : w.session? n = some s) :
    d.calls = w.drive.calls ++
      (w.dispatch? n (.task n name fate)).toList.flatMap Dispatch.calls := by
  cases h with
  | none hover =>
    cases name with
    | command =>
      rw [World.dispatch?_of_over hs hover]
      simp
    | _ => simp [World.dispatch?]
  | @command run aborted htask =>
    have hdispatch : w.dispatch? n (.task n .command .run) = run.dispatch? (w.engineOf s) := by
      simp [World.dispatch?, hs, LiveSession.dispatch?, htask]
    rw [hdispatch, CommandRun.calls_step]
    rfl
  | _ => simp [World.dispatch?]

namespace World

variable {w : World}

theorem dispatch?_of_ne {m n : Nat} (h : m ≠ n) (name : TaskName) (fate : TaskFate) :
    w.dispatch? n (.task m name fate) = none := by
  unfold dispatch?
  split
  · rename_i heq
    obtain ⟨rfl, -, -⟩ := Event.task.inj heq
    rw [if_neg h]
  · rfl

/-- An event ends the session that is on, with one idle, or it leaves the sessions that are over
and moves the drive by what the session that is on dispatches. -/
theorem calls_step (h : w.InOrder) (e : Event) :
    ((w.step e).past.length = w.past.length ∧
        (w.step e).drive.calls = w.drive.calls ++
          (w.dispatch? w.past.length e).toList.flatMap Dispatch.calls) ∨
      ((w.step e).past.length = w.past.length + 1 ∧ (w.step e).phase = .accepting ∧
        w.dispatch? w.past.length e = none ∧
        (w.step e).drive.calls = w.drive.calls ++ [.idle]) := by
  have hmove := move_step w e
  generalize w.step e = w' at hmove ⊢
  cases hmove with
  | givesUp => exact Or.inr ⟨by simp [conclude], rfl, rfl, by simp [conclude]⟩
  | coordinates hmove =>
    cases hmove with
    | concludes => exact Or.inr ⟨by simp [conclude], rfl, rfl, by simp [conclude]⟩
    | _ => exact Or.inl ⟨rfl, by simp [dispatch?]⟩
  | @noTask n name fate hnone =>
    refine Or.inl ⟨rfl, ?_⟩
    by_cases hn : n = w.past.length
    · subst hn
      rw [dispatch?_of_none hnone]
      simp
    · rw [dispatch?_of_ne hn]
      simp
  | @task n name fate s s' w' hs hmove hw =>
    refine Or.inl ⟨hw.length_past hs, ?_⟩
    have hcalls := hmove.calls_eq hs
    by_cases hn : n = w.past.length
    · subst hn
      exact hcalls
    · have hlt : n < w.past.length := by
        rcases session?_eq_some hs with ⟨hlt, -⟩ | ⟨heq, -⟩
        · exact hlt
        · exact absurd heq hn
      rw [dispatch?_of_past h hlt] at hcalls
      rwa [dispatch?_of_ne hn]
  | _ => exact Or.inl ⟨rfl, by simp [dispatch?]⟩

theorem length_past_le_step (h : w.InOrder) (e : Event) :
    w.past.length ≤ (w.step e).past.length := by
  rcases calls_step h e with ⟨hpast, -⟩ | ⟨hpast, -⟩ <;> omega

theorem length_past_le_run (h : w.InOrder) (events : List Event) :
    w.past.length ≤ (w.run events).past.length := by
  induction events generalizing w with
  | nil => exact Nat.le_refl _
  | cons e events ih => exact Nat.le_trans (length_past_le_step h e) (ih (inOrder_step h e))

/-! ## Motions of one session -/

theorem motions_append (n : Nat) (w : World) (events more : List Event) :
    w.motions n (events ++ more) = w.motions n events ++ (w.run events).motions n more := by
  rw [motions, dispatches, trace_append, List.flatMap_append]
  rfl

theorem motions_concat (n : Nat) (w : World) (events : List Event) (e : Event) :
    w.motions n (events ++ [e]) =
      w.motions n events ++ ((w.run events).dispatch? n e).toList.flatMap Dispatch.calls := by
  rw [motions, dispatches, trace_concat, List.flatMap_append]
  rfl

theorem motions_cons (n : Nat) (w : World) (e : Event) (events : List Event) :
    w.motions n (e :: events) =
      (w.dispatch? n e).toList.flatMap Dispatch.calls ++ (w.step e).motions n events := by
  rw [motions, dispatches, trace, List.flatMap_append]
  rfl

theorem motions_of_past {n : Nat} (h : w.InOrder) (hn : n < w.past.length)
    (events : List Event) : w.motions n events = [] := by
  induction events generalizing w with
  | nil => rfl
  | cons e events ih =>
    have hstep := length_past_le_step h e
    rw [motions_cons, dispatch?_of_past h hn, ih (inOrder_step h e) (by omega)]
    rfl

theorem motions_of_none {n : Nat} {events : List Event} (h : (w.run events).sessions.length ≤ n) :
    w.motions n events = [] := by
  induction events generalizing w with
  | nil => rfl
  | cons e events ih =>
    have hn : w.sessions.length ≤ n := by
      have := length_sessions_run w (e :: events)
      omega
    have hnone : w.session? n = none := by
      rw [session?_eq_getElem?, List.getElem?_eq_none hn]
    rw [motions_cons, dispatch?_of_none hnone, ih h]
    rfl

/-! ## The whole log -/

theorem calls_run (h : w.InOrder) (hpast : w.past = []) (events : List Event) :
    (w.run events).drive.calls = w.drive.calls ++
      (List.range (w.run events).past.length).flatMap (fun n => w.motions n events ++ [.idle]) ++
      w.motions (w.run events).past.length events := by
  induction events using List.reverseRecOn with
  | nil => simp [run, hpast, motions, dispatches, trace]
  | append_singleton events e ih =>
    have horder := inOrder_run h events
    -- The sessions that are over by now dispatch nothing in `e`.
    have hover : (List.range (w.run events).past.length).flatMap
        (fun n => w.motions n (events ++ [e]) ++ [.idle]) =
        (List.range (w.run events).past.length).flatMap
          (fun n => w.motions n events ++ [.idle]) := by
      apply List.flatMap_congr
      intro n hn
      rw [motions_concat, dispatch?_of_past horder (List.mem_range.mp hn)]
      simp
    rw [run_concat]
    rcases calls_step horder e with ⟨hlength, hcalls⟩ | ⟨hlength, hphase, hnone, hcalls⟩
    · rw [hcalls, ih, hlength, hover, motions_concat]
      simp only [List.append_assoc]
    · have hnext : w.motions ((w.run events).past.length + 1) (events ++ [e]) = [] := by
        refine motions_of_none (Nat.le_of_eq ?_)
        rw [run_concat, length_sessions_of_off (by rw [hphase]; rfl), hlength]
      rw [hcalls, ih, hlength, hnext, List.range_succ, List.flatMap_append, hover,
        List.flatMap_singleton, motions_concat, hnone]
      simp

theorem calls_of_off (h : w.InOrder) (hpast : w.past = []) {events : List Event}
    (hoff : (w.run events).phase.session? = none) :
    (w.run events).drive.calls = w.drive.calls ++
      (List.range (w.run events).past.length).flatMap fun n => w.motions n events ++ [.idle] := by
  rw [calls_run h hpast, motions_of_none (Nat.le_of_eq (length_sessions_of_off hoff)),
    List.append_nil]

theorem calls_between (h : w.InOrder) (hpast : w.past = []) {events more : List Event}
    (hoff : (w.run events).phase.session? = none)
    (hmore : (w.run events).trace opened? more = []) :
    ((w.run events).run more).drive.calls = (w.run events).drive.calls := by
  have hsessions := length_sessions_run (w.run events) more
  have hgrows := length_past_le_run (inOrder_run h events) more
  have hwithin := length_past_le_sessions ((w.run events).run more)
  rw [hmore, length_sessions_of_off hoff, List.length_nil] at hsessions
  have hlength : ((w.run events).run more).past.length = (w.run events).past.length := by
    omega
  have hsame : (List.range (w.run events).past.length).flatMap
      (fun n => w.motions n (events ++ more) ++ [.idle]) =
      (List.range (w.run events).past.length).flatMap
        (fun n => w.motions n events ++ [.idle]) := by
    apply List.flatMap_congr
    intro n hn
    rw [motions_append, motions_of_past (inOrder_run h events) (List.mem_range.mp hn),
      List.append_nil]
  rw [calls_of_off h hpast hoff, ← run_append, calls_run h hpast, run_append, hlength, hsame,
    motions_of_none, List.append_nil]
  rw [run_append]
  omega

end World

/-- The log of the drive behind some events. -/
structure LogOfSessions (w : World) (events : List Event) : Prop where
  /-- A session for every handshake that succeeded, in the same order. -/
  sessions : (w.run events).sessions.map LiveSession.connection =
    (w.trace World.opened? events).map Connection.id
  /-- The motions of each session that is over, with one idle behind them, and then the motions of
  the session that is on. -/
  calls : (w.run events).drive.calls = w.drive.calls ++
    (List.range (w.run events).past.length).flatMap (fun n => w.motions n events ++ [.idle]) ++
    w.motions (w.run events).past.length events
  /-- A session that is over moves the drive no more. -/
  past : ∀ n < (w.run events).past.length, ∀ more,
    w.motions n (events ++ more) = w.motions n events
  /-- With no session on, as when the coordinator has stopped, all sessions are over, and the log is
  as it was at first or ends in the idle of the last of them. -/
  off : (w.run events).phase.session? = none →
    (w.run events).sessions.length = (w.run events).past.length ∧
      w.motions (w.run events).past.length events = [] ∧
      ((w.run events).drive.calls = w.drive.calls ∧ (w.run events).past = [] ∨
        ∃ log, (w.run events).drive.calls = log ++ [.idle])
  /-- From there on nothing moves the drive until the next session begins. -/
  between : (w.run events).phase.session? = none → ∀ more,
    (w.run events).trace World.opened? more = [] →
      ((w.run events).run more).drive.calls = (w.run events).drive.calls

namespace World

/-- **Whatever happens, the drive runs the motions of one session after the other, each with one
idle behind them.** -/
theorem log_of_sessions (speed : Speed) (drive : Drive) (studio : Studio) (events : List Event) :
    LogOfSessions (opening speed drive studio) events := by
  have h := inOrder_opening speed drive studio
  have hpast : (opening speed drive studio).past = [] := rfl
  generalize hw : opening speed drive studio = w at h hpast ⊢
  refine ⟨?_, calls_run h hpast events, ?_, ?_, ?_⟩
  · rw [connections_run, ← hw]
    rfl
  · intro n hn more
    rw [motions_append, motions_of_past (inOrder_run h events) hn, List.append_nil]
  · intro hoff
    have hlength := length_sessions_of_off hoff
    refine ⟨hlength, motions_of_none (Nat.le_of_eq hlength), ?_⟩
    rw [calls_of_off h hpast hoff]
    rcases Nat.eq_zero_or_pos (w.run events).past.length with hzero | hpos
    · left
      rw [hzero]
      exact ⟨List.append_nil _, List.length_eq_zero_iff.mp hzero⟩
    · right
      obtain ⟨k, hk⟩ := Nat.exists_eq_succ_of_ne_zero (Nat.ne_of_gt hpos)
      rw [hk, List.range_succ, List.flatMap_append, List.flatMap_singleton, ← List.append_assoc,
        ← List.append_assoc]
      exact ⟨_, rfl⟩
  · intro hoff more hmore
    exact calls_between h hpast hoff hmore

end World

end Teleop
