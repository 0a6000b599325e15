import Teleop.Proofs.Coordinator.Images
import Teleop.Proofs.Session.Stopping

/-!
# The lines that the sessions read

The command task of a session reads the lines of its operator one after the other, and the session
has counted what was read, whatever becomes of the task.
-/

namespace Teleop

def LiveSession.line? (s : LiveSession) : Option Bytes :=
  match s.command with
  | .running run _ => run.line?
  | _ => none

theorem LiveSession.length_dispatch? (s : LiveSession) (w : World) :
    (s.dispatch? w).toList.length = s.line?.toList.length := by
  unfold dispatch? line?
  cases htask : s.command with
  | running run aborted =>
    dsimp only
    rw [run.dispatch?_eq_line?]
    cases run.line? <;> rfl
  | _ => rfl

/-- What an event does to the command side of a session, by the line that is taken. -/
inductive CommandMove (w : World) (s : LiveSession) : Option Bytes → LiveSession → Prop where
  | runs {run : CommandRun} {aborted : Bool} (htask : s.command = .running run aborted) :
    CommandMove w s run.line?
      { s with
        state := (run.step (w.engineOf s)).2.session
        handled := (run.step (w.engineOf s)).2.handled
        command := .arrive aborted (run.step (w.engineOf s)).1.ending?.isSome
          (run.step (w.engineOf s)).1 }
  | rests {s' : LiveSession} (hcommand : s.command.Rests s'.command)
      (hhandled : s'.handled = s.handled) : CommandMove w s none s'

theorem TaskMove.command_rests {w : World} {s s' : LiveSession} {name : TaskName}
    {fate : TaskFate} {d : Drive} (h : TaskMove w s name fate s' d)
    (hname : ¬ (name = .command ∧ fate = .run)) :
    s.command.Rests s'.command ∧ s'.handled = s.handled := by
  cases h with
  | command => exact absurd ⟨rfl, rfl⟩ hname
  | commandVanishes => exact ⟨.vanish, rfl⟩
  | commandCrashes => exact ⟨.crash, rfl⟩
  | _ => exact ⟨.same, rfl⟩

theorem TaskMove.handled_eq {w : World} {s s' : LiveSession} {name : TaskName}
    {fate : TaskFate} {d : Drive} (h : TaskMove w s name fate s' d)
    (hover : s.command.isLive = false) : s'.handled = s.handled := by
  cases h with
  | command htask => simp [htask, Task.isLive] at hover
  | _ => rfl

theorem Steering.command_rests {w : World} {e : Event} {s s' : LiveSession}
    (h : Steering w s e s') : s.command.Rests s'.command ∧ s'.handled = s.handled := by
  cases h with
  | aborts => exact ⟨.abort, rfl⟩
  | _ => exact ⟨.same, rfl⟩

namespace World

def lineRead? (n : Nat) (w : World) (e : Event) : Option Bytes :=
  match e with
  | .task m .command .run => if m = n then (w.session? n).bind LiveSession.line? else none
  | _ => none

/-- The lines that session `n` read, at their full length. -/
def linesRead (n : Nat) (w : World) (events : List Event) : List Bytes :=
  w.trace (lineRead? n) events

variable {w : World} {n : Nat} {e : Event} {s s' : LiveSession}

theorem lineRead?_of_ne (h : e ≠ .task n .command .run) : w.lineRead? n e = none := by
  unfold lineRead?
  split
  · split
    · rename_i hm
      exact absurd (by rw [hm]) h
    · rfl
  · rfl

theorem lineRead?_self (hs : w.session? n = some s) :
    w.lineRead? n (.task n .command .run) = s.line? := by
  simp only [lineRead?, if_true, hs, Option.bind_some]

theorem lineRead?_of_none (h : w.session? n = none) (e : Event) : w.lineRead? n e = none := by
  unfold lineRead?
  split
  · rw [h]
    split <;> rfl
  · rfl

theorem dispatch?_of_other (h : e ≠ .task n .command .run) : w.dispatch? n e = none := by
  unfold dispatch?
  split
  · split
    · rename_i hm
      exact absurd (by rw [hm]) h
    · rfl
  · rfl

theorem length_dispatch? (n : Nat) (w : World) (e : Event) :
    (w.dispatch? n e).toList.length = (w.lineRead? n e).toList.length := by
  by_cases he : e = .task n .command .run
  · subst he
    rcases hs : w.session? n with _ | s
    · rw [dispatch?_of_none hs, lineRead?_of_none hs]
      rfl
    · rw [lineRead?_self hs]
      simp only [dispatch?, if_true, hs, Option.bind_some]
      exact s.length_dispatch? w
  · rw [dispatch?_of_other he, lineRead?_of_ne he]
    rfl

theorem length_dispatches (n : Nat) (w : World) (events : List Event) :
    (w.dispatches n events).length = (w.linesRead n events).length := by
  unfold dispatches linesRead
  induction events generalizing w with
  | nil => rfl
  | cons e events ih =>
    rw [trace, trace, List.length_append, List.length_append, ih, length_dispatch?]

theorem commandMove_step (hs : w.session? n = some s) (hs' : (w.step e).session? n = some s') :
    CommandMove w s (w.lineRead? n e) s' := by
  by_cases he : e = .task n .command .run
  · subst he
    obtain ⟨s₁, d, hs₁, hmove⟩ := session?_task hs .command .run
    rw [hs₁] at hs'
    obtain rfl := Option.some.inj hs'
    rw [lineRead?_self hs]
    cases hmove with
    | none hover =>
      have hnone : s.line? = none := by
        unfold LiveSession.line?
        split
        · rename_i htask
          rw [LiveSession.runs, htask] at hover
          cases hover
        · rfl
      rw [hnone]
      exact .rests .same rfl
    | command htask =>
      rw [LiveSession.line?, htask]
      exact .runs htask
  · rw [lineRead?_of_ne he]
    rcases session_moves hs hs' with rfl | hsteer | ⟨name, fate, d, rfl, hmove⟩
    · exact .rests .same rfl
    · exact .rests hsteer.command_rests.1 hsteer.command_rests.2
    · have hrests := hmove.command_rests (by rintro ⟨rfl, rfl⟩; exact he rfl)
      exact .rests hrests.1 hrests.2

end World

/-- The session has counted these lines, and they are the first of all the lines that its operator
sends. -/
structure LiveSession.Counted (s : LiveSession) (c : Connection) (lines : List Bytes) : Prop where
  handled : s.handled = lines.length
  read : s.command.state.HasRead (linesFrom [] c.stream.items).1 lines

theorem LiveSession.counted_start (c : Connection) : (LiveSession.start c).Counted c [] where
  handled := rfl
  read := CommandRun.hasRead_begin c.stream

theorem CommandMove.counted {w : World} {s s' : LiveSession} {line? : Option Bytes}
    {c : Connection} {lines : List Bytes} (h : CommandMove w s line? s')
    (hs : s.Counted c lines) : s'.Counted c (lines ++ line?.toList) := by
  cases h with
  | @runs run aborted htask =>
    have hread := hs.read
    rw [htask] at hread
    refine ⟨?_, ?_⟩
    · have hcount := (run.counters_step (w.engineOf s)).1
      rw [run.dispatch?_eq_line?] at hcount
      refine hcount.trans ?_
      rw [World.engineOf, hs.handled, List.length_append]
      cases run.line? <;> rfl
    · rw [Task.state_arrive]
      exact CommandRun.hasRead_step hread _
  | rests hcommand hhandled =>
    rw [Option.toList_none, List.append_nil]
    exact ⟨hhandled.trans hs.handled, hcommand.state_eq ▸ hs.read⟩

namespace World

variable {w : World} {n : Nat} {e : Event} {s s' : LiveSession}

/-- The session with number `n` is that of the `n`-th handshake that succeeded. -/
theorem counted_run (hnone : w.sessions = []) {events : List Event}
    (hs : (w.run events).session? n = some s) :
    ∃ c, (w.trace opened? events)[n]? = some c ∧ s.Counted c (w.linesRead n events) := by
  induction events using List.reverseRecOn generalizing s with
  | nil =>
    change w.session? n = some s at hs
    rw [session?_eq_getElem?, hnone] at hs
    cases hs
  | append_singleton events e ih =>
    rw [linesRead, trace_concat, trace_concat]
    rw [run_concat] at hs
    have hlength := length_sessions_run w events
    rw [hnone, List.length_nil, Nat.zero_add] at hlength
    cases hs₀ : (w.run events).session? n with
    | none =>
      obtain ⟨c, hopened, rfl, rfl⟩ := opened_of_new hs₀ hs
      refine ⟨c, ?_, ?_⟩
      · rw [hopened, hlength, Option.toList_some, List.getElem?_concat_length]
      · rw [trace_of_none (fun w h e => lineRead?_of_none h e) hs₀, lineRead?_of_none hs₀]
        exact LiveSession.counted_start c
    | some s₀ =>
      obtain ⟨c, hc, hcounted⟩ := ih hs₀
      refine ⟨c, ?_, (commandMove_step hs₀ hs).counted hcounted⟩
      rw [List.getElem?_append_left (List.getElem?_eq_some_iff.mp hc).1, hc]

end World

end Teleop
