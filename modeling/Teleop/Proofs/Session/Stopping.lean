import Teleop.Proofs.Session.Lines

/-!
# A run that is stopped on its way

A run can be stopped between any two of its steps. What it has counted by then is what it has read
and dispatched by then, no line twice and none left out.
-/

namespace Teleop

namespace CommandRun

/-- The complete line, at its full length, that the next step of a run takes. -/
def line? (r : CommandRun) : Option Bytes :=
  match r.phase with
  | .reading => (takeLine [] r.channel.items).1.toOption
  | _ => none

theorem line?_reading {r : CommandRun} (hphase : r.phase = .reading) :
    r.line? = (takeLine [] r.channel.items).1.toOption := by
  rw [line?, hphase]

theorem line?_of_ne {r : CommandRun} (hphase : r.phase ≠ .reading) : r.line? = none := by
  unfold line?
  split
  · contradiction
  · rfl

theorem dispatch?_eq_line? (r : CommandRun) (e : Engine) :
    r.dispatch? e = r.line?.map e.dispatched := by
  by_cases hphase : r.phase = .reading
  · rw [line?_reading hphase, dispatch?, hphase]
    dsimp only
    rw [(readMessage_items messageCapacity r.channel).1]
    rcases (takeLine [] r.channel.items).1 with error | line
    · rfl
    · exact congrArg some (e.dispatched_take line)
  · rw [line?_of_ne hphase, dispatch?_of_ne hphase]
    rfl

/-! ## The counters -/

theorem counters_step (r : CommandRun) (e : Engine) :
    (r.step e).2.handled = e.handled + (r.dispatch? e).toList.length ∧
      (r.step e).1.commands = r.commands + (r.dispatch? e).toList.length := by
  cases hphase : r.phase with
  | reading =>
    rcases h : r.channel.readMessage messageCapacity with ⟨error | m, c⟩
    · rw [step_reading_error hphase h, dispatch?_reading_error hphase h, engine_lose, commands_lose]
      exact ⟨rfl, rfl⟩
    · obtain ⟨reply, -, -, hstep⟩ := step_reading_ok hphase h e
      rw [hstep, dispatch?_reading_ok hphase h]
      exact ⟨rfl, rfl⟩
  | answering reply =>
    rw [dispatch?_of_ne (by simp [hphase])]
    rcases h : r.channel.respond reply.response with ⟨error | n, c⟩
    · rw [step_unsent hphase h, engine_lose, commands_lose]
      exact ⟨rfl, rfl⟩
    · rw [step_sent hphase h]
      exact ⟨rfl, rfl⟩
  | closing response =>
    rw [dispatch?_of_ne (by simp [hphase]), step_closing hphase]
    exact ⟨rfl, rfl⟩
  | finished ending =>
    rw [dispatch?_of_ne (by simp [hphase]), step_finished hphase]
    exact ⟨rfl, rfl⟩

/-! ## The lines -/

def mayRead (r : CommandRun) : Bool :=
  match r.phase with
  | .reading | .answering _ => true
  | .closing _ | .finished _ => false

/-- These lines were read of all that there are, and the others are still to be read. -/
structure HasRead (all lines : List Bytes) (r : CommandRun) : Prop where
  within : lines <+: all
  rest : r.mayRead = true → all = lines ++ (linesFrom [] r.channel.items).1

theorem hasRead_begin (s : Stream) :
    HasRead (linesFrom [] s.items).1 [] { channel := { stream := s } } where
  within := List.nil_prefix
  rest _ := by rfl

variable {all lines : List Bytes} {r : CommandRun}

theorem HasRead.stops {r' : CommandRun} (h : r.HasRead all lines) (hover : r'.mayRead = false) :
    r'.HasRead all lines where
  within := h.within
  rest hmay := by
    rw [hover] at hmay
    cases hmay

theorem mayRead_lose (r : CommandRun) (error : ChannelError) (e : Engine) :
    (r.lose error e).1.mayRead = false := by
  cases error <;> rfl

theorem hasRead_step (h : r.HasRead all lines) (e : Engine) :
    (r.step e).1.HasRead all (lines ++ r.line?.toList) := by
  cases hphase : r.phase with
  | reading =>
    have hall := h.rest (by rw [mayRead, hphase])
    obtain ⟨hread, hitems⟩ := readMessage_items messageCapacity r.channel
    rcases htake : takeLine [] r.channel.items with ⟨error | line, rest⟩ <;>
      rw [htake] at hread hitems <;> rw [line?_reading hphase, htake]
    · rw [step_reading_error hphase (Prod.ext hread rfl)]
      exact (List.append_nil lines).symm ▸ h.stops (mayRead_lose _ _ _)
    · obtain ⟨reply, -, -, hstep⟩ := step_reading_ok hphase (Prod.ext hread rfl) e
      have hsplit : all = (lines ++ [line]) ++ (linesFrom [] rest).1 := by
        rw [hall, linesFrom_of_ok htake]
        simp
      rw [hstep]
      refine ⟨⟨_, hsplit.symm⟩, fun _ => ?_⟩
      rw [hsplit]
      exact congrArg (fun items => (lines ++ [line]) ++ (linesFrom [] items).1) hitems.symm
  | answering reply =>
    have hall := h.rest (by rw [mayRead, hphase])
    rw [line?_of_ne (by simp [hphase]), Option.toList_none, List.append_nil]
    have hitems := Channel.items_respond reply.response r.channel
    rcases hanswer : r.channel.respond reply.response with ⟨error | n, c⟩ <;>
      rw [hanswer] at hitems
    · rw [step_unsent hphase hanswer]
      exact h.stops (mayRead_lose _ _ _)
    · rw [step_sent hphase hanswer]
      refine ⟨h.within, fun _ => ?_⟩
      rw [hall, ← hitems]
  | closing response =>
    rw [line?_of_ne (by simp [hphase]), step_closing hphase]
    simpa using h.stops rfl
  | finished ending =>
    rw [line?_of_ne (by simp [hphase]), step_finished hphase]
    simpa using h

/-! ## A number of steps -/

def advance (r : CommandRun) (e : Engine) : Nat → CommandRun × Engine
  | 0 => (r, e)
  | k + 1 => (r.step e).1.advance (r.step e).2 k

def dispatchesWithin (r : CommandRun) (e : Engine) : Nat → List Dispatch
  | 0 => []
  | k + 1 => (r.dispatch? e).toList ++ (r.step e).1.dispatchesWithin (r.step e).2 k

theorem counters_advance (r : CommandRun) (e : Engine) (k : Nat) :
    (r.advance e k).2.handled = e.handled + (r.dispatchesWithin e k).length ∧
      (r.advance e k).1.commands = r.commands + (r.dispatchesWithin e k).length := by
  induction k generalizing r e with
  | zero => exact ⟨rfl, rfl⟩
  | succ k ih =>
    obtain ⟨hhandled, hcommands⟩ := counters_step r e
    obtain ⟨ihhandled, ihcommands⟩ := ih (r.step e).1 (r.step e).2
    rw [advance, dispatchesWithin, List.length_append, ihhandled, ihcommands, hhandled, hcommands]
    omega

end CommandRun

end Teleop
