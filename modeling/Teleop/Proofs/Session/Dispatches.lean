import Teleop.Proofs.Session.Table
import Teleop.Session.CommandRun

/-!
# The steps of a run and what they dispatch

One lemma for each way that a step of the command channel can go, and a record of all that a run
dispatches.
-/

namespace Teleop

def ChannelError.ending : ChannelError → CommandEnd
  | disconnected => .peerDisconnected
  | stream e => .transportFailed e

structure Dispatch where
  /-- What the message said. `none` stands for a message that is no command. -/
  command? : Option Command
  /-- Whether the operator was connected when the message came. -/
  connected : Bool
  response : Response
  /-- What the drive was told to do. -/
  calls : List DriveCall
deriving DecidableEq, Repr

def Engine.dispatched (e : Engine) (word : Bytes) : Dispatch where
  command? := Command.parse? word
  connected := e.session.connected
  response := (e.dispatch word).1.response
  calls := e.callsFor word

theorem Engine.dispatched_take (e : Engine) (line : Bytes) :
    e.dispatched (line.take messageCapacity) = e.dispatched line := by
  rw [dispatched, dispatched, (e.dispatch_row _).1, (e.dispatch_row _).1, callsFor, callsFor,
    row_take, parse?_take]

namespace CommandRun

/-! ## Steps -/

theorem step_reading_error {r : CommandRun} {error : ChannelError} {c : Channel}
    (hphase : r.phase = .reading)
    (h : r.channel.readMessage messageCapacity = (.error error, c)) (e : Engine) :
    r.step e = { r with channel := c }.lose error e := by
  rw [step, hphase]
  simp only [h]

theorem step_reading_ok {r : CommandRun} {m : Message} {c : Channel} (hphase : r.phase = .reading)
    (h : r.channel.readMessage messageCapacity = (.ok m, c)) (e : Engine) :
    ∃ reply, reply.response = (e.row m.bytes).response ∧ reply.close = (e.row m.bytes).closes ∧
      r.step e =
        ({ channel := c.warn reply.notices
           phase := .answering reply
           commands := r.commands + 1 }, e.follow m.bytes) := by
  have hrow : ({ e with handled := e.handled + 1 } : Engine).row m.bytes = e.row m.bytes := rfl
  obtain ⟨hresponse, hclose, -⟩ := { e with handled := e.handled + 1 }.dispatch_row m.bytes
  obtain ⟨-, -, hengine⟩ := e.dispatch_row m.bytes
  rw [hrow] at hresponse hclose
  refine ⟨_, hresponse, hclose, ?_⟩
  rw [step, hphase]
  simp only [h]
  exact Prod.ext rfl hengine

theorem step_unsent {r : CommandRun} {reply : Reply} {error : ChannelError} {c : Channel}
    (hphase : r.phase = .answering reply)
    (h : r.channel.respond reply.response = (.error error, c)) (e : Engine) :
    r.step e = { r with channel := c }.lose error e := by
  rw [step, hphase]
  simp only [h]

theorem step_sent {r : CommandRun} {reply : Reply} {n : Nat} {c : Channel}
    (hphase : r.phase = .answering reply)
    (h : r.channel.respond reply.response = (.ok n, c)) (e : Engine) :
    r.step e = ({ r with
      channel := c
      phase := if reply.close then .closing reply.response else .reading }, e) := by
  rw [step, hphase]
  simp only [h]

theorem step_closing {r : CommandRun} {response : Response} (hphase : r.phase = .closing response)
    (e : Engine) :
    r.step e =
      ({ r with channel := r.channel.shutdown.2, phase := .finished (.closed response) }, e) := by
  rw [step, hphase]

theorem step_finished {r : CommandRun} {ending : CommandEnd} (hphase : r.phase = .finished ending)
    (e : Engine) : r.step e = (r, e) := by
  rw [step, hphase]

@[simp] theorem ending?_lose (r : CommandRun) (error : ChannelError) (e : Engine) :
    (r.lose error e).1.ending? = some error.ending := by
  cases error <;> rfl

@[simp] theorem commands_lose (r : CommandRun) (error : ChannelError) (e : Engine) :
    (r.lose error e).1.commands = r.commands := by
  cases error <;> rfl

@[simp] theorem stream_lose (r : CommandRun) (error : ChannelError) (e : Engine) :
    (r.lose error e).1.channel.stream = r.channel.stream := by
  cases error <;> rfl

@[simp] theorem engine_lose (r : CommandRun) (error : ChannelError) (e : Engine) :
    (r.lose error e).2 = e.setConnected false := by
  cases error <;> rfl

/-! ## Dispatches -/

/-- What the next step of a run dispatches. -/
def dispatch? (r : CommandRun) (e : Engine) : Option Dispatch :=
  match r.phase with
  | .reading => (r.channel.readMessage messageCapacity).1.toOption.map fun m => e.dispatched m.bytes
  | _ => none

theorem dispatch?_reading_ok {r : CommandRun} {m : Message} {c : Channel}
    (hphase : r.phase = .reading)
    (h : r.channel.readMessage messageCapacity = (.ok m, c)) (e : Engine) :
    r.dispatch? e = some (e.dispatched m.bytes) := by
  rw [dispatch?, hphase]
  simp only [h]
  rfl

theorem dispatch?_reading_error {r : CommandRun} {error : ChannelError} {c : Channel}
    (hphase : r.phase = .reading)
    (h : r.channel.readMessage messageCapacity = (.error error, c)) (e : Engine) :
    r.dispatch? e = none := by
  rw [dispatch?, hphase]
  simp only [h]
  rfl

theorem dispatch?_of_ne {r : CommandRun} (hphase : r.phase ≠ .reading) (e : Engine) :
    r.dispatch? e = none := by
  unfold dispatch?
  split
  · contradiction
  · rfl

theorem calls_step (r : CommandRun) (e : Engine) :
    (r.step e).2.drive.calls = e.drive.calls ++ (r.dispatch? e).toList.flatMap Dispatch.calls := by
  cases hphase : r.phase with
  | reading =>
    rcases h : r.channel.readMessage messageCapacity with ⟨error | m, c⟩
    · rw [step_reading_error hphase h, dispatch?_reading_error hphase h, engine_lose]
      simp [Engine.setConnected]
    · obtain ⟨reply, -, -, hstep⟩ := step_reading_ok hphase h e
      rw [hstep, dispatch?_reading_ok hphase h, Engine.calls_follow]
      simp [Engine.dispatched]
  | answering reply =>
    rw [dispatch?_of_ne (by simp [hphase])]
    rcases h : r.channel.respond reply.response with ⟨error | n, c⟩
    · rw [step_unsent hphase h, engine_lose]
      simp [Engine.setConnected]
    · rw [step_sent hphase h]
      simp
  | closing response =>
    rw [dispatch?_of_ne (by simp [hphase]), step_closing hphase]
    simp
  | finished ending =>
    rw [dispatch?_of_ne (by simp [hphase]), step_finished hphase]
    simp

def dispatches (r : CommandRun) (e : Engine) : List Dispatch :=
  match _ : r.ending? with
  | some _ => []
  | none => (r.dispatch? e).toList ++ (r.step e).1.dispatches (r.step e).2
termination_by r.stepsLeft
decreasing_by exact stepsLeft_step ‹_›

theorem dispatches_of_ending {r : CommandRun} {ending : CommandEnd}
    (h : r.ending? = some ending) (e : Engine) : r.dispatches e = [] := by
  rw [dispatches]
  split
  · rfl
  · rename_i h'
    rw [h] at h'
    cases h'

theorem dispatches_of_none {r : CommandRun} (h : r.ending? = none) (e : Engine) :
    r.dispatches e = (r.dispatch? e).toList ++ (r.step e).1.dispatches (r.step e).2 := by
  rw [dispatches]
  split
  · rename_i h'
    rw [h] at h'
    cases h'
  · rfl

end CommandRun

end Teleop
