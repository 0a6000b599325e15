import Teleop.Wire.Channel
import Teleop.Session.Dispatch

/-!
# The command channel

A run serves one channel: it reads a message, answers it, and goes on until an answer closes the
channel, the peer is gone or the stream fails. It moves in steps, one for each call on the channel
that it has to wait for, so that a run can be stopped between any two of them.
-/

namespace Teleop

inductive CommandEnd where
  /-- The channel was closed behind this response. -/
  | closed (r : Response)
  | peerDisconnected
  | transportFailed (e : StreamError)
deriving DecidableEq, Repr

structure CommandReport where
  commands : Nat
  ending : CommandEnd
deriving DecidableEq, Repr

inductive CommandPhase where
  | reading
  /-- A message was dispatched and its answer is not yet sent. -/
  | answering (reply : Reply)
  | closing (r : Response)
  | finished (ending : CommandEnd)
deriving DecidableEq, Repr

/-- A run on its way. -/
structure CommandRun where
  channel : Channel
  phase : CommandPhase := .reading
  commands : Nat := 0

/-- A bound on the waits that are left before the next read. -/
def CommandPhase.waits : CommandPhase → Nat
  | finished _ => 0
  | reading | closing _ => 1
  | answering _ => 2

namespace CommandRun

def ending? (r : CommandRun) : Option CommandEnd :=
  match r.phase with
  | .finished ending => some ending
  | _ => none

/-- Ends a run whose channel is lost. The session is disconnected then. -/
def lose (r : CommandRun) (error : ChannelError) (e : Engine) : CommandRun × Engine :=
  match error with
  | .disconnected => ({ r with phase := .finished .peerDisconnected }, e.setConnected false)
  | .stream error =>
    ({ r with
        channel := r.channel.warn [.commandTransportFailed error]
        phase := .finished (.transportFailed error) }, e.setConnected false)

/-- The run up to its next wait. -/
def step (r : CommandRun) (e : Engine) : CommandRun × Engine :=
  match r.phase with
  | .reading =>
    match r.channel.readMessage messageCapacity with
    | (.error error, c) => { r with channel := c }.lose error e
    | (.ok m, c) =>
      let (reply, e) := { e with handled := e.handled + 1 }.dispatch m.bytes
      ({ channel := c.warn reply.notices, phase := .answering reply, commands := r.commands + 1 }, e)
  | .answering reply =>
    match r.channel.respond reply.response with
    | (.error error, c) => { r with channel := c }.lose error e
    | (.ok _, c) =>
      ({ r with
          channel := c
          phase := if reply.close then .closing reply.response else .reading }, e)
  | .closing response =>
    ({ r with channel := r.channel.shutdown.2, phase := .finished (.closed response) }, e)
  | .finished _ => (r, e)

/-! ## Running to the end -/

/-- A bound on the steps that are left. -/
def stepsLeft (r : CommandRun) : Nat := 4 * r.channel.unread + r.phase.waits

theorem stepsLeft_lose (r : CommandRun) (error : ChannelError) (e : Engine) :
    (r.lose error e).1.stepsLeft = 4 * r.channel.unread := by
  cases error <;> rfl

theorem stepsLeft_step {r : CommandRun} {e : Engine} (h : r.ending? = none) :
    (r.step e).1.stepsLeft < r.stepsLeft := by
  unfold step
  split
  · rename_i hp
    split
    · rename_i error c hr
      have hc : c.unread ≤ r.channel.unread := by
        simpa [hr] using Channel.unread_readMessage_le messageCapacity r.channel
      rw [stepsLeft_lose]
      simp only [stepsLeft, hp, CommandPhase.waits]
      omega
    · rename_i m c hr
      have hc := Channel.unread_readMessage_lt hr
      simp only [stepsLeft, hp, CommandPhase.waits, Channel.unread_warn]
      omega
  · rename_i reply hp
    have hs := Channel.unread_send reply.response.framed r.channel
    split <;> rename_i hr <;> rw [Channel.respond] at hr <;> simp only [hr] at hs
    · rw [stepsLeft_lose]
      simp only [stepsLeft, hp, hs, CommandPhase.waits]
      omega
    · simp only [stepsLeft, hp, hs]
      split <;> simp [CommandPhase.waits]
  · rename_i response hp
    simp [stepsLeft, hp, CommandPhase.waits, Channel.unread_shutdown]
  · rename_i ending hp
    simp [ending?, hp] at h

/-- The run as it ends, and how it ended. -/
def finish (r : CommandRun) (e : Engine) : CommandEnd × CommandRun × Engine :=
  match _ : r.ending? with
  | some ending => (ending, r, e)
  | none => finish (r.step e).1 (r.step e).2
termination_by r.stepsLeft
decreasing_by exact stepsLeft_step ‹_›

end CommandRun

/-- Serves a stream to its end. -/
def Engine.serve (e : Engine) (s : Stream) : CommandReport × Channel × Engine :=
  let (ending, r, e) := CommandRun.finish { channel := { stream := s } } e
  ({ commands := r.commands, ending := ending }, r.channel, e)

end Teleop
