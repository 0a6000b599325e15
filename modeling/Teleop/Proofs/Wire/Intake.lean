import Mathlib.Logic.Function.Iterate
import Teleop.Proofs.Wire.Items

/-!
# A message step by step

Reading a message takes turns between the stream and the buffer: when the buffer is empty, one read
of the stream fills it, and when it is not, it is used up as far as the first terminator. These
steps are the finest that a reader can be watched at, and they end where `readMessage` does.
-/

namespace Teleop

inductive ReadProgress where
  /-- This much of the message is there. -/
  | going (m : Message)
  | over (result : Except ChannelError Message)

/-- A channel on which a message is being read. -/
structure Intake where
  channel : Channel
  progress : ReadProgress := .going {}

namespace Intake

/-- One read of the stream, into the empty buffer. -/
def fill (m : Message) (c : Channel) : Intake :=
  match c.stream.read frameSize with
  | (.error e, s) => ⟨{ c with stream := s }, .over (.error (Channel.readError e))⟩
  | (.ok [], s) => ⟨{ c with stream := s }, .over (.error .disconnected)⟩
  | (.ok (b :: bs), s) => ⟨{ c with stream := s, buffer := b :: bs }, .going m⟩

/-- Uses up the buffer as far as the first terminator. -/
def use (capacity : Nat) (m : Message) (c : Channel) : Intake :=
  match splitLine c.buffer with
  | (payload, some rest) =>
    let m := m.add capacity payload
    ⟨{ c with buffer := rest }.warn (m.notices capacity), .over (.ok m)⟩
  | (payload, none) => ⟨{ c with buffer := [] }, .going (m.add capacity payload)⟩

def step (capacity : Nat) (i : Intake) : Intake :=
  match i.progress with
  | .over _ => i
  | .going m => if i.channel.buffer = [] then fill m i.channel else use capacity m i.channel

variable (capacity : Nat)

theorem step_over (c : Channel) (result : Except ChannelError Message) :
    step capacity ⟨c, .over result⟩ = ⟨c, .over result⟩ :=
  rfl

theorem step_empty {c : Channel} (h : c.buffer = []) (m : Message) :
    step capacity ⟨c, .going m⟩ = fill m c := by
  simp only [step, h, if_true]

theorem step_filled {c : Channel} (h : c.buffer ≠ []) (m : Message) :
    step capacity ⟨c, .going m⟩ = use capacity m c := by
  simp only [step, h, if_false]

theorem iterate_over (c : Channel) (result : Except ChannelError Message) (n : Nat) :
    (step capacity)^[n] ⟨c, .over result⟩ = ⟨c, .over result⟩ :=
  Function.iterate_fixed (step_over capacity c result) n

/-! ## The stream is left alone while there is something in the buffer -/

theorem stream_step {i : Intake} (h : i.channel.buffer ≠ []) :
    (i.step capacity).channel.stream = i.channel.stream := by
  rcases i with ⟨c, m | result⟩
  · rw [step_filled capacity h, use]
    split <;> rfl
  · rfl

theorem step_of_terminator {c : Channel} {m : Message} (h : terminator ∈ c.buffer) :
    ∃ c' result, step capacity ⟨c, .going m⟩ = ⟨c', .over result⟩ ∧ c'.stream = c.stream := by
  rw [step_filled capacity (List.ne_nil_of_mem h), use]
  split
  · exact ⟨_, _, rfl, rfl⟩
  · rename_i hline
    exact absurd h (splitLine_none hline).2

/-! ## The steps end where the message does -/

theorem add_nil (m : Message) : m.add capacity [] = m := by
  simp [Message.add]

theorem exists_emptied {c : Channel} {payload : Bytes}
    (hline : splitLine c.buffer = (payload, none)) (m : Message) :
    ∃ n, (step capacity)^[n] ⟨c, .going m⟩ =
      ⟨{ c with buffer := [] }, .going (m.add capacity payload)⟩ := by
  by_cases hbuffer : c.buffer = []
  · obtain rfl : payload = [] := (splitLine_none hline).1.trans hbuffer
    refine ⟨0, ?_⟩
    rw [add_nil, ← hbuffer]
    rfl
  · refine ⟨1, ?_⟩
    rw [Function.iterate_one, step_filled capacity hbuffer, use, hline]

theorem exists_end (m : Message) (c : Channel) :
    ∃ n, (step capacity)^[n] ⟨c, .going m⟩ =
      ⟨(c.readFrom capacity m).2, .over (c.readFrom capacity m).1⟩ := by
  fun_induction Channel.readFrom capacity m c with
  | case1 m c payload rest hline =>
    have hbuffer : c.buffer ≠ [] := by
      rw [(splitLine_some hline).1]
      simp
    refine ⟨1, ?_⟩
    rw [Function.iterate_one, step_filled capacity hbuffer, use, hline]
  | case2 m c payload hline e s hread =>
    obtain ⟨n, hn⟩ := exists_emptied capacity hline m
    refine ⟨n + 1, ?_⟩
    rw [Function.iterate_succ_apply', hn, step_empty capacity rfl, fill, hread]
  | case3 m c payload hline s hread =>
    obtain ⟨n, hn⟩ := exists_emptied capacity hline m
    refine ⟨n + 1, ?_⟩
    rw [Function.iterate_succ_apply', hn, step_empty capacity rfl, fill, hread]
  | case4 m c payload hline b bs s hread ih =>
    obtain ⟨n, hn⟩ := exists_emptied capacity hline m
    obtain ⟨k, hk⟩ := ih
    refine ⟨k + (n + 1), ?_⟩
    rw [Function.iterate_add_apply, Function.iterate_succ_apply', hn, step_empty capacity rfl, fill,
      hread, ← hk]

theorem exists_read (c : Channel) :
    ∃ n, ∀ k, n ≤ k → (step capacity)^[k] { channel := c } =
      ⟨(c.readMessage capacity).2, .over (c.readMessage capacity).1⟩ := by
  obtain ⟨n, hn⟩ := exists_end capacity {} c
  refine ⟨n, fun k hk => ?_⟩
  obtain ⟨j, rfl⟩ := Nat.exists_eq_add_of_le' hk
  rw [Function.iterate_add_apply, hn, iterate_over]
  rfl

theorem stream_of_terminator {c : Channel} {n : Nat}
    (h : terminator ∈ ((step capacity)^[n] { channel := c }).channel.buffer) :
    (c.readMessage capacity).2.stream = ((step capacity)^[n] { channel := c }).channel.stream := by
  obtain ⟨last, hlast⟩ := exists_read capacity c
  have hend := hlast (last + (n + 1)) (Nat.le_add_right _ _)
  rw [Function.iterate_add_apply, Function.iterate_succ_apply'] at hend
  generalize (step capacity)^[n] { channel := c } = i at h hend ⊢
  rcases i with ⟨c', m | result⟩
  · obtain ⟨c'', result, hstep, hstream⟩ := step_of_terminator capacity (m := m) h
    rw [hstep, iterate_over] at hend
    rw [← hstream, (Intake.mk.inj hend).1]
  · rw [step_over, iterate_over] at hend
    rw [← (Intake.mk.inj hend).1]

end Intake

end Teleop
