import Mathlib.Algebra.Ring.Nat
import Mathlib.Data.List.Forall2
import Teleop.Proofs.Wire.Intake
import Teleop.Proofs.Wire.Messages

/-!
# Where the bytes of a stream go

Every byte that is taken from a stream goes into one message, is dropped from one, ends one, is lost
with a message that fails, or is still in the buffer. The ledger holds at every step of every
message, and it says how full the buffer can be and when the stream is left alone.
-/

namespace Teleop

/-! ## What is taken from a stream -/

def StreamEvent.count : StreamEvent → Nat
  | .read n => n
  | _ => 0

/-- The bytes that the reads of a stream brought so far. -/
def Stream.taken (s : Stream) : Nat := (s.seen.map StreamEvent.count).sum

def countBytes (items : List Item) : Nat := (items.filterMap Item.byte?).length

theorem countBytes_append (a b : List Item) :
    countBytes (a ++ b) = countBytes a + countBytes b := by
  rw [countBytes, List.filterMap_append, List.length_append, countBytes, countBytes]

theorem countBytes_map_byte (bytes : Bytes) : countBytes (bytes.map .byte) = bytes.length := by
  rw [countBytes, List.filterMap_map]
  exact congrArg List.length List.filterMap_some

theorem Stream.taken_note (s : Stream) (e : StreamEvent) :
    (s.note e).taken = s.taken + e.count := by
  simp [taken, note]

theorem Stream.taken_read {room : Nat} (hroom : 0 < room) (s : Stream) :
    (s.read room).2.taken + countBytes (s.read room).2.items = s.taken + countBytes s.items := by
  have htaken : (s.read room).2.taken =
      s.taken + (match (s.read room).1 with | .ok bytes => bytes.length | .error _ => 0) := by
    unfold read
    split <;> simp [taken_note, StreamEvent.count] <;> rfl
  rcases hread : s.read room with ⟨e | bytes, s'⟩ <;> rw [hread] at htaken
  · rw [items_read_error hroom hread, htaken]
    rfl
  · cases bytes with
    | nil =>
      rcases items_read_nothing hroom hread with hitems | ⟨hitems, hrest⟩
      · rw [hitems, htaken]
        rfl
      · rw [hitems, hrest, htaken]
        rfl
    | cons b bs =>
      rw [items_read_bytes hroom hread, countBytes_append, countBytes_map_byte, htaken]
      exact Nat.add_assoc _ _ _

theorem Stream.length_read_le {room : Nat} {s s' : Stream} {bytes : Bytes}
    (h : s.read room = (.ok bytes, s')) : bytes.length ≤ room := by
  unfold read at h
  split at h <;> obtain ⟨hbytes, -⟩ := Prod.mk.inj h
  · obtain rfl := Except.ok.inj hbytes
    exact Nat.zero_le room
  · cases hbytes
  · obtain rfl := Except.ok.inj hbytes
    exact List.length_take_le room _

theorem Channel.items_of_empty {c : Channel} (h : c.buffer = []) : c.items = c.stream.items := by
  rw [items, h]
  rfl

/-! ## The account of a message -/

/-- The items that reading a message has used up. Of a line the first bytes are kept, as many as
were asked for, and the others are dropped. -/
inductive ReadProgress.Uses (capacity : Nat) : ReadProgress → List Item → Prop
  | going {line : Bytes} (h : terminator ∉ line) :
    Uses capacity (.going (.cut capacity line)) (line.map .byte)
  | message {line : Bytes} (h : terminator ∉ line) :
    Uses capacity (.over (.ok (.cut capacity line))) (line.map .byte ++ [.byte terminator])
  | nothing {lost : Bytes} (h : terminator ∉ lost) :
    Uses capacity (.over (.error .disconnected)) (lost.map .byte ++ [.nothing])
  /-- The stream was at its end. -/
  | ending {lost : Bytes} (h : terminator ∉ lost) :
    Uses capacity (.over (.error .disconnected)) (lost.map .byte)
  | failure {lost : Bytes} (h : terminator ∉ lost) (e : StreamError) :
    Uses capacity (.over (.error (Channel.readError e))) (lost.map .byte ++ [.failure e])

namespace Intake

/-- The intake `i` is on its way with a message that began on the channel `c`. -/
structure OnItsWay (c : Channel) (capacity : Nat) (i : Intake) : Prop where
  room : i.channel.buffer.length ≤ frameSize
  gap : ∀ m, i.progress = .over (.ok m) → i.channel.buffer.length < frameSize
  ledger : ∃ used, i.progress.Uses capacity used ∧ c.items = used ++ i.channel.items
  taken : i.channel.stream.taken + countBytes i.channel.stream.items =
    c.stream.taken + countBytes c.stream.items

variable {c : Channel} {capacity : Nat}

theorem onItsWay_begin (h : c.buffer.length ≤ frameSize) :
    OnItsWay c capacity { channel := c } where
  room := h
  gap := nofun
  ledger := by
    have hnone : terminator ∉ ([] : Bytes) := List.not_mem_nil
    have huses : (ReadProgress.going (.cut capacity [])).Uses capacity [] := .going hnone
    rw [Message.cut_nil] at huses
    exact ⟨[], huses, rfl⟩
  taken := rfl

theorem onItsWay_fill {c' : Channel} {m : Message} (h : OnItsWay c capacity ⟨c', .going m⟩)
    (hbuffer : c'.buffer = []) : OnItsWay c capacity (fill m c') := by
  obtain ⟨used, huses, hitems⟩ := h.ledger
  have hframe : 0 < frameSize := by decide
  have htaken := (Stream.taken_read hframe c'.stream).trans h.taken
  rw [Channel.items_of_empty (c := c') hbuffer] at hitems
  cases huses with
  | @going line hline =>
    unfold fill
    -- The buffer is empty, so the account grows by what the read meets, if that ends the message.
    rcases hread : c'.stream.read frameSize with ⟨e | _ | ⟨b, bs⟩, s⟩ <;> rw [hread] at htaken <;>
      have hrest : ({ c' with stream := s } : Channel).items = s.items :=
        Channel.items_of_empty hbuffer
    · have hstream := items_read_error hframe hread
      refine ⟨h.room, nofun, ⟨_, .failure hline e, ?_⟩, htaken⟩
      rw [hitems, hstream, hrest, List.append_assoc]
      rfl
    · rcases items_read_nothing hframe hread with hstream | ⟨hstream, hnone⟩
      · refine ⟨h.room, nofun, ⟨_, .nothing hline, ?_⟩, htaken⟩
        rw [hitems, hstream, hrest, List.append_assoc]
        rfl
      · refine ⟨h.room, nofun, ⟨_, .ending hline, ?_⟩, htaken⟩
        rw [hitems, hstream, hrest, hnone]
    · have hstream := items_read_bytes hframe hread
      refine ⟨Stream.length_read_le hread, nofun, ⟨_, .going hline, ?_⟩, htaken⟩
      rw [hitems, hstream]
      rfl

theorem onItsWay_use {c' : Channel} {m : Message} (h : OnItsWay c capacity ⟨c', .going m⟩) :
    OnItsWay c capacity (use capacity m c') := by
  obtain ⟨used, huses, hitems⟩ := h.ledger
  have hroom := h.room
  cases huses with
  | @going line hline =>
    unfold use
    rcases hsplit : splitLine c'.buffer with ⟨payload, _ | rest⟩
    · obtain ⟨rfl, hpayload⟩ := splitLine_none hsplit
      dsimp only
      rw [Message.add_cut]
      have hboth : terminator ∉ line ++ c'.buffer := by simp [hline, hpayload]
      refine ⟨Nat.zero_le _, nofun, ⟨_, .going hboth, ?_⟩, h.taken⟩
      rw [hitems, Channel.items, Channel.items, List.map_append, List.append_assoc]
      rfl
    · obtain ⟨hbuffer, hpayload⟩ := splitLine_some hsplit
      have hlength : rest.length < frameSize := by
        simp only [hbuffer, List.length_append, List.length_cons] at hroom
        omega
      dsimp only
      rw [Message.add_cut]
      have hboth : terminator ∉ line ++ payload := by simp [hline, hpayload]
      refine ⟨Nat.le_of_lt hlength, fun _ _ => hlength, ⟨_, .message hboth, ?_⟩, h.taken⟩
      rw [hitems, Channel.items, hbuffer]
      simp [Channel.items, Channel.warn]

theorem onItsWay_step {i : Intake} (h : OnItsWay c capacity i) :
    OnItsWay c capacity (i.step capacity) := by
  rcases i with ⟨c', m | result⟩
  · by_cases hbuffer : c'.buffer = []
    · rw [step_empty capacity hbuffer]
      exact onItsWay_fill h hbuffer
    · rw [step_filled capacity hbuffer]
      exact onItsWay_use h
  · exact h

theorem onItsWay_iterate (h : c.buffer.length ≤ frameSize) (capacity n : Nat) :
    OnItsWay c capacity ((step capacity)^[n] { channel := c }) := by
  induction n with
  | zero => exact onItsWay_begin h
  | succ n ih =>
    rw [Function.iterate_succ_apply']
    exact onItsWay_step ih

theorem onItsWay_readMessage (h : c.buffer.length ≤ frameSize) (capacity : Nat) :
    OnItsWay c capacity ⟨(c.readMessage capacity).2, .over (c.readMessage capacity).1⟩ := by
  obtain ⟨n, hn⟩ := exists_read capacity c
  rw [← hn n (Nat.le_refl n)]
  exact onItsWay_iterate h capacity n

end Intake

/-! ## The accounts of all messages -/

/-- What each message used up, one after the other, with what was asked for and what came of it. -/
def Accounts (calls : List (Nat × Except ChannelError Message)) (accounts : List (List Item)) :
    Prop :=
  List.Forall₂ (fun call used => ReadProgress.Uses call.1 (.over call.2) used) calls accounts

namespace Channel

theorem accounts_readMessages {c : Channel} (h : c.buffer.length ≤ frameSize)
    (capacities : List Nat) :
    let read := c.readMessages capacities
    read.2.buffer.length ≤ frameSize ∧
      (∃ accounts, Accounts (capacities.zip read.1) accounts ∧
        c.items = accounts.flatten ++ read.2.items) ∧
      read.2.stream.taken + countBytes read.2.stream.items =
        c.stream.taken + countBytes c.stream.items := by
  induction capacities generalizing c with
  | nil => exact ⟨h, ⟨[], .nil, rfl⟩, rfl⟩
  | cons capacity capacities ih =>
    have hfirst := Intake.onItsWay_readMessage h capacity
    obtain ⟨used, huses, hused⟩ := hfirst.ledger
    obtain ⟨hroom, ⟨accounts, haccounts, hitems⟩, htaken⟩ := ih hfirst.room
    rw [readMessages_cons]
    refine ⟨hroom, ⟨used :: accounts, .cons huses haccounts, ?_⟩, htaken.trans hfirst.taken⟩
    rw [hused, hitems, List.flatten_cons, List.append_assoc]

end Channel

/-- What holds while a message is read behind others: `calls` are those that are over and `i` is how
far the next one is. -/
structure Stream.Accounted (s : Stream) (calls : List (Nat × Except ChannelError Message))
    (capacity : Nat) (i : Intake) : Prop where
  room : i.channel.buffer.length ≤ frameSize
  gap : ∀ m, i.progress = .over (.ok m) → i.channel.buffer.length ≤ frameSize - 1
  /-- All that was to come from the stream, in order, is in the account of a message, in the buffer
  or still to come, and the reads brought no more than that. -/
  ledger : ∃ accounts used, Accounts calls accounts ∧ i.progress.Uses capacity used ∧
    s.items = accounts.flatten ++ used ++ i.channel.buffer.map .byte ++ i.channel.stream.items ∧
    i.channel.stream.taken =
      s.taken + countBytes (accounts.flatten ++ used) + i.channel.buffer.length

theorem accounted_iterate (s : Stream) (capacities : List Nat) (capacity n : Nat) :
    let earlier := Channel.readMessages { stream := s } capacities
    s.Accounted (capacities.zip earlier.1) capacity
      ((Intake.step capacity)^[n] { channel := earlier.2 }) := by
  obtain ⟨hroom, ⟨accounts, haccounts, hearlier⟩, htaken⟩ :=
    Channel.accounts_readMessages (c := { stream := s }) (Nat.zero_le frameSize) capacities
  have hway := Intake.onItsWay_iterate hroom capacity n
  dsimp only
  generalize (Intake.step capacity)^[n] _ = i at hway ⊢
  obtain ⟨used, huses, hused⟩ := hway.ledger
  have hitems : s.items =
      accounts.flatten ++ used ++ i.channel.buffer.map .byte ++ i.channel.stream.items := calc
    s.items = accounts.flatten ++ (used ++ i.channel.items) := hused ▸ hearlier
    _ = _ := by rw [Channel.items, ← List.append_assoc, ← List.append_assoc]
  have hcount : _ = s.taken + countBytes s.items := hway.taken.trans htaken
  refine ⟨hway.room, fun m hover => Nat.le_pred_of_lt (hway.gap m hover),
    accounts, used, haccounts, huses, hitems, ?_⟩
  rw [hitems, countBytes_append, countBytes_append, countBytes_map_byte] at hcount
  omega

/-- **No byte is lost, doubled or moved, and the stream is read only when the buffer is empty.**
Once a terminator is there, the message is read without another look at the stream. -/
theorem reads_accounted_for (s : Stream) (capacities : List Nat) (capacity : Nat) :
    let earlier := Channel.readMessages { stream := s } capacities
    let point := fun n => (Intake.step capacity)^[n] { channel := earlier.2 }
    (∀ n, s.Accounted (capacities.zip earlier.1) capacity (point n) ∧
        ((point n).channel.buffer ≠ [] →
          (point (n + 1)).channel.stream = (point n).channel.stream) ∧
        (terminator ∈ (point n).channel.buffer →
          (earlier.2.readMessage capacity).2.stream = (point n).channel.stream)) ∧
      ∃ n, ∀ k, n ≤ k → point k =
        ⟨(earlier.2.readMessage capacity).2, .over (earlier.2.readMessage capacity).1⟩ := by
  intro earlier point
  refine ⟨fun n => ⟨?_, ?_, ?_⟩, ?_⟩
  · exact accounted_iterate s capacities capacity n
  · intro hbuffer
    dsimp only [point]
    rw [Function.iterate_succ_apply']
    exact Intake.stream_step capacity hbuffer
  · exact Intake.stream_of_terminator capacity
  · exact Intake.exists_read capacity earlier.2

end Teleop
