import Teleop.Wire.Stream

/-!
# Framed channels

A channel reads lines from a stream through a buffer of one frame and writes lines and raw frames to
it. A line may be longer than its reader wants: the reader keeps the first bytes, drops the others
and counts them.
-/

namespace Teleop

inductive ChannelError where
  /-- The peer is gone: a read found the end of the stream. -/
  | disconnected
  | stream (e : StreamError)
deriving DecidableEq, Repr

def ChannelError.message : ChannelError → String
  | disconnected => "peer disconnected"
  | stream e => "transport error: " ++ e.text

/-- A line without its terminator. -/
structure Message where
  bytes : Bytes := []
  /-- The bytes of the line that did not fit. -/
  dropped : Nat := 0
deriving DecidableEq, Repr

namespace Message

def isTruncated (m : Message) : Bool := 0 < m.dropped

def text (m : Message) : String := Text.lossy m.bytes

/-- Puts more of the line behind what is there, as far as it fits. -/
def add (capacity : Nat) (m : Message) (payload : Bytes) : Message :=
  let kept := payload.take (capacity - m.bytes.length)
  { bytes := m.bytes ++ kept, dropped := m.dropped + (payload.length - kept.length) }

def notices (capacity : Nat) (m : Message) : List Notice :=
  if m.isTruncated then [.messageTooLong capacity m.dropped] else []

end Message

/-- The bytes before the first terminator, and those behind it if there is one. -/
def splitLine (bytes : Bytes) : Bytes × Option Bytes :=
  match bytes.dropWhile (· != terminator) with
  | [] => (bytes, none)
  | _ :: rest => (bytes.takeWhile (· != terminator), some rest)

theorem length_of_splitLine {bytes payload rest : Bytes}
    (h : splitLine bytes = (payload, some rest)) :
    bytes.length = payload.length + 1 + rest.length := by
  unfold splitLine at h
  split at h
  · simp at h
  · rename_i b tail hdrop
    simp only [Prod.mk.injEq, Option.some.injEq] at h
    obtain ⟨rfl, rfl⟩ := h
    have := congrArg List.length (List.takeWhile_append_dropWhile (p := (· != terminator)) (l := bytes))
    rw [hdrop] at this
    simp only [List.length_append, List.length_cons] at this
    omega

structure Channel where
  stream : Stream
  /-- What was read from the stream and not yet used. -/
  buffer : Bytes := []
  /-- What went to the log so far. -/
  notices : List Notice := []

namespace Channel

def warn (c : Channel) (ns : List Notice) : Channel := { c with notices := c.notices ++ ns }

/-- A bound on what the channel can still read. -/
def unread (c : Channel) : Nat := c.stream.remaining + c.buffer.length

@[simp] theorem unread_warn (c : Channel) (ns : List Notice) : (c.warn ns).unread = c.unread := rfl

/-! ## Reading -/

/-- The error of a message for an error of a read. -/
def readError (e : StreamError) : ChannelError :=
  if e.kind = .unexpectedEof then .disconnected else .stream e

/-- Goes on with a message of which `m` is there. The stream is read only when the buffer holds no
terminator, and what follows a terminator stays in the buffer. -/
def readFrom (capacity : Nat) (m : Message) (c : Channel) : Except ChannelError Message × Channel :=
  match splitLine c.buffer with
  | (payload, some rest) =>
    let m := m.add capacity payload
    (.ok m, { c with buffer := rest }.warn (m.notices capacity))
  | (payload, none) =>
    match _ : c.stream.read frameSize with
    | (.error e, s) => (.error (readError e), { c with stream := s, buffer := [] })
    | (.ok [], s) => (.error .disconnected, { c with stream := s, buffer := [] })
    | (.ok (b :: bs), s) =>
      readFrom capacity (m.add capacity payload) { c with stream := s, buffer := b :: bs }
termination_by c.stream.remaining
decreasing_by
  have := Stream.remaining_read_lt ‹c.stream.read frameSize = _›
  omega

/-- Reads a line and keeps at most `capacity` bytes of it. -/
def readMessage (capacity : Nat) (c : Channel) : Except ChannelError Message × Channel :=
  c.readFrom capacity {}

theorem unread_readFrom (capacity : Nat) (m : Message) (c : Channel) :
    (∀ m' c', c.readFrom capacity m = (.ok m', c') → c'.unread < c.unread) ∧
      (c.readFrom capacity m).2.unread ≤ c.unread := by
  fun_induction readFrom capacity m c with
  | case1 m c payload rest hline m' =>
    have := length_of_splitLine hline
    simp only [unread, warn]
    grind
  | case2 m c payload hline e s hread =>
    have : s.remaining ≤ c.stream.remaining := by
      simpa [hread] using Stream.remaining_read_le frameSize c.stream
    exact ⟨by simp, by simp only [unread, List.length_nil]; omega⟩
  | case3 m c payload hline s hread =>
    have : s.remaining ≤ c.stream.remaining := by
      simpa [hread] using Stream.remaining_read_le frameSize c.stream
    exact ⟨by simp, by simp only [unread, List.length_nil]; omega⟩
  | case4 m c payload hline b bs s hread ih =>
    have := Stream.remaining_read_lt hread
    have hu : Channel.unread { c with stream := s, buffer := b :: bs } ≤ c.unread := by
      simp only [unread, List.length_cons]; omega
    exact ⟨fun m' c' h => Nat.lt_of_lt_of_le (ih.1 m' c' h) hu, Nat.le_trans ih.2 hu⟩

theorem unread_readMessage_lt {capacity : Nat} {c c' : Channel} {m : Message}
    (h : c.readMessage capacity = (.ok m, c')) : c'.unread < c.unread :=
  (unread_readFrom capacity {} c).1 m c' h

theorem unread_readMessage_le (capacity : Nat) (c : Channel) :
    (c.readMessage capacity).2.unread ≤ c.unread :=
  (unread_readFrom capacity {} c).2

/-! ## Writing -/

/-- Writes `bytes` with one call and flushes. A short write goes to the log and is not repeated. -/
def send (bytes : Bytes) (c : Channel) : Except ChannelError Nat × Channel :=
  match c.stream.write bytes with
  | (.error e, s) => (.error (.stream e), { c with stream := s })
  | (.ok n, s) =>
    match s.flush with
    | (.error e, s) => (.error (.stream e), { c with stream := s })
    | (.ok _, s) =>
      (.ok n, { c with stream := s }.warn
        (if n < bytes.length then [.shortWrite bytes.length n] else []))

def respond (r : Response) (c : Channel) : Except ChannelError Nat × Channel := c.send r.framed

/-- Writes all of a frame, without a flush. -/
def sendFrame (frame : Bytes) (c : Channel) : Except ChannelError Nat × Channel :=
  match c.stream.writeAll frame with
  | (.error e, s) => (.error (.stream e), { c with stream := s })
  | (.ok _, s) => (.ok frame.length, { c with stream := s })

def flush (c : Channel) : Except ChannelError Unit × Channel :=
  match c.stream.flush with
  | (.error e, s) => (.error (.stream e), { c with stream := s })
  | (.ok _, s) => (.ok (), { c with stream := s })

def shutdown (c : Channel) : Except ChannelError Unit × Channel :=
  match c.stream.shutdown with
  | (.error e, s) => (.error (.stream e), { c with stream := s })
  | (.ok _, s) => (.ok (), { c with stream := s })

/-! Writing does not touch what there is to read. -/

theorem unread_send (bytes : Bytes) (c : Channel) : (c.send bytes).2.unread = c.unread := by
  have hw := Stream.remaining_write bytes c.stream
  unfold send
  split
  · rename_i h; simp only [h] at hw; simp [unread, hw]
  · rename_i n s h
    simp only [h] at hw
    have hf := Stream.remaining_flush s
    split <;> rename_i h <;> simp only [h] at hf <;> simp [unread, warn, hf, hw]

theorem unread_shutdown (c : Channel) : c.shutdown.2.unread = c.unread := by
  have hs := Stream.remaining_shutdown c.stream
  unfold shutdown
  split <;> rename_i h <;> simp only [h] at hs <;> simp [unread, hs]

end Channel

end Teleop
