import Teleop.Vocabulary
import Teleop.Fault

/-!
# Scripted streams

A stream is what its peer will do: the chunks that arrive and how each write, flush and shutdown
goes. Every call takes its answer from the front of a list and leaves a mark in `seen`. When a list
is used up, reads find the end of the stream and the other calls succeed.
-/

namespace Teleop

/-- What arrives next: some bytes, or an error. No bytes at all are one read of nothing. -/
inductive Arrival where
  | chunk (bytes : Bytes)
  | failure (e : StreamError)
deriving DecidableEq, Repr

/-- How a write goes. A limit is the number of bytes that it takes at most. -/
inductive Acceptance where
  | upTo (limit : Nat)
  | all
  | failure (e : StreamError)
deriving DecidableEq, Repr

/-- What a stream saw. -/
inductive StreamEvent where
  | read (count : Nat)
  | readFailed (kind : StreamErrorKind)
  | wrote (bytes : Bytes)
  | writeFailed (kind : StreamErrorKind)
  | flushed
  | flushFailed (kind : StreamErrorKind)
  | shut
  | shutFailed (kind : StreamErrorKind)
deriving DecidableEq, Repr

structure Stream where
  arrivals : List Arrival := []
  writes : List Acceptance := []
  /-- How each flush goes: `none` if it succeeds. -/
  flushes : List (Option StreamError) := []
  /-- How each shutdown goes: `none` if it succeeds. -/
  shutdowns : List (Option StreamError) := []
  seen : List StreamEvent := []
deriving DecidableEq, Repr

/-- No read of anything finds this more often. -/
def Arrival.size : Arrival → Nat
  | .chunk bytes => bytes.length + 1
  | .failure _ => 1

namespace Stream

/-- A bound on the reads that still find something. -/
def remaining (s : Stream) : Nat := s.arrivals.foldr (fun a n => a.size + n) 0

def note (s : Stream) (e : StreamEvent) : Stream := { s with seen := s.seen ++ [e] }

/-- Reads at most `room` bytes. The rest of a chunk stays in front. -/
def read (room : Nat) (s : Stream) : Except StreamError Bytes × Stream :=
  match s.arrivals with
  | [] => (.ok [], s.note (.read 0))
  | .failure e :: rest => (.error e, { s with arrivals := rest }.note (.readFailed e.kind))
  | .chunk bytes :: rest =>
    let taken := bytes.take room
    let left := bytes.drop room
    (.ok taken, { s with
      arrivals := if left.isEmpty then rest else .chunk left :: rest }.note (.read taken.length))

/-- One write call. The answer is the number of bytes that the stream took. -/
def write (bytes : Bytes) (s : Stream) : Except StreamError Nat × Stream :=
  match s.writes with
  | [] | .all :: _ =>
    (.ok bytes.length, { s with writes := s.writes.drop 1 }.note (.wrote bytes))
  | .upTo limit :: rest =>
    let taken := bytes.take limit
    (.ok taken.length, { s with writes := rest }.note (.wrote taken))
  | .failure e :: rest => (.error e, { s with writes := rest }.note (.writeFailed e.kind))

def flush (s : Stream) : Except StreamError Unit × Stream :=
  match s.flushes with
  | some e :: rest => (.error e, { s with flushes := rest }.note (.flushFailed e.kind))
  | _ => (.ok (), { s with flushes := s.flushes.drop 1 }.note .flushed)

def shutdown (s : Stream) : Except StreamError Unit × Stream :=
  match s.shutdowns with
  | some e :: rest => (.error e, { s with shutdowns := rest }.note (.shutFailed e.kind))
  | _ => (.ok (), { s with shutdowns := s.shutdowns.drop 1 }.note .shut)

/-! ## How far a read gets -/

@[simp] theorem remaining_note (s : Stream) (e : StreamEvent) : (s.note e).remaining = s.remaining :=
  rfl

theorem remaining_read_le (room : Nat) (s : Stream) : (s.read room).2.remaining ≤ s.remaining := by
  unfold read
  split
  · simp
  · rename_i e rest h
    simp [remaining, note, h]
  · rename_i bytes rest h
    simp only [remaining, note, h, List.foldr_cons, Arrival.size]
    split
    · omega
    · simp only [List.foldr_cons, List.length_drop]
      omega

theorem remaining_read_lt {room : Nat} {s s' : Stream} {b : UInt8} {bs : Bytes}
    (h : s.read room = (.ok (b :: bs), s')) : s'.remaining + (bs.length + 1) ≤ s.remaining := by
  unfold read at h
  split at h
  · simp at h
  · simp at h
  · rename_i bytes rest harr
    simp only [Prod.mk.injEq, Except.ok.injEq] at h
    obtain ⟨htake, rfl⟩ := h
    have hlen : min room bytes.length = bs.length + 1 := by
      simpa using congrArg List.length htake
    simp only [remaining, note, harr, List.foldr_cons, Arrival.size]
    split
    · omega
    · simp only [List.foldr_cons, List.length_drop]
      omega

theorem remaining_write (bytes : Bytes) (s : Stream) :
    (s.write bytes).2.remaining = s.remaining := by
  unfold write; split <;> rfl

theorem remaining_flush (s : Stream) : s.flush.2.remaining = s.remaining := by
  unfold flush; split <;> rfl

theorem remaining_shutdown (s : Stream) : s.shutdown.2.remaining = s.remaining := by
  unfold shutdown; split <;> rfl

/-! ## Writing everything -/

theorem length_writes_of_write_error {bytes : Bytes} {s s' : Stream} {e : StreamError}
    (h : s.write bytes = (.error e, s')) : s'.writes.length < s.writes.length := by
  unfold write at h
  split at h
  · simp at h
  · simp at h
  · simp at h
  · rename_i hw
    simp only [Prod.mk.injEq, Except.error.injEq] at h
    obtain ⟨-, rfl⟩ := h
    simp [note, hw]

theorem length_writes_write_le (bytes : Bytes) (s : Stream) :
    (s.write bytes).2.writes.length ≤ s.writes.length := by
  unfold write
  split <;> simp_all [note]

/-- Writes until all of `bytes` is taken. A write that was interrupted is tried again; a write that
takes nothing is an error. -/
def writeAll (bytes : Bytes) (s : Stream) : Except StreamError Unit × Stream :=
  match bytes with
  | [] => (.ok (), s)
  | b :: bs =>
    match _ : s.write (b :: bs) with
    | (.error e, s') =>
      if e.kind = .interrupted then writeAll (b :: bs) s' else (.error e, s')
    | (.ok 0, s') => (.error .writeZero, s')
    | (.ok (n + 1), s') => writeAll (bs.drop n) s'
termination_by bytes.length + s.writes.length
decreasing_by
  · have := length_writes_of_write_error ‹s.write (b :: bs) = _›
    omega
  · have := length_writes_write_le (b :: bs) s
    simp only [‹s.write (b :: bs) = _›] at this
    simp only [List.length_cons, List.length_drop]
    omega

end Stream

end Teleop
