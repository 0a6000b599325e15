import Teleop.Proofs.Wire.Directions
import Teleop.Wire.Readiness

/-!
# What a stream takes of what it is sent

The script of a stream says how each write call goes: what it shows, how many of the bytes get
through, and whether it fails. An answer goes on from a short write as from a full one.
-/

namespace Teleop

namespace Acceptance

/-- What a write of `bytes` shows. -/
def event (bytes : Bytes) : Acceptance → StreamEvent
  | all => .wrote bytes
  | upTo limit => .wrote (bytes.take limit)
  | failure e => .writeFailed e.kind

/-- What the peer gets of a write of `bytes`. -/
def taken (bytes : Bytes) : Acceptance → Bytes
  | all => bytes
  | upTo limit => bytes.take limit
  | failure _ => []

def fault? : Acceptance → Option StreamError
  | failure e => some e
  | all | upTo _ => none

/-- There is room for all of `bytes`. -/
def Fits (bytes : Bytes) : Acceptance → Prop
  | all => True
  | upTo limit => bytes.length ≤ limit
  | failure _ => False

theorem taken_isPrefix (a : Acceptance) (bytes : Bytes) : a.taken bytes <+: bytes := by
  cases a with
  | all => exact List.prefix_rfl
  | upTo limit => exact List.take_prefix limit bytes
  | failure e => exact List.nil_prefix

theorem taken_of_fits {a : Acceptance} {bytes : Bytes} (h : a.Fits bytes) :
    a.taken bytes = bytes := by
  cases a with
  | all => rfl
  | upTo limit => exact List.take_of_length_le h
  | failure e => exact h.elim

end Acceptance

def StreamEvent.bytes : StreamEvent → Bytes
  | .wrote bytes => bytes
  | _ => []

theorem Acceptance.bytes_event (a : Acceptance) (bytes : Bytes) :
    (a.event bytes).bytes = a.taken bytes := by
  cases a <;> rfl

namespace Stream

/-- How the write call goes that comes after `k` others. -/
def acceptance (s : Stream) (k : Nat) : Acceptance := s.writes[k]?.getD .all

theorem received_eq (s : Stream) : s.received = s.sent.flatMap StreamEvent.bytes := by
  rw [received, sent]
  induction s.seen with
  | nil => rfl
  | cons event seen ih =>
    cases event <;> simp [List.filter_cons, StreamEvent.isWrite, StreamEvent.bytes, ih]

theorem received_of_sent {s s' : Stream} {events : List StreamEvent}
    (h : s'.sent = s.sent ++ events) :
    s'.received = s.received ++ events.flatMap StreamEvent.bytes := by
  rw [received_eq, h, List.flatMap_append, ← received_eq]

/-! ## The faults of an answer -/

def written (bytes : Bytes) (s : Stream) : Stream :=
  { s with writes := s.writes.drop 1 }.note ((s.acceptance 0).event bytes)

theorem write_eq (bytes : Bytes) (s : Stream) :
    s.write bytes =
      (match (s.acceptance 0).fault? with
        | some e => .error e
        | none => .ok ((s.acceptance 0).taken bytes).length, s.written bytes) := by
  unfold write written acceptance
  split <;> rename_i h <;> simp [h, Acceptance.fault?, Acceptance.taken, Acceptance.event]

theorem sent_written (bytes : Bytes) (s : Stream) :
    (s.written bytes).sent = s.sent ++ [(s.acceptance 0).event bytes] := by
  rw [sent, written, note, List.filter_append, ← sent]
  cases s.acceptance 0 <;> rfl

theorem flush_of_fault {s : Stream} {e : StreamError} (h : s.flushes.head?.join = some e) :
    s.flush = (.error e, { s with flushes := s.flushes.drop 1 }.note (.flushFailed e.kind)) := by
  obtain ⟨rest, hflushes⟩ : ∃ rest, s.flushes = some e :: rest := by
    rcases hflushes : s.flushes with _ | ⟨_ | e', rest⟩ <;> rw [hflushes] at h
    · cases h
    · cases h
    · cases h
      exact ⟨rest, rfl⟩
  simp [flush, hflushes]

theorem flush_of_none {s : Stream} (h : s.flushes.head?.join = none) :
    s.flush = (.ok (), { s with flushes := s.flushes.drop 1 }.note .flushed) := by
  unfold flush
  split
  · rename_i hflushes
    rw [hflushes] at h
    cases h
  · rfl

/-- An answer meets the fault of its write or else that of its flush, and uses up what the script
says of them. -/
theorem answer_eq (r : Response) (s : Stream) :
    (s.answer r).1 = (s.acceptance 0).fault?.or s.flushes.head?.join ∧
      (s.answer r).2.writes = s.writes.drop 1 ∧
      (s.answer r).2.flushes =
        (if (s.acceptance 0).fault?.isSome then s.flushes else s.flushes.drop 1) ∧
      (s.answer r).2.sent = s.sent ++ [(s.acceptance 0).event r.framed] := by
  have hflushed := (sent_flush (s.written r.framed)).trans (s.sent_written r.framed)
  rw [answer, write_eq]
  cases hfault : (s.acceptance 0).fault? with
  | some e => exact ⟨rfl, rfl, rfl, s.sent_written r.framed⟩
  | none =>
    dsimp only
    cases hjoin : s.flushes.head?.join with
    | some e =>
      rw [flush_of_fault (s := s.written r.framed) hjoin] at hflushed ⊢
      exact ⟨rfl, rfl, rfl, hflushed⟩
    | none =>
      rw [flush_of_none (s := s.written r.framed) hjoin] at hflushed ⊢
      exact ⟨rfl, rfl, rfl, hflushed⟩

theorem acceptance_answer (r : Response) (s : Stream) (k : Nat) :
    (s.answer r).2.acceptance k = s.acceptance (k + 1) := by
  obtain ⟨-, hwrites, -, -⟩ := answer_eq r s
  rw [acceptance, hwrites, List.getElem?_drop, Nat.add_comm, acceptance]

/-- The writes of two streams fail at the same calls with the same errors, and so do their flushes.
How much a write takes that does not fail, and how the shutdowns go, is left open. -/
structure FailAlike (s₁ s₂ : Stream) : Prop where
  writes : ∀ k, (s₁.acceptance k).fault? = (s₂.acceptance k).fault?
  flushes : s₁.flushes = s₂.flushes

theorem FailAlike.refl (s : Stream) : FailAlike s s := ⟨fun _ => rfl, rfl⟩

theorem failAlike_answer {s₁ s₂ : Stream} (h : FailAlike s₁ s₂) (r : Response) :
    (s₁.answer r).1 = (s₂.answer r).1 ∧ FailAlike (s₁.answer r).2 (s₂.answer r).2 := by
  obtain ⟨hfault₁, -, hflushes₁, -⟩ := answer_eq r s₁
  obtain ⟨hfault₂, -, hflushes₂, -⟩ := answer_eq r s₂
  refine ⟨?_, ?_, ?_⟩
  · rw [hfault₁, hfault₂, h.writes 0, h.flushes]
  · intro k
    rw [acceptance_answer, acceptance_answer, h.writes (k + 1)]
  · rw [hflushes₁, hflushes₂, h.writes 0, h.flushes]

theorem FailAlike.outgoing {s₁ s₂ : Stream} (h : FailAlike s₁ s₂) :
    FailAlike s₁.outgoing s₂.outgoing :=
  ⟨h.writes, h.flushes⟩

end Stream

end Teleop
