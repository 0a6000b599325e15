import Teleop.Proofs.Wire.Acceptance

/-!
# Writes that are repeated until all is taken

A frame gets through in as many writes as it takes. What gets through is always the front of the
frame, and the first write that fails or takes nothing is the last one, unless it was interrupted.
-/

namespace Teleop

namespace StreamEvent

/-- A call that was made for bytes, and behind which the next one is made. -/
def goesOn : StreamEvent → Bool
  | .read _ => true
  | .wrote bytes => !bytes.isEmpty
  | .writeFailed kind => kind == .interrupted
  | .readFailed _ | .flushed | .flushFailed _ | .shut | .shutFailed _ => false

/-- A call that failed, or a write that took nothing. A write that was interrupted is tried again
and is no fault. -/
def isFault : StreamEvent → Bool
  | .readFailed _ | .flushFailed _ | .shutFailed _ => true
  | .wrote bytes => bytes.isEmpty
  | .writeFailed kind => kind != .interrupted
  | .read _ | .flushed | .shut => false

theorem isFault_of_goesOn {e : StreamEvent} (h : e.goesOn = true) : e.isFault = false := by
  cases e <;> simp_all [goesOn, isFault]

end StreamEvent

/-- The write call that the script answers in this way ends the frame with an error. -/
inductive Acceptance.Refuses : Acceptance → StreamEvent → StreamError → Prop
  | failed {e : StreamError} (h : e.kind ≠ .interrupted) :
    Refuses (.failure e) (.writeFailed e.kind) e
  | tookNothing : Refuses (.upTo 0) (.wrote []) .writeZero

namespace Stream

/-! ## One write -/

theorem write_error {bytes : Bytes} {s s' : Stream} {e : StreamError}
    (h : s.write bytes = (.error e, s')) :
    s.writes = .failure e :: s'.writes ∧ s'.flushes = s.flushes ∧
      s'.seen = s.seen ++ [.writeFailed e.kind] := by
  unfold write at h
  split at h <;> obtain ⟨hanswer, rfl⟩ := Prod.mk.inj h <;> cases hanswer
  rename_i rest hwrites
  exact ⟨hwrites, rfl, rfl⟩

theorem write_nothing {b : UInt8} {bs : Bytes} {s s' : Stream}
    (h : s.write (b :: bs) = (.ok 0, s')) :
    s.writes = .upTo 0 :: s'.writes ∧ s'.flushes = s.flushes ∧ s'.seen = s.seen ++ [.wrote []] := by
  unfold write at h
  split at h <;> obtain ⟨hanswer, rfl⟩ := Prod.mk.inj h
  · cases hanswer
  · cases hanswer
  · rename_i limit rest hwrites
    obtain rfl : limit = 0 := by simpa using hanswer
    exact ⟨hwrites, rfl, rfl⟩
  · cases hanswer

theorem write_some {bytes : Bytes} {s s' : Stream} {n : Nat}
    (h : s.write bytes = (.ok (n + 1), s')) :
    (∃ used, s.writes = used ++ s'.writes) ∧ s'.flushes = s.flushes ∧
      s'.seen = s.seen ++ [.wrote (bytes.take (n + 1))] := by
  unfold write at h
  split at h <;> obtain ⟨hanswer, rfl⟩ := Prod.mk.inj h
  · rename_i hwrites
    have hlength := Except.ok.inj hanswer
    exact ⟨⟨[], by simp [note, hwrites]⟩, rfl, by simp [note, ← hlength]⟩
  · rename_i rest hwrites
    have hlength := Except.ok.inj hanswer
    exact ⟨⟨[.all], by simp [note, hwrites]⟩, rfl, by simp [note, ← hlength]⟩
  · rename_i limit rest hwrites
    have hlength := Except.ok.inj hanswer
    rw [List.length_take] at hlength
    refine ⟨⟨[.upTo limit], hwrites⟩, rfl, ?_⟩
    rw [note, ← hlength, ← List.take_eq_take_min]
  · cases hanswer

/-! ## All writes of a frame -/

/-- These calls brought `bytes` through, and more can follow. -/
structure Brought (s : Stream) (events : List StreamEvent) (bytes : Bytes) (s' : Stream) :
    Prop where
  seen : s'.seen = s.seen ++ events
  goesOn : ∀ e ∈ events, e.isWrite = true ∧ e.goesOn = true
  bytes : events.flatMap StreamEvent.bytes = bytes
  writes : ∃ used, s.writes = used ++ s'.writes
  flushes : s'.flushes = s.flushes

structure Refused (s : Stream) (call : StreamEvent) (e : StreamError) (s' : Stream) : Prop where
  seen : s'.seen = s.seen ++ [call]
  writes : ∃ a : Acceptance, s.writes = a :: s'.writes ∧ a.Refuses call e
  flushes : s'.flushes = s.flushes

variable {s s₁ s' : Stream} {events : List StreamEvent} {bytes : Bytes} {first : StreamEvent}

theorem brought_nothing (s : Stream) : s.Brought [] [] s :=
  ⟨(List.append_nil _).symm, nofun, rfl, ⟨[], rfl⟩, rfl⟩

theorem Brought.cons (hseen : s₁.seen = s.seen ++ [first])
    (hfirst : first.isWrite = true ∧ first.goesOn = true)
    (hwrites : ∃ used, s.writes = used ++ s₁.writes) (hflushes : s₁.flushes = s.flushes)
    (h : s₁.Brought events bytes s') : s.Brought (first :: events) (first.bytes ++ bytes) s' where
  seen := by
    rw [h.seen, hseen, List.append_assoc]
    rfl
  goesOn := List.forall_mem_cons.mpr ⟨hfirst, h.goesOn⟩
  bytes := by rw [List.flatMap_cons, h.bytes]
  writes := by
    obtain ⟨used, hused⟩ := hwrites
    obtain ⟨used', hused'⟩ := h.writes
    exact ⟨used ++ used', by rw [hused, hused', List.append_assoc]⟩
  flushes := h.flushes.trans hflushes

/-- What becomes of a frame: all of it gets through, or the front of it and then a call fails. -/
inductive Carries (frame : Bytes) (s : Stream) : Except StreamError Unit → Stream → Prop
  | whole {events : List StreamEvent} {s' : Stream} (h : s.Brought events frame s') :
    Carries frame s (.ok ()) s'
  | part {events : List StreamEvent} {bytes : Bytes} {s₁ : Stream} {call : StreamEvent}
    {e : StreamError} {s' : Stream} (h : s.Brought events bytes s₁) (hpart : bytes <+: frame)
    (hcall : s₁.Refused call e s') : Carries frame s (.error e) s'

theorem Carries.cons {frame : Bytes} {result : Except StreamError Unit}
    (hseen : s₁.seen = s.seen ++ [first])
    (hfirst : first.isWrite = true ∧ first.goesOn = true)
    (hwrites : ∃ used, s.writes = used ++ s₁.writes) (hflushes : s₁.flushes = s.flushes)
    (h : Carries frame s₁ result s') : Carries (first.bytes ++ frame) s result s' := by
  cases h with
  | whole h => exact .whole (h.cons hseen hfirst hwrites hflushes)
  | part h hpart hcall =>
    have hfront := List.prefix_append_right_inj first.bytes |>.mpr hpart
    exact .part (h.cons hseen hfirst hwrites hflushes) hfront hcall

theorem carries_writeAll (bytes : Bytes) (s : Stream) :
    Carries bytes s (s.writeAll bytes).1 (s.writeAll bytes).2 := by
  -- An interrupted write and a short one are calls in front of what becomes of the rest.
  fun_induction writeAll bytes s with
  | case1 s => exact .whole (brought_nothing s)
  | case2 s b bs e s' hwrite hagain ih =>
    obtain ⟨hwrites, hflushes, hseen⟩ := write_error hwrite
    exact ih.cons hseen (by simp [StreamEvent.isWrite, StreamEvent.goesOn, hagain])
      ⟨[.failure e], hwrites⟩ hflushes
  | case3 s b bs e s' hwrite hstop =>
    obtain ⟨hwrites, hflushes, hseen⟩ := write_error hwrite
    exact .part (brought_nothing s) List.nil_prefix
      ⟨hseen, ⟨_, hwrites, .failed hstop⟩, hflushes⟩
  | case4 s b bs s' hwrite =>
    obtain ⟨hwrites, hflushes, hseen⟩ := write_nothing hwrite
    exact .part (brought_nothing s) List.nil_prefix
      ⟨hseen, ⟨_, hwrites, .tookNothing⟩, hflushes⟩
  | case5 s b bs n s' hwrite ih =>
    obtain ⟨hwrites, hflushes, hseen⟩ := write_some hwrite
    have hgoes : (StreamEvent.wrote ((b :: bs).take (n + 1))).isWrite = true ∧
        (StreamEvent.wrote ((b :: bs).take (n + 1))).goesOn = true := ⟨rfl, rfl⟩
    have hcarries := ih.cons hseen hgoes hwrites hflushes
    rwa [StreamEvent.bytes, List.take_succ_cons, List.cons_append, List.take_append_drop]
      at hcarries

end Stream

end Teleop
