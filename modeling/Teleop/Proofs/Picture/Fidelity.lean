import Mathlib.Data.List.Infix
import Teleop.Proofs.Picture.Rounds

/-!
# What gets through of a source

Whatever fails on either side of a transfer, the bytes that get through are the front of the bytes
that were read. All of them get through unless a write fails, but for a frame that a failing read
leaves unfinished. The first fault is the last call, and it is the error of the transfer.
-/

namespace Teleop

def TransferCall.goesOn (call : TransferCall) : Bool := call.event.goesOn

def TransferCall.isFault (call : TransferCall) : Bool := call.event.isFault

/-- The last call of a transfer and the result that it leads to. An error is the one that the script
of its stream has at this place. -/
inductive Ends (source : Stream) (c : Channel) (source' : Stream) (c' : Channel) :
    TransferCall → Except PictureError Transfer → Prop
  | sent (n k : Nat) : Ends source c source' c' (.channel .flushed) (.ok (.sent n k))
  | sourceFailed {used : List Item} {e : StreamError}
    (h : source.items = used ++ .failure e :: source'.items) :
    Ends source c source' c' (.source (.readFailed e.kind)) (.error (.cannotRead e))
  | writeFailed {used : List Acceptance} {a : Acceptance} {call : StreamEvent} {e : StreamError}
    (h : c.stream.writes = used ++ a :: c'.stream.writes) (ha : a.Refuses call e) :
    Ends source c source' c' (.channel call) (.error (.channel (.stream e)))
  | flushFailed {e : StreamError} (h : c.stream.flushes = some e :: c'.stream.flushes) :
    Ends source c source' c' (.channel (.flushFailed e.kind)) (.error (.channel (.stream e)))

/-- Every full round brought a frame of the source through, and after the last one `lost` was
read. -/
structure ReadThrough (source : Stream) (rounds : List Round) (source' : Stream)
    (failure? : Option StreamError) (lost : Bytes) : Prop where
  frames : source.frameList = ⟨rounds.dropLast.map Round.bytes, failure?⟩
  brought : broughtBy (callsOf rounds) = (rounds.dropLast.map Round.bytes).flatten
  taken : takenBy (callsOf rounds) = (broughtBy (callsOf rounds)).length + lost.length
  content : source.content = broughtBy (callsOf rounds) ++ (lost ++ source'.content)

structure Copied (source : Stream) (c : Channel) (rounds : List Round)
    (result : Except PictureError Transfer) (source' : Stream) (c' : Channel) : Prop where
  /-- The rounds are all that the streams saw. -/
  source_seen : source'.seen = source.seen ++ rounds.flatMap Round.reads
  channel_seen : c'.stream.seen = c.stream.seen ++ rounds.flatMap Round.writes
  /-- At every moment, what got through is the front of what was read. -/
  in_order : ∀ early, early <+: callsOf rounds →
    broughtBy early <+: source.content.take (takenBy early)
  /-- The transfer goes on behind every call but the last, and that one decides the result. -/
  ends : ∃ before last, callsOf rounds = before ++ [last] ∧ (∀ call ∈ before, call.goesOn = true) ∧
    Ends source c source' c' last result
  sent_iff : (∃ n k, result = .ok (.sent n k)) ↔ ∀ call ∈ callsOf rounds, call.isFault = false
  sent : ∀ n k, result = .ok (.sent n k) → ReadThrough source rounds source' none [] ∧
    n = takenBy (callsOf rounds) ∧ n = (broughtBy (callsOf rounds)).length ∧
      k = rounds.dropLast.length ∧ ∃ reads, rounds.getLast? = some ⟨reads, [.flushed]⟩
  /-- Of a frame that was not full when the read failed, nothing gets through. -/
  source_failed : ∀ e, result = .error (.cannotRead e) →
    ∃ lost, lost.length < frameSize ∧ ReadThrough source rounds source' (some e) lost

/-! ## One round -/

theorem callsOf_cons (r : Round) (rounds : List Round) :
    callsOf (r :: rounds) = r.calls ++ callsOf rounds :=
  List.flatMap_cons

theorem callsOf_singleton (r : Round) : callsOf [r] = r.calls := by
  rw [callsOf_cons, callsOf, List.flatMap_nil, List.append_nil]

theorem prefix_append_cases {α : Type} {early a b : List α} (h : early <+: a ++ b) :
    early <+: a ∨ ∃ rest, early = a ++ rest ∧ rest <+: b := by
  obtain ⟨tail, htail⟩ := h
  rcases List.append_eq_append_iff.mp htail with ⟨rest, ha, -⟩ | ⟨rest, hearly, hb⟩
  · exact Or.inl ⟨rest, ha.symm⟩
  · exact Or.inr ⟨rest, hearly, tail, hb.symm⟩

namespace Round

variable {r : Round}

theorem takenBy_calls (r : Round) : takenBy r.calls = (r.reads.map StreamEvent.count).sum := by
  rw [calls, takenBy_append, takenBy_source, takenBy_channel, Nat.add_zero]

theorem broughtBy_calls (r : Round) : broughtBy r.calls = r.bytes := by
  rw [calls, broughtBy_append, broughtBy_source, broughtBy_channel, List.nil_append, bytes]

theorem in_order {early : List TransferCall} {taken : Bytes}
    (hcount : (r.reads.map StreamEvent.count).sum = taken.length) (hbytes : r.bytes <+: taken)
    (h : early <+: r.calls) : broughtBy early <+: taken.take (takenBy early) := by
  rcases prefix_append_cases h with hreads | ⟨writes, rfl, hwrites⟩
  · obtain ⟨reads, -, rfl⟩ := List.prefix_map_iff.mp hreads
    rw [broughtBy_source]
    exact List.nil_prefix
  · obtain ⟨events, hevents, rfl⟩ := List.prefix_map_iff.mp hwrites
    rw [broughtBy_append, broughtBy_source, broughtBy_channel, takenBy_append, takenBy_source,
      takenBy_channel, hcount, Nat.add_zero, List.take_length, List.nil_append]
    exact (List.IsPrefix.flatMap hevents _).trans hbytes

end Round

/-! ## The run -/

theorem isFault_of_goesOn {call : TransferCall} (h : call.goesOn = true) : call.isFault = false :=
  StreamEvent.isFault_of_goesOn h

theorem Acceptance.Refuses.isFault {a : Acceptance} {call : StreamEvent} {e : StreamError}
    (h : a.Refuses call e) : call.isFault = true ∧ call.bytes = [] := by
  cases h with
  | failed hkind => exact ⟨by simpa [StreamEvent.isFault] using hkind, rfl⟩
  | tookNothing => exact ⟨rfl, rfl⟩

theorem Round.goesOn_reads {reads : List StreamEvent}
    (h : ∀ e ∈ reads, e.isRead = true ∧ e.goesOn = true) :
    ∀ call ∈ reads.map TransferCall.source, call.goesOn = true := by
  intro call hcall
  obtain ⟨e, he, rfl⟩ := List.mem_map.mp hcall
  exact (h e he).2

theorem Round.goesOn_calls {reads writes : List StreamEvent}
    (hreads : ∀ e ∈ reads, e.isRead = true ∧ e.goesOn = true)
    (hwrites : ∀ e ∈ writes, e.isWrite = true ∧ e.goesOn = true) :
    ∀ call ∈ (Round.mk reads writes).calls, call.goesOn = true := by
  intro call hcall
  rcases List.mem_append.mp hcall with h | h
  · exact goesOn_reads hreads call h
  · obtain ⟨e, he, rfl⟩ := List.mem_map.mp h
    exact (hwrites e he).2

theorem Ends.earlier {source source₁ source' : Stream} {c c₁ c' : Channel} {last : TransferCall}
    {result : Except PictureError Transfer}
    (hitems : ∃ used, source.items = used ++ source₁.items)
    (hwrites : ∃ used, c.stream.writes = used ++ c₁.stream.writes)
    (hflushes : c₁.stream.flushes = c.stream.flushes)
    (h : Ends source₁ c₁ source' c' last result) : Ends source c source' c' last result := by
  cases h with
  | sent n k => exact .sent n k
  | sourceFailed h =>
    obtain ⟨used, hused⟩ := hitems
    exact .sourceFailed (by rw [hused, h, ← List.append_assoc])
  | writeFailed h ha =>
    obtain ⟨used, hused⟩ := hwrites
    exact .writeFailed (by rw [hused, h, ← List.append_assoc]) ha
  | flushFailed h => exact .flushFailed (hflushes ▸ h)

namespace Copying

variable {source source' : Stream} {progress : Progress} {c c' : Channel} {rounds : List Round}
  {result : Except PictureError Transfer}

theorem ne_nil (h : Copying source progress c rounds result source' c') : rounds ≠ [] := by
  cases h <;> simp

theorem seen (h : Copying source progress c rounds result source' c') :
    source'.seen = source.seen ++ rounds.flatMap Round.reads ∧
      c'.stream.seen = c.stream.seen ++ rounds.flatMap Round.writes := by
  induction h with
  | frame hgives _ hbrought _ ih =>
    rw [ih.1, ih.2, hgives.seen, hbrought.seen, List.append_assoc, List.append_assoc]
    exact ⟨rfl, rfl⟩
  | sourceFailed hgives _ _ _ hseen => simp [hseen, hgives.seen]
  | writeFailed hgives _ hbrought _ hrefused => simp [hrefused.seen, hbrought.seen, hgives.seen]
  | flushFailed hgives _ _ hseen => simp [hseen, hgives.seen]
  | complete hgives _ hseen => simp [hseen, hgives.seen]

theorem in_order (h : Copying source progress c rounds result source' c')
    {early : List TransferCall} (hearly : early <+: callsOf rounds) :
    broughtBy early <+: source.content.take (takenBy early) := by
  -- The last round takes part of the content, and what it brings through is the front of that.
  have hlast : ∀ {source₁ : Stream} {r : Round} {early : List TransferCall} {taken rest : Bytes},
      early <+: callsOf [r] → source₁.content = taken ++ rest →
      (r.reads.map StreamEvent.count).sum = taken.length → r.bytes <+: taken →
        broughtBy early <+: source₁.content.take (takenBy early) := by
    intro source₁ r early taken rest hearly hcontent hcount hbytes
    rw [callsOf_singleton] at hearly
    refine (Round.in_order hcount hbytes hearly).trans ?_
    rw [hcontent]
    exact (List.prefix_append _ _).take _
  induction h generalizing early with
  | frame hgives _ hbrought _ ih =>
    rename_i reads writes frame rounds _ _ _
    rw [callsOf_cons] at hearly
    have hround : (Round.mk reads writes).bytes <+: frame := hbrought.bytes ▸ List.prefix_rfl
    rcases prefix_append_cases hearly with hfirst | ⟨later, rfl, hlater⟩
    · exact hlast (callsOf_singleton _ ▸ hfirst) hgives.content hgives.count hround
    · rw [broughtBy_append, takenBy_append, Round.broughtBy_calls, Round.takenBy_calls,
        hgives.count, hgives.content, List.take_length_add_append, Round.bytes, hbrought.bytes]
      exact (List.prefix_append_right_inj frame).mpr (ih hlater)
  | sourceFailed hgives _ _ hitems _ =>
    refine hlast hearly hgives.content ?_ List.nil_prefix
    rw [List.map_append, List.sum_append, hgives.count]
    rfl
  | writeFailed hgives _ hbrought hpart hrefused =>
    refine hlast hearly hgives.content hgives.count ?_
    obtain ⟨a, -, ha⟩ := hrefused.writes
    rw [Round.bytes, List.flatMap_append, hbrought.bytes, List.flatMap_singleton, ha.isFault.2,
      List.append_nil]
    exact hpart
  | flushFailed hgives _ _ _ => exact hlast hearly hgives.content hgives.count List.nil_prefix
  | complete hgives _ _ => exact hlast hearly hgives.content hgives.count List.nil_prefix

theorem ends (h : Copying source progress c rounds result source' c') :
    ∃ before last, callsOf rounds = before ++ [last] ∧ (∀ call ∈ before, call.goesOn = true) ∧
      Ends source c source' c' last result := by
  induction h with
  | frame hgives _ hbrought _ ih =>
    obtain ⟨before, last, hcalls, hbefore, hends⟩ := ih
    obtain ⟨used, hused, -⟩ := hgives.items
    refine ⟨_ ++ before, last, by rw [callsOf_cons, hcalls, List.append_assoc], ?_,
      hends.earlier ⟨used, hused⟩ hbrought.writes hbrought.flushes⟩
    exact List.forall_mem_append.mpr ⟨Round.goesOn_calls hgives.goesOn hbrought.goesOn, hbefore⟩
  | sourceFailed hgives _ _ hitems _ =>
    obtain ⟨used, hused, -⟩ := hgives.items
    refine ⟨_, _, ?_, Round.goesOn_reads hgives.goesOn, .sourceFailed (hitems ▸ hused)⟩
    simp [callsOf_singleton, Round.calls]
  | writeFailed hgives _ hbrought _ hrefused =>
    obtain ⟨used, hused⟩ := hbrought.writes
    obtain ⟨a, hwrites, ha⟩ := hrefused.writes
    refine ⟨_, _, ?_, Round.goesOn_calls hgives.goesOn hbrought.goesOn,
      .writeFailed (hwrites ▸ hused) ha⟩
    simp [callsOf_singleton, Round.calls]
  | flushFailed hgives _ hflushes _ =>
    refine ⟨_, _, ?_, Round.goesOn_reads hgives.goesOn, .flushFailed hflushes⟩
    simp [callsOf_singleton, Round.calls]
  | complete hgives _ _ =>
    refine ⟨_, _, ?_, Round.goesOn_reads hgives.goesOn, .sent _ _⟩
    simp [callsOf_singleton, Round.calls]

end Copying

/-! ## What was read through -/

namespace ReadThrough

variable {source source₁ source' : Stream} {rounds : List Round} {failure? : Option StreamError}
  {lost : Bytes}

theorem cons {reads writes : List StreamEvent} {frame : Bytes} {s s' : Stream}
    (hgives : source.Gives reads frame source₁)
    (hlist : source.frameList = source₁.frameList.cons frame)
    (hbrought : s.Brought writes frame s') (hrounds : rounds ≠ [])
    (h : ReadThrough source₁ rounds source' failure? lost) :
    ReadThrough source (⟨reads, writes⟩ :: rounds) source' failure? lost := by
  have hbytes : (Round.mk reads writes).bytes = frame := hbrought.bytes
  have hall : broughtBy (callsOf (⟨reads, writes⟩ :: rounds)) =
      frame ++ broughtBy (callsOf rounds) := by
    rw [callsOf_cons, broughtBy_append, Round.broughtBy_calls, hbytes]
  have hfull : (⟨reads, writes⟩ :: rounds : List Round).dropLast.map Round.bytes =
      frame :: rounds.dropLast.map Round.bytes := by
    rw [List.dropLast_cons_of_ne_nil hrounds, List.map_cons, hbytes]
  refine ⟨?_, ?_, ?_, ?_⟩
  · rw [hlist, h.frames, hfull]
    rfl
  · rw [hall, h.brought, hfull, List.flatten_cons]
  · rw [hall, callsOf_cons, takenBy_append, Round.takenBy_calls, hgives.count, h.taken,
      List.length_append, Nat.add_assoc]
  · rw [hgives.content, h.content, hall, List.append_assoc]

theorem last {r : Round} (hlist : source.frameList = ⟨[], failure?⟩)
    (hcount : (r.reads.map StreamEvent.count).sum = lost.length) (hbytes : r.bytes = [])
    (hcontent : source.content = lost ++ source'.content) :
    ReadThrough source [r] source' failure? lost := by
  have hnone : broughtBy (callsOf [r]) = [] := by
    rw [callsOf_singleton, Round.broughtBy_calls, hbytes]
  refine ⟨hlist, hnone, ?_, ?_⟩
  · rw [hnone, callsOf_singleton, Round.takenBy_calls, hcount, List.length_nil, Nat.zero_add]
  · rw [hnone, hcontent, List.nil_append]

end ReadThrough

namespace Copying

variable {source source' : Stream} {progress : Progress} {c c' : Channel} {rounds : List Round}
  {result : Except PictureError Transfer}

theorem sent {n k : Nat} (h : Copying source progress c rounds (.ok (.sent n k)) source' c') :
    ReadThrough source rounds source' none [] ∧
      n = progress.bytes + (broughtBy (callsOf rounds)).length ∧
        k = progress.frames + rounds.dropLast.length ∧
          ∃ reads, rounds.getLast? = some ⟨reads, [.flushed]⟩ := by
  generalize hresult : (Except.ok (Transfer.sent n k) : Except PictureError Transfer) = result at h
  induction h with
  | frame hgives hlist hbrought rest ih =>
    obtain ⟨hthrough, hbytes, hframes, reads, hlast⟩ := ih hresult
    refine ⟨hthrough.cons hgives hlist hbrought rest.ne_nil, ?_, ?_, reads, ?_⟩
    · rw [hbytes, callsOf_cons, broughtBy_append, Round.broughtBy_calls, List.length_append,
        Round.bytes, hbrought.bytes]
      exact Nat.add_assoc _ _ _
    · rw [hframes, List.dropLast_cons_of_ne_nil rest.ne_nil, List.length_cons]
      exact Nat.add_right_comm _ _ _
    · rw [List.getLast?_cons, hlast]
      rfl
  | complete hgives hlist hseen =>
    rename_i reads
    obtain ⟨rfl, rfl⟩ := Transfer.sent.inj (Except.ok.inj hresult)
    have hthrough : ReadThrough _ [⟨reads, [.flushed]⟩] _ none [] :=
      .last hlist hgives.count rfl hgives.content
    refine ⟨hthrough, ?_, rfl, reads, rfl⟩
    rw [hthrough.brought]
    rfl
  | sourceFailed | writeFailed | flushFailed => cases hresult

theorem source_failed {e : StreamError}
    (h : Copying source progress c rounds (.error (.cannotRead e)) source' c') :
    ∃ lost, lost.length < frameSize ∧ ReadThrough source rounds source' (some e) lost := by
  generalize hresult : (Except.error (.cannotRead e) : Except PictureError Transfer) = result at h
  induction h with
  | frame hgives hlist hbrought rest ih =>
    obtain ⟨lost, hlost, hthrough⟩ := ih hresult
    exact ⟨lost, hlost, hthrough.cons hgives hlist hbrought rest.ne_nil⟩
  | sourceFailed hgives hlost hlist hitems hseen =>
    cases hresult
    refine ⟨_, hlost, .last hlist ?_ rfl ?_⟩
    · rw [List.map_append, List.sum_append, hgives.count]
      rfl
    · rw [hgives.content, Stream.content, hitems]
      rfl
  | writeFailed | flushFailed | complete => cases hresult

theorem copied (h : Copying source {} c rounds result source' c') :
    Copied source c rounds result source' c' := by
  obtain ⟨before, last, hcalls, hbefore, hends⟩ := h.ends
  refine ⟨h.seen.1, h.seen.2, fun early => h.in_order, ⟨before, last, hcalls, hbefore, hends⟩,
    ?_, ?_, ?_⟩
  · -- All calls but the last go on, so only the last can be a fault.
    rw [hcalls]
    constructor
    · rintro ⟨n, k, rfl⟩
      have hgood : ∀ call ∈ before, call.isFault = false := fun call hcall =>
        isFault_of_goesOn (hbefore call hcall)
      refine List.forall_mem_append.mpr ⟨hgood, ?_⟩
      cases hends
      simp [TransferCall.isFault, TransferCall.event, StreamEvent.isFault]
    · intro hnone
      have hlast := hnone last (by simp)
      cases hends with
      | sent n k => exact ⟨n, k, rfl⟩
      | sourceFailed => cases hlast
      | writeFailed _ ha =>
        rw [TransferCall.isFault, TransferCall.event, ha.isFault.1] at hlast
        cases hlast
      | flushFailed => cases hlast
  · rintro n k rfl
    obtain ⟨hthrough, hbytes, hframes, hlast⟩ := h.sent
    have hn : n = (broughtBy (callsOf rounds)).length := hbytes.trans (Nat.zero_add _)
    exact ⟨hthrough, by rw [hn, hthrough.taken]; rfl, hn, hframes.trans (Nat.zero_add _), hlast⟩
  · rintro e rfl
    exact h.source_failed

end Copying

/-- **What gets through of a source is the front of it, up to the first fault.** -/
theorem sendPicture_copies (source : Stream) (c : Channel) :
    Copied source c (rounds source {} c) (sendPicture source {} c).1 (sendPicture source {} c).2.1
      (sendPicture source {} c).2.2 :=
  (copying_sendPicture source {} c).copied

/-- A transfer is complete although a write of it failed: the write was interrupted, and the next
one brings the same bytes through. -/
theorem sent_behind_interruption :
    let source : Stream := { arrivals := [.chunk (.ofText "abcde")] }
    let c : Channel := { stream := { writes := [.failure ⟨.interrupted, "net"⟩] } }
    (sendPicture source {} c).1 = .ok (.sent 5 1) ∧
      (sendPicture source {} c).2.2.stream.received = .ofText "abcde" ∧
        .channel (.writeFailed .interrupted) ∈ callsOf (rounds source {} c) := by
  decide +kernel

end Teleop
