import Teleop.Proofs.Wire.Directions

/-!
# Calls on a channel

Reading and sending share a channel and have nothing to do with each other. The reads go as they
would go if nothing was sent, and what is sent goes as if nothing was read, whatever fails on the
other side.
-/

namespace Teleop

namespace Channel

inductive Call where
  | read (capacity : Nat)
  | send (bytes : Bytes)
  | respond (r : Response)
  | sendFrame (frame : Bytes)
  | flush
  | shutdown
deriving DecidableEq, Repr

def Call.isRead : Call → Bool
  | .read _ => true
  | .send _ | .respond _ | .sendFrame _ | .flush | .shutdown => false

inductive Answer where
  | message (result : Except ChannelError Message)
  | sent (result : Except ChannelError Nat)
  | done (result : Except ChannelError Unit)

def perform (c : Channel) : Call → Answer × Channel
  | .read capacity => (c.readMessage capacity).map .message id
  | .send bytes => (c.send bytes).map .sent id
  | .respond r => (c.respond r).map .sent id
  | .sendFrame frame => (c.sendFrame frame).map .sent id
  | .flush => c.flush.map .done id
  | .shutdown => c.shutdown.map .done id

/-- All that a call shows. -/
structure Record where
  call : Call
  answer : Answer
  /-- What the call added to the log. -/
  notices : List Notice
  /-- What the stream saw of the call. -/
  seen : List StreamEvent

def record (c : Channel) (call : Call) : Record where
  call := call
  answer := (c.perform call).1
  notices := (c.perform call).2.notices.drop c.notices.length
  seen := (c.perform call).2.stream.seen.drop c.stream.seen.length

/-- The records of calls that are made one after the other. -/
def records : Channel → List Call → List Record
  | _, [] => []
  | c, call :: calls => c.record call :: (c.perform call).2.records calls

/-- The channel behind the calls. -/
def behind (c : Channel) (calls : List Call) : Channel :=
  calls.foldl (fun c call => (c.perform call).2) c

end Channel

/-! ## The two sides of a stream -/

/-- How the calls go that send something. -/
structure Script where
  writes : List Acceptance
  flushes : List (Option StreamError)
  shutdowns : List (Option StreamError)

namespace Stream

def script (s : Stream) : Script := ⟨s.writes, s.flushes, s.shutdowns⟩

/-- The same call on `s` and on `t` came to the same, with the same left on one side and the same
seen by the streams. It did not touch the other side. -/
structure Alike {α σ τ : Type} (side : Stream → σ) (other : Stream → τ) (s t : Stream)
    (a b : α × Stream) : Prop where
  answer : a.1 = b.1
  side : side a.2 = side b.2
  other : other a.2 = other s
  seen : ∃ events, a.2.seen = s.seen ++ events ∧ b.2.seen = t.seen ++ events

theorem Alike.trans {α β σ τ : Type} {side : Stream → σ} {other : Stream → τ} {s t s' t' : Stream}
    {r r' : α} {a b : β × Stream} (h : Alike side other s t (r, s') (r', t'))
    (h' : Alike side other s' t' a b) : Alike side other s t a b := by
  obtain ⟨events, hs, ht⟩ := h.seen
  obtain ⟨events', hs', ht'⟩ := h'.seen
  refine ⟨h'.answer, h'.side, h'.other.trans h.other, events ++ events', ?_, ?_⟩
  · rw [hs', hs, List.append_assoc]
  · rw [ht', ht, List.append_assoc]

theorem Alike.exists_eq {α σ τ : Type} {side : Stream → σ} {other : Stream → τ} {s t s' : Stream}
    {r : α} {a b : α × Stream} (h : Alike side other s t a b) (ha : a = (r, s')) :
    ∃ t', b = (r, t') ∧ Alike side other s t (r, s') (r, t') := by
  subst ha
  exact ⟨b.2, Prod.ext h.answer.symm rfl, rfl, h.side, h.other, h.seen⟩

theorem read_alike {s t : Stream} (h : s.arrivals = t.arrivals) (room : Nat) :
    Alike arrivals script s t (s.read room) (t.read room) := by
  unfold read
  rw [h]
  split
  · exact ⟨rfl, h, rfl, _, rfl, rfl⟩
  · exact ⟨rfl, rfl, rfl, _, rfl, rfl⟩
  · exact ⟨rfl, rfl, rfl, _, rfl, rfl⟩

variable {s t : Stream} (h : s.script = t.script)

include h in
theorem write_alike (bytes : Bytes) :
    Alike script arrivals s t (s.write bytes) (t.write bytes) := by
  obtain ⟨hwrites, hflushes, hshutdowns⟩ := (Script.mk.injEq ..).mp h
  unfold write
  rw [hwrites]
  split
  · exact ⟨rfl, by simp only [script, note, hflushes, hshutdowns], rfl, _, rfl, rfl⟩
  · exact ⟨rfl, by simp only [script, note, hflushes, hshutdowns], rfl, _, rfl, rfl⟩
  · exact ⟨rfl, by simp only [script, note, hflushes, hshutdowns], rfl, _, rfl, rfl⟩
  · exact ⟨rfl, by simp only [script, note, hflushes, hshutdowns], rfl, _, rfl, rfl⟩

include h in
theorem flush_alike : Alike script arrivals s t s.flush t.flush := by
  obtain ⟨hwrites, hflushes, hshutdowns⟩ := (Script.mk.injEq ..).mp h
  unfold flush
  rw [hflushes]
  split
  · exact ⟨rfl, by simp only [script, note, hwrites, hshutdowns], rfl, _, rfl, rfl⟩
  · exact ⟨rfl, by simp only [script, note, hwrites, hshutdowns], rfl, _, rfl, rfl⟩

include h in
theorem shutdown_alike : Alike script arrivals s t s.shutdown t.shutdown := by
  obtain ⟨hwrites, hflushes, hshutdowns⟩ := (Script.mk.injEq ..).mp h
  unfold shutdown
  rw [hshutdowns]
  split
  · exact ⟨rfl, by simp only [script, note, hwrites, hflushes], rfl, _, rfl, rfl⟩
  · exact ⟨rfl, by simp only [script, note, hwrites, hflushes], rfl, _, rfl, rfl⟩

theorem writeAll_cons (b : UInt8) (bs : Bytes) (s : Stream) :
    s.writeAll (b :: bs) =
      match s.write (b :: bs) with
      | (.error e, s') => if e.kind = .interrupted then s'.writeAll (b :: bs) else (.error e, s')
      | (.ok 0, s') => (.error .writeZero, s')
      | (.ok (n + 1), s') => s'.writeAll (bs.drop n) := by
  rw [writeAll]
  split <;> rename_i hwrite <;> rw [hwrite]

include h in
theorem writeAll_alike (bytes : Bytes) :
    Alike script arrivals s t (s.writeAll bytes) (t.writeAll bytes) := by
  -- The induction is on the writes of one stream; the other takes the same branch each time.
  fun_induction writeAll bytes s generalizing t with
  | case1 s =>
    rw [writeAll]
    exact ⟨rfl, h, rfl, [], by simp, by simp⟩
  | case2 s b bs e s' hwrite hagain ih =>
    obtain ⟨t', hother, hfirst⟩ := (write_alike h (b :: bs)).exists_eq hwrite
    rw [writeAll_cons b bs t, hother]
    simp only [hagain, if_true]
    exact hfirst.trans (ih hfirst.side)
  | case3 s b bs e s' hwrite hstop =>
    obtain ⟨t', hother, hfirst⟩ := (write_alike h (b :: bs)).exists_eq hwrite
    rw [writeAll_cons b bs t, hother]
    simp only [hstop, if_false]
    exact ⟨rfl, hfirst.side, hfirst.other, hfirst.seen⟩
  | case4 s b bs s' hwrite =>
    obtain ⟨t', hother, hfirst⟩ := (write_alike h (b :: bs)).exists_eq hwrite
    rw [writeAll_cons b bs t, hother]
    exact ⟨rfl, hfirst.side, hfirst.other, hfirst.seen⟩
  | case5 s b bs s' n hwrite ih =>
    obtain ⟨t', hother, hfirst⟩ := (write_alike h (b :: bs)).exists_eq hwrite
    rw [writeAll_cons b bs t, hother]
    exact hfirst.trans (ih hfirst.side)

end Stream

/-! ## The two sides of a channel -/

namespace Channel

/-- What a channel has to read. -/
structure Inbound where
  arrivals : List Arrival
  buffer : Bytes

def inbound (c : Channel) : Inbound := ⟨c.stream.arrivals, c.buffer⟩

def outbound (c : Channel) : Script := c.stream.script

/-- As for streams, and the same went to the log. -/
structure Alike {α σ τ : Type} (side : Channel → σ) (other : Channel → τ) (c d : Channel)
    (a b : α × Channel) : Prop where
  answer : a.1 = b.1
  side : side a.2 = side b.2
  other : other a.2 = other c
  seen : ∃ events,
    a.2.stream.seen = c.stream.seen ++ events ∧ b.2.stream.seen = d.stream.seen ++ events
  notices : ∃ notices, a.2.notices = c.notices ++ notices ∧ b.2.notices = d.notices ++ notices

theorem Alike.map {α β σ τ : Type} {side : Channel → σ} {other : Channel → τ} {c d : Channel}
    {a b : α × Channel} (h : Alike side other c d a b) (f : α → β) :
    Alike side other c d (a.map f id) (b.map f id) :=
  ⟨congrArg f h.answer, h.side, h.other, h.seen, h.notices⟩

/-! ### Reading -/

theorem readFrom_alike {c d : Channel} (h : c.inbound = d.inbound) (capacity : Nat) (m : Message) :
    Alike inbound outbound c d (c.readFrom capacity m) (d.readFrom capacity m) := by
  fun_induction readFrom capacity m c generalizing d with
  | case1 m c payload rest hline =>
    obtain ⟨harrivals, hbuffer⟩ := (Inbound.mk.injEq ..).mp h
    rw [hbuffer] at hline
    rw [readFrom_of_some hline]
    refine ⟨rfl, ?_, rfl, ⟨[], by simp [warn], by simp [warn]⟩, _, rfl, rfl⟩
    simp only [inbound, warn, harrivals]
  | case2 m c payload hline e s hread =>
    obtain ⟨harrivals, hbuffer⟩ := (Inbound.mk.injEq ..).mp h
    obtain ⟨t, hother, hfirst⟩ := (Stream.read_alike harrivals frameSize).exists_eq hread
    rw [hbuffer] at hline
    rw [readFrom_of_none hline, hother]
    refine ⟨rfl, ?_, hfirst.other, hfirst.seen, [], by simp, by simp⟩
    exact congrArg (Inbound.mk · []) hfirst.side
  | case3 m c payload hline s hread =>
    obtain ⟨harrivals, hbuffer⟩ := (Inbound.mk.injEq ..).mp h
    obtain ⟨t, hother, hfirst⟩ := (Stream.read_alike harrivals frameSize).exists_eq hread
    rw [hbuffer] at hline
    rw [readFrom_of_none hline, hother]
    refine ⟨rfl, ?_, hfirst.other, hfirst.seen, [], by simp, by simp⟩
    exact congrArg (Inbound.mk · []) hfirst.side
  | case4 m c payload hline b bs s hread ih =>
    obtain ⟨harrivals, hbuffer⟩ := (Inbound.mk.injEq ..).mp h
    obtain ⟨t, hother, hfirst⟩ := (Stream.read_alike harrivals frameSize).exists_eq hread
    rw [hbuffer] at hline
    rw [readFrom_of_none hline, hother]
    have hrest := ih (d := { d with stream := t, buffer := b :: bs })
      (congrArg (Inbound.mk · (b :: bs)) hfirst.side)
    obtain ⟨events, hs, ht⟩ := hfirst.seen
    obtain ⟨events', hs', ht'⟩ := hrest.seen
    refine ⟨hrest.answer, hrest.side, hrest.other.trans hfirst.other, ⟨events ++ events', ?_, ?_⟩,
      hrest.notices⟩
    · rw [hs', ← List.append_assoc, ← hs]
    · rw [ht', ← List.append_assoc, ← ht]

/-! ### Sending -/

theorem alike_of_stream {α β : Type} {c d : Channel} {s t : Stream} {r r' : α} (answer : β)
    (h : Stream.Alike Stream.script Stream.arrivals c.stream d.stream (r, s) (r', t)) :
    Alike outbound inbound c d (answer, { c with stream := s }) (answer, { d with stream := t }) :=
  ⟨rfl, h.side, congrArg (Inbound.mk · c.buffer) h.other, h.seen, [], by simp, by simp⟩

variable {c d : Channel} (h : c.outbound = d.outbound)

include h in
theorem send_alike (bytes : Bytes) : Alike outbound inbound c d (c.send bytes) (d.send bytes) := by
  unfold send
  rcases hwrite : c.stream.write bytes with ⟨result, s⟩
  obtain ⟨t, hother, hfirst⟩ := (Stream.write_alike h bytes).exists_eq hwrite
  rw [hother]
  cases result with
  | error e => exact alike_of_stream _ hfirst
  | ok n =>
    have hboth := hfirst.trans (Stream.flush_alike hfirst.side)
    dsimp only
    rcases hflush : s.flush with ⟨flushed, s'⟩
    obtain ⟨t', hflush', hboth⟩ := hboth.exists_eq hflush
    rw [hflush']
    cases flushed with
    | error e => exact alike_of_stream _ hboth
    | ok _ =>
      exact ⟨rfl, hboth.side, congrArg (Inbound.mk · c.buffer) hboth.other, hboth.seen, _, rfl, rfl⟩

include h in
theorem sendFrame_alike (frame : Bytes) :
    Alike outbound inbound c d (c.sendFrame frame) (d.sendFrame frame) := by
  unfold sendFrame
  rcases hcall : c.stream.writeAll frame with ⟨result, s⟩
  obtain ⟨t, hother, halike⟩ := (Stream.writeAll_alike h frame).exists_eq hcall
  rw [hother]
  cases result <;> exact alike_of_stream _ halike

include h in
theorem flush_alike : Alike outbound inbound c d c.flush d.flush := by
  unfold flush
  rcases hcall : c.stream.flush with ⟨result, s⟩
  obtain ⟨t, hother, halike⟩ := (Stream.flush_alike h).exists_eq hcall
  rw [hother]
  cases result <;> exact alike_of_stream _ halike

include h in
theorem shutdown_alike : Alike outbound inbound c d c.shutdown d.shutdown := by
  unfold shutdown
  rcases hcall : c.stream.shutdown with ⟨result, s⟩
  obtain ⟨t, hother, halike⟩ := (Stream.shutdown_alike h).exists_eq hcall
  rw [hother]
  cases result <;> exact alike_of_stream _ halike

/-! ### Any call -/

theorem perform_alike_read {c d : Channel} {call : Call} (hread : call.isRead = true)
    (h : c.inbound = d.inbound) :
    Alike inbound outbound c d (c.perform call) (d.perform call) := by
  cases call with
  | read capacity => exact (readFrom_alike h capacity {}).map Answer.message
  | send | respond | sendFrame | flush | shutdown => cases hread

theorem perform_alike_send {c d : Channel} {call : Call} (hsend : call.isRead = false)
    (h : c.outbound = d.outbound) :
    Alike outbound inbound c d (c.perform call) (d.perform call) := by
  cases call with
  | read => cases hsend
  | send bytes => exact (send_alike h bytes).map Answer.sent
  | respond r => exact (send_alike h r.framed).map Answer.sent
  | sendFrame frame => exact (sendFrame_alike h frame).map Answer.sent
  | flush => exact (flush_alike h).map Answer.done
  | shutdown => exact (shutdown_alike h).map Answer.done

/-! ## Many calls -/

variable {σ τ : Type} {side : Channel → σ} {other : Channel → τ}

theorem record_of_alike {c d : Channel} {call : Call}
    (h : Alike side other c d (c.perform call) (d.perform call)) :
    c.record call = d.record call := by
  obtain ⟨events, hevents, hevents'⟩ := h.seen
  obtain ⟨ns, hns, hns'⟩ := h.notices
  simp only [record, h.answer, hevents, hevents', hns, hns', List.drop_left]

/-- The calls of one side go the same without the others, if they keep to their side and the others
leave it alone. -/
theorem filter_records (side : Channel → σ) (other : Channel → τ) (mine : Call → Bool)
    (hmine : ∀ call c d, mine call = true → side c = side d →
      Alike side other c d (c.perform call) (d.perform call))
    (hothers : ∀ call c, mine call = false → side (c.perform call).2 = side c)
    {c d : Channel} (h : side c = side d) (calls : List Call) :
    (c.records calls).filter (fun r => mine r.call) = d.records (calls.filter mine) := by
  induction calls generalizing c d with
  | nil => rfl
  | cons call calls ih =>
    rw [records, List.filter_cons, List.filter_cons, show (c.record call).call = call from rfl]
    by_cases hcall : mine call = true
    · have halike := hmine call c d hcall h
      rw [if_pos hcall, if_pos hcall, records, record_of_alike halike, ih halike.side]
    · rw [if_neg hcall, if_neg hcall]
      exact ih ((hothers call c (by simpa using hcall)).trans h)

theorem perform_records (c : Channel) (call : Call) :
    (c.perform call).2.stream.seen = c.stream.seen ++ (c.record call).seen ∧
      (c.perform call).2.notices = c.notices ++ (c.record call).notices := by
  have hown : (∃ events, (c.perform call).2.stream.seen = c.stream.seen ++ events) ∧
      ∃ ns, (c.perform call).2.notices = c.notices ++ ns := by
    cases hread : call.isRead with
    | true =>
      have h := perform_alike_read hread (rfl : c.inbound = c.inbound)
      exact ⟨h.seen.imp fun _ h => h.1, h.notices.imp fun _ h => h.1⟩
    | false =>
      have h := perform_alike_send hread (rfl : c.outbound = c.outbound)
      exact ⟨h.seen.imp fun _ h => h.1, h.notices.imp fun _ h => h.1⟩
  obtain ⟨⟨events, hevents⟩, ns, hns⟩ := hown
  simp only [record, hevents, hns, List.drop_left, and_self]

theorem behind_records (c : Channel) (calls : List Call) :
    (c.behind calls).stream.seen = c.stream.seen ++ (c.records calls).flatMap Record.seen ∧
      (c.behind calls).notices = c.notices ++ (c.records calls).flatMap Record.notices := by
  induction calls generalizing c with
  | nil => simp [behind, records]
  | cons call calls ih =>
    obtain ⟨hseen, hnotices⟩ := c.perform_records call
    obtain ⟨ihseen, ihnotices⟩ := ih (c.perform call).2
    rw [behind, List.foldl_cons, ← behind, records, List.flatMap_cons, List.flatMap_cons, ihseen,
      ihnotices, hseen, hnotices, List.append_assoc, List.append_assoc]
    exact ⟨rfl, rfl⟩

/-- **Reading and sending do not disturb each other.** Without the calls that send, the reads come
to the same, log the same and read the same from the stream; without the reads, the other calls come
to the same, log the same and write, flush and shut down the same. The records hold all there is. -/
theorem directions_independent (c : Channel) (calls : List Call) :
    (c.records calls).filter (fun r => r.call.isRead) = c.records (calls.filter Call.isRead) ∧
      (c.records calls).filter (fun r => !r.call.isRead) =
        c.records (calls.filter fun call => !call.isRead) ∧
      (c.behind calls).stream.seen = c.stream.seen ++ (c.records calls).flatMap Record.seen ∧
      (c.behind calls).notices = c.notices ++ (c.records calls).flatMap Record.notices := by
  refine ⟨?_, ?_, c.behind_records calls⟩
  · refine filter_records inbound outbound Call.isRead ?_ ?_ rfl calls
    · intro call c d hread h
      exact perform_alike_read hread h
    · intro call c hsend
      exact (perform_alike_send hsend rfl).other
  · refine filter_records outbound inbound (fun call => !call.isRead) ?_ ?_ rfl calls
    · intro call c d hsend h
      exact perform_alike_send (by simpa using hsend) h
    · intro call c hread
      exact (perform_alike_read (by simpa using hread) rfl).other

end Channel

end Teleop
