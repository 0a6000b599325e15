import Teleop.Proofs.Wire.Items

/-!
# The two directions of a stream

Reading leaves alone what is written, and writing leaves alone what there is to read.
-/

namespace Teleop

def StreamEvent.isRead : StreamEvent → Bool
  | .read _ | .readFailed _ => true
  | _ => false

def StreamEvent.isWrite : StreamEvent → Bool
  | .wrote _ | .writeFailed _ => true
  | _ => false

/-- What one write call of `bytes` comes to: the first of them, or an error. -/
def StreamEvent.IsPartOf (bytes : Bytes) (e : StreamEvent) : Prop :=
  (∃ k, e = .wrote (bytes.take k)) ∨ ∃ kind, e = .writeFailed kind

namespace Stream

/-- The side that is written to: a stream on which nothing arrives and no read was seen. -/
def outgoing (s : Stream) : Stream :=
  { s with arrivals := [], seen := s.seen.filter fun e => !e.isRead }

/-! ## Reading -/

theorem outgoing_read (room : Nat) (s : Stream) : (s.read room).2.outgoing = s.outgoing := by
  unfold read
  split <;> simp [outgoing, note, StreamEvent.isRead]

/-! ## Writing -/

theorem write_outgoing (bytes : Bytes) (s : Stream) :
    s.outgoing.write bytes = ((s.write bytes).1, (s.write bytes).2.outgoing) := by
  unfold write
  split <;> rename_i h <;> simp only [outgoing] at h <;>
    simp [h, outgoing, note, StreamEvent.isRead]

theorem flush_outgoing (s : Stream) :
    s.outgoing.flush = (s.flush.1, s.flush.2.outgoing) := by
  unfold flush
  split <;> simp_all [outgoing, note, StreamEvent.isRead]

theorem shutdown_outgoing (s : Stream) :
    s.outgoing.shutdown = (s.shutdown.1, s.shutdown.2.outgoing) := by
  unfold shutdown
  split <;> simp_all [outgoing, note, StreamEvent.isRead]

theorem arrivals_write (bytes : Bytes) (s : Stream) : (s.write bytes).2.arrivals = s.arrivals := by
  unfold write
  split <;> rfl

theorem arrivals_flush (s : Stream) : s.flush.2.arrivals = s.arrivals := by
  unfold flush
  split <;> rfl

/-- Answers with one write and a flush, and says which error came up. How much of the answer the
write takes does not matter. -/
def answer (r : Response) (s : Stream) : Option StreamError × Stream :=
  match s.write r.framed with
  | (.error e, s) => (some e, s)
  | (.ok _, s) =>
    match s.flush with
    | (.error e, s) => (some e, s)
    | (.ok _, s) => (none, s)

/-! ## What a stream was sent -/

/-- The write calls that a stream saw, failed ones included. -/
def sent (s : Stream) : List StreamEvent := s.seen.filter StreamEvent.isWrite

theorem sent_outgoing (s : Stream) : s.outgoing.sent = s.sent := by
  rw [sent, sent, outgoing, List.filter_filter]
  congr 1
  funext e
  cases e <;> rfl

theorem sent_flush (s : Stream) : s.flush.2.sent = s.sent := by
  unfold flush
  split <;> simp [sent, note, StreamEvent.isWrite]

theorem sent_shutdown (s : Stream) : s.shutdown.2.sent = s.sent := by
  unfold shutdown
  split <;> simp [sent, note, StreamEvent.isWrite]

theorem sent_write (bytes : Bytes) (s : Stream) :
    ∃ e : StreamEvent, e.IsPartOf bytes ∧ (s.write bytes).2.sent = s.sent ++ [e] := by
  unfold write
  split
  · refine ⟨_, Or.inl ⟨bytes.length, rfl⟩, ?_⟩
    simp [sent, note, StreamEvent.isWrite]
  · refine ⟨_, Or.inl ⟨bytes.length, rfl⟩, ?_⟩
    simp [sent, note, StreamEvent.isWrite]
  · rename_i limit rest h
    refine ⟨_, Or.inl ⟨limit, rfl⟩, ?_⟩
    simp [sent, note, StreamEvent.isWrite]
  · rename_i error rest h
    refine ⟨_, Or.inr ⟨error.kind, rfl⟩, ?_⟩
    simp [sent, note, StreamEvent.isWrite]

theorem sent_of_write {bytes : Bytes} {s s' : Stream} {result : Except StreamError Nat}
    (h : s.write bytes = (result, s')) : ∃ e, s'.sent = s.sent ++ [e] := by
  obtain ⟨e, -, hsent⟩ := sent_write bytes s
  rw [h] at hsent
  exact ⟨e, hsent⟩

theorem sent_writeAll (bytes : Bytes) (s : Stream) :
    ∃ more, (s.writeAll bytes).2.sent = s.sent ++ more := by
  fun_induction writeAll bytes s with
  | case1 s => exact ⟨[], by simp⟩
  | case2 s b bs e s' hwrite hagain ih =>
    obtain ⟨e', hsent⟩ := sent_of_write hwrite
    obtain ⟨more, hmore⟩ := ih
    exact ⟨e' :: more, by rw [hmore, hsent, List.append_assoc]; rfl⟩
  | case3 s b bs e s' hwrite hstop =>
    obtain ⟨e', hsent⟩ := sent_of_write hwrite
    exact ⟨[e'], hsent⟩
  | case4 s b bs s' hwrite =>
    obtain ⟨e', hsent⟩ := sent_of_write hwrite
    exact ⟨[e'], hsent⟩
  | case5 s b bs s' n hwrite ih =>
    obtain ⟨e', hsent⟩ := sent_of_write hwrite
    obtain ⟨more, hmore⟩ := ih
    exact ⟨e' :: more, by rw [hmore, hsent, List.append_assoc]; rfl⟩

theorem sent_answer (r : Response) (s : Stream) :
    ∃ e : StreamEvent, e.IsPartOf r.framed ∧ (s.answer r).2.sent = s.sent ++ [e] := by
  obtain ⟨e, he, hsent⟩ := sent_write r.framed s
  refine ⟨e, he, ?_⟩
  unfold answer
  split
  · rename_i h
    rwa [h] at hsent
  · rename_i n s' h
    rw [h] at hsent
    have hflush := (sent_flush s').trans hsent
    split <;> rename_i h' <;> rwa [h'] at hflush

def writeCalls (s : Stream) : Nat := s.sent.length

theorem writeCalls_outgoing (s : Stream) : s.outgoing.writeCalls = s.writeCalls := by
  rw [writeCalls, sent_outgoing, writeCalls]

theorem writeCalls_shutdown (s : Stream) : s.shutdown.2.writeCalls = s.writeCalls := by
  rw [writeCalls, sent_shutdown, writeCalls]

theorem writeCalls_answer (r : Response) (s : Stream) :
    (s.answer r).2.writeCalls = s.writeCalls + 1 := by
  obtain ⟨e, -, hsent⟩ := sent_answer r s
  rw [writeCalls, hsent, List.length_append, List.length_singleton, writeCalls]

end Stream

namespace Channel

theorem outgoing_readFrom (capacity : Nat) (m : Message) (c : Channel) :
    (c.readFrom capacity m).2.stream.outgoing = c.stream.outgoing := by
  fun_induction readFrom capacity m c with
  | case1 => rfl
  | case2 m c payload hline e s hread =>
    have := Stream.outgoing_read frameSize c.stream
    rwa [hread] at this
  | case3 m c payload hline s hread =>
    have := Stream.outgoing_read frameSize c.stream
    rwa [hread] at this
  | case4 m c payload hline b bs s hread ih =>
    have := Stream.outgoing_read frameSize c.stream
    rw [hread] at this
    rw [ih]
    exact this

theorem outgoing_readMessage (capacity : Nat) (c : Channel) :
    (c.readMessage capacity).2.stream.outgoing = c.stream.outgoing :=
  outgoing_readFrom capacity {} c

theorem respond_answer (r : Response) (c : Channel) :
    (∃ e, (c.respond r).1 = .error (.stream e) ∧
        c.stream.outgoing.answer r = (some e, (c.respond r).2.stream.outgoing)) ∨
      (∃ n, (c.respond r).1 = .ok n) ∧
        c.stream.outgoing.answer r = (none, (c.respond r).2.stream.outgoing) := by
  have hwrite := Stream.write_outgoing r.framed c.stream
  unfold respond send Stream.answer
  split
  · rename_i e s h
    rw [h] at hwrite
    exact Or.inl ⟨e, rfl, by rw [hwrite]⟩
  · rename_i n s h
    rw [h] at hwrite
    have hflush := Stream.flush_outgoing s
    split
    · rename_i e s' h'
      rw [h'] at hflush
      exact Or.inl ⟨e, rfl, by simp only [hwrite, hflush]⟩
    · rename_i s' h'
      rw [h'] at hflush
      exact Or.inr ⟨⟨n, rfl⟩, by simp only [hwrite, hflush]; rfl⟩

theorem sent_respond (r : Response) (c : Channel) :
    ∃ e : StreamEvent, e.IsPartOf r.framed ∧
      (c.respond r).2.stream.sent = c.stream.sent ++ [e] := by
  obtain ⟨e, he, hsent⟩ := Stream.sent_answer r c.stream.outgoing
  refine ⟨e, he, ?_⟩
  rw [← Stream.sent_outgoing, ← Stream.sent_outgoing c.stream, ← hsent]
  rcases respond_answer r c with ⟨error, -, hanswer⟩ | ⟨-, hanswer⟩ <;> rw [hanswer]

theorem items_respond (r : Response) (c : Channel) : (c.respond r).2.items = c.items := by
  have hwrite := Stream.arrivals_write r.framed c.stream
  unfold respond send items Stream.items
  split
  · rename_i e s h
    rw [h] at hwrite
    exact congrArg (fun l => c.buffer.map .byte ++ l.flatMap Arrival.items) hwrite
  · rename_i n s h
    rw [h] at hwrite
    have hflush := (Stream.arrivals_flush s).trans hwrite
    split <;> rename_i s' h' <;> rw [h'] at hflush <;>
      exact congrArg (fun l => c.buffer.map .byte ++ l.flatMap Arrival.items) hflush

theorem sent_readMessage (capacity : Nat) (c : Channel) :
    (c.readMessage capacity).2.stream.sent = c.stream.sent := by
  rw [← Stream.sent_outgoing, outgoing_readMessage, Stream.sent_outgoing]

theorem outgoing_shutdown (c : Channel) :
    c.shutdown.2.stream.outgoing = c.stream.outgoing.shutdown.2 := by
  rw [Stream.shutdown_outgoing]
  unfold shutdown
  split <;> rename_i h <;> rw [h]

theorem sent_shutdown (c : Channel) : c.shutdown.2.stream.sent = c.stream.sent := by
  rw [← Stream.sent_outgoing, outgoing_shutdown, Stream.sent_shutdown, Stream.sent_outgoing]

theorem sent_sendFrame (frame : Bytes) (c : Channel) :
    ∃ more, (c.sendFrame frame).2.stream.sent = c.stream.sent ++ more := by
  obtain ⟨more, hmore⟩ := Stream.sent_writeAll frame c.stream
  refine ⟨more, ?_⟩
  unfold sendFrame
  split <;> rename_i h <;> rwa [h] at hmore

theorem sent_flush (c : Channel) : c.flush.2.stream.sent = c.stream.sent := by
  have hflush := Stream.sent_flush c.stream
  unfold flush
  split <;> rename_i h <;> rwa [h] at hflush

end Channel

end Teleop
