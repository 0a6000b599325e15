import Teleop.Proofs.Picture.Serving
import Teleop.Proofs.Picture.Visit

/-!
# What comes of a connection

A connection of the image channel is let go as it came if its handshake fails. Else it gets one
request, whatever comes of that, and then one shutdown.
-/

namespace Teleop

/-! ## Shutdowns -/

def StreamEvent.isShutdown : StreamEvent → Bool
  | .shut | .shutFailed _ => true
  | _ => false

namespace Stream

/-- The shutdowns of a stream: how they will go, and how they went. -/
def ends (s : Stream) : List (Option StreamError) × List StreamEvent :=
  (s.shutdowns, s.seen.filter StreamEvent.isShutdown)

theorem ends_outgoing (s : Stream) : s.outgoing.ends = s.ends := by
  rw [ends, ends, outgoing, List.filter_filter]
  congr 2
  funext e
  cases e <;> rfl

theorem ends_write (bytes : Bytes) (s : Stream) : (s.write bytes).2.ends = s.ends := by
  unfold write
  split <;> simp [ends, note, StreamEvent.isShutdown]

theorem ends_flush (s : Stream) : s.flush.2.ends = s.ends := by
  unfold flush
  split <;> simp [ends, note, StreamEvent.isShutdown]

theorem ends_writeAll (bytes : Bytes) (s : Stream) : (s.writeAll bytes).2.ends = s.ends := by
  fun_induction writeAll bytes s with
  | case1 s => rfl
  | case2 s b bs e s' hwrite hagain ih =>
    rw [ih, ← ends_write (b :: bs) s, hwrite]
  | case3 s b bs e s' hwrite hstop => rw [← ends_write (b :: bs) s, hwrite]
  | case4 s b bs s' hwrite => rw [← ends_write (b :: bs) s, hwrite]
  | case5 s b bs s' n hwrite ih => rw [ih, ← ends_write (b :: bs) s, hwrite]

theorem seen_shutdown (s : Stream) :
    ∃ e : StreamEvent, e.isShutdown = true ∧ s.shutdown.2.seen = s.seen ++ [e] := by
  unfold shutdown
  split
  · exact ⟨_, rfl, rfl⟩
  · exact ⟨_, rfl, rfl⟩

end Stream

namespace Channel

theorem ends_readMessage (capacity : Nat) (c : Channel) :
    (c.readMessage capacity).2.stream.ends = c.stream.ends := by
  rw [← Stream.ends_outgoing, outgoing_readMessage, Stream.ends_outgoing]

theorem ends_respond (a : Response) (c : Channel) :
    (c.respond a).2.stream.ends = c.stream.ends := by
  have hwrite := Stream.ends_write a.framed c.stream
  unfold respond send
  split <;> rename_i h <;> rw [h] at hwrite
  · exact hwrite
  · rename_i n s
    have hflush := (Stream.ends_flush s).trans hwrite
    split <;> rename_i h' <;> rw [h'] at hflush <;> exact hflush

theorem ends_sendFrame (frame : Bytes) (c : Channel) :
    (c.sendFrame frame).2.stream.ends = c.stream.ends := by
  have hwrite := Stream.ends_writeAll frame c.stream
  unfold sendFrame
  split <;> rename_i h <;> rw [h] at hwrite <;> exact hwrite

theorem ends_flush (c : Channel) : c.flush.2.stream.ends = c.stream.ends := by
  have hflush := Stream.ends_flush c.stream
  unfold flush
  split <;> rename_i h <;> rw [h] at hflush <;> exact hflush

theorem seen_shutdown (c : Channel) :
    ∃ e : StreamEvent, e.isShutdown = true ∧
      c.shutdown.2.stream.seen = c.stream.seen ++ [e] := by
  have hshut := Stream.seen_shutdown c.stream
  unfold shutdown
  split <;> rename_i h <;> rw [h] at hshut <;> exact hshut

end Channel

theorem ends_sendNextFrame (source : Stream) (progress : Progress) (c : Channel) :
    (sendNextFrame source progress c).channel.stream.ends = c.stream.ends := by
  unfold sendNextFrame
  split
  · rfl
  · rfl
  · rename_i b bs source' hfill
    have hframe := c.ends_sendFrame (b :: bs)
    split <;> rename_i h <;> rw [h] at hframe <;> exact hframe

namespace Request

theorem ends_step (r : Request) (s : SessionState) (studio : Studio) :
    (r.step s studio).1.channel.stream.ends = r.channel.stream.ends := by
  unfold step
  split
  · have hread := r.channel.ends_readMessage messageCapacity
    split <;> rename_i h <;> rw [h] at hread <;> exact hread
  · unfold check
    split <;> rfl
  · rename_i accepted hphase
    have hanswer := r.channel.ends_respond (if accepted then .pictureOk else .pictureErr)
    split <;> rename_i h <;> rw [h] at hanswer <;> exact hanswer
  · dsimp only
    split <;> rfl
  · split <;> rfl
  · rename_i source progress hphase
    have hframe := ends_sendNextFrame source progress r.channel
    split <;> rename_i h <;> rw [h] at hframe <;> exact hframe
  · have hflush := r.channel.ends_flush
    split <;> rename_i h <;> rw [h] at hflush <;> exact hflush
  · rfl

theorem ends_finishAmid (others : Nat → SessionState → SessionState) (n : Nat) (r : Request)
    (s : SessionState) (studio : Studio) :
    (r.finishAmid others n s studio).2.1.channel.stream.ends = r.channel.stream.ends := by
  fun_induction finishAmid others n r s studio with
  | case1 n r s studio result h => rfl
  | case2 n r s studio h next ih => rw [ih, ends_step]

end Request

/-! ## A request among changes of the flags -/

/-- Before the step number `n` the flags are set to what was found there. -/
def met (found : List SessionState) (n : Nat) (s : SessionState) : SessionState :=
  found.getD n s

/-- Serves the request of a connection, of which each step finds the flags that `found` says. -/
def Connection.serve (c : Connection) (found : List SessionState) (studio : Studio) : Visit :=
  visit (met found) { stream := c.stream } {} studio

namespace Request

/-- The request of this connection is where it is behind as many steps as flags were found, and it
has no result yet. -/
structure Midway (c : Connection) (begun : Studio) (found : List SessionState) (r : Request)
    (studio : Studio) : Prop where
  unfinished : r.result? = none
  along : ∀ s rest, finishAmid (met (found ++ s :: rest)) 0 { channel := { stream := c.stream } } {}
    begun = r.finishAmid (met (found ++ s :: rest)) found.length s studio

theorem finishAmid_found {r : Request} (h : r.result? = none) (found : List SessionState)
    (s : SessionState) (rest : List SessionState) (studio : Studio) (t : SessionState) :
    r.finishAmid (met (found ++ s :: rest)) found.length t studio =
      (r.step s studio).1.finishAmid (met (found ++ s :: rest)) (found.length + 1)
        (r.step s studio).2.1 (r.step s studio).2.2 := by
  refine finishAmid_of_step h ?_
  simp [met]

theorem midway_begin (c : Connection) (studio : Studio) :
    Midway c studio [] { channel := { stream := c.stream } } studio := by
  refine ⟨rfl, ?_⟩
  intro s rest
  have hunfinished : ({ channel := { stream := c.stream } } : Request).result? = none := rfl
  have hfirst := finishAmid_found hunfinished [] s rest studio
  exact (hfirst {}).trans (hfirst s).symm

variable {c : Connection} {begun studio : Studio} {found : List SessionState} {r : Request}

theorem Midway.step (h : Midway c begun found r studio) {s : SessionState}
    (hresult : (r.step s studio).1.result? = none) :
    Midway c begun (found ++ [s]) (r.step s studio).1 (r.step s studio).2.2 := by
  refine ⟨hresult, ?_⟩
  intro t rest
  rw [List.append_assoc, List.singleton_append, h.along s (t :: rest),
    finishAmid_found h.unfinished]
  have hnext := finishAmid_found hresult (found ++ [s]) t rest (r.step s studio).2.2
  rw [List.append_assoc, List.singleton_append, List.length_append] at hnext
  rw [List.length_append]
  exact (hnext _).trans (hnext _).symm

theorem Midway.serve (h : Midway c begun found r studio) {s : SessionState}
    {result : Except PictureError Transfer} (hresult : (r.step s studio).1.result? = some result) :
    c.serve (found ++ [s]) begun =
      { result
        channel := (r.step s studio).1.channel
        session := (r.step s studio).2.1
        studio := (r.step s studio).2.2 } := by
  unfold Connection.serve visit
  rw [h.along s [], finishAmid_found h.unfinished, finishAmid_of_result hresult]

end Request

theorem ends_serve (c : Connection) (found : List SessionState) (studio : Studio) :
    (c.serve found studio).channel.stream.ends = c.stream.ends :=
  Request.ends_finishAmid _ _ _ _ _

/-! ## Deals -/

/-- What came of a connection that was taken. -/
inductive Deal where
  | refused (c : Connection) (e : StreamError)
  /-- The steps of its request found these flags. -/
  | served (c : Connection) (found : List SessionState) (v : Visit)

namespace Deal

def connection : Deal → Connection
  | refused c _ | served c _ _ => c

def found : Deal → List SessionState
  | refused .. => []
  | served _ found _ => found

def result? : Deal → Option (Except PictureError Transfer)
  | refused .. => none
  | served _ _ v => some v.result

/-- The connection as it is let go. -/
def released : Deal → Connection
  | refused c _ => c
  | served c _ v => { id := c.id, stream := v.channel.shutdown.2.stream }

/-- The handshake of the connection says how it was dealt with. -/
def Sound : Deal → Prop
  | refused c e => c.handshake = .refused e
  | served c found v => c.handshake = .done ∧ ∃ studio, v = c.serve found studio

/-- Behind its request a stream sees one shutdown, and it sees none before. -/
def ShutOnce : Deal → Prop
  | refused .. => True
  | served c found v =>
    v.channel.stream.seen.filter StreamEvent.isShutdown =
        c.stream.seen.filter StreamEvent.isShutdown ∧
      ∃ e : StreamEvent, e.isShutdown = true ∧
        (served c found v).released.stream.seen = v.channel.stream.seen ++ [e]

theorem Sound.shutOnce {d : Deal} (h : d.Sound) : d.ShutOnce := by
  cases d with
  | refused c e => trivial
  | served c found v =>
    obtain ⟨-, studio, rfl⟩ := h
    exact ⟨congrArg Prod.snd (ends_serve c found studio), Channel.seen_shutdown _⟩

end Deal

/-- Connections are dealt with one after the other, each from its beginning to its end. -/
inductive Dealt (begun : Studio) : List Deal → Studio → Prop where
  | start : Dealt begun [] begun
  | refused {deals : List Deal} {studio : Studio} {c : Connection} {e : StreamError}
      (h : Dealt begun deals studio) (hc : c.handshake = .refused e) :
      Dealt begun (deals ++ [.refused c e]) studio
  | served {deals : List Deal} {studio : Studio} {c : Connection} (found : List SessionState)
      (h : Dealt begun deals studio) (hc : c.handshake = .done) :
      Dealt begun (deals ++ [.served c found (c.serve found studio)])
        (c.serve found studio).studio

namespace Dealt

variable {begun studio : Studio} {deals : List Deal}

theorem sound (h : Dealt begun deals studio) : ∀ d ∈ deals, d.Sound := by
  induction h with
  | start => simp
  | refused h hc ih =>
    intro d hd
    rcases List.mem_append.mp hd with hd | hd
    · exact ih d hd
    · cases List.mem_singleton.mp hd
      exact hc
  | served found h hc ih =>
    intro d hd
    rcases List.mem_append.mp hd with hd | hd
    · exact ih d hd
    · cases List.mem_singleton.mp hd
      exact ⟨hc, _, rfl⟩

end Dealt

end Teleop
