import Teleop.Proofs.Picture.Fidelity

/-!
# A source that is sent segment by segment

Over a source and a channel that do not fail, a transfer comes to its end. What it sends are the
segments of the source, each cut into frames of its own, up to the first that ends at the edge of a
frame. A source that is read without a pause is sent as a whole.
-/

namespace Teleop

def Acceptance.TakesSome : Acceptance → Prop
  | .all => True
  | .upTo limit => 0 < limit
  | .failure _ => False

theorem Acceptance.TakesSome.not_refuses {a : Acceptance} {call : StreamEvent} {e : StreamError}
    (h : a.TakesSome) : ¬ a.Refuses call e := by
  rintro (_ | _)
  · exact h
  · exact absurd h (Nat.lt_irrefl 0)

def Stream.sentSegments (source : Stream) : List Bytes := throughEdge (segments source.items)

/-- No bytes come behind a read of nothing, and no read fails. -/
def Stream.IsSteady (source : Stream) : Prop :=
  ∃ pauses, source.items = source.content.map .byte ++ List.replicate pauses .nothing

structure SendsSegments (source : Stream) (c : Channel) : Prop where
  result : (sendPicture source {} c).1 = .ok (.sent source.sentSegments.flatten.length
    (source.sentSegments.map fun segment => frameCount segment.length).sum)
  received : (sendPicture source {} c).2.2.stream.received =
    c.stream.received ++ source.sentSegments.flatten
  /-- Every round but the last brings one frame through. -/
  frames : (rounds source {} c).dropLast.map Round.bytes = source.sentSegments.flatMap cutFrames
  /-- All frames of a segment are full but the last. -/
  full : ∀ segment ∈ source.sentSegments, ∀ frame ∈ (cutFrames segment).dropLast,
    frame.length = frameSize
  /-- A source without a pause before its end is sent as a whole. -/
  whole : source.IsSteady →
    (sendPicture source {} c).1 =
        .ok (.sent source.content.length (frameCount source.content.length)) ∧
      (sendPicture source {} c).2.2.stream.received = c.stream.received ++ source.content ∧
        (rounds source {} c).dropLast.map Round.bytes = cutFrames source.content ∧
          ∀ frame ∈ (cutFrames source.content).dropLast, frame.length = frameSize
  /-- An empty source leaves nothing but a flush. -/
  empty : source.content = [] →
    (sendPicture source {} c).2.2.stream.seen = c.stream.seen ++ [.flushed]

/-! ## Items and arrivals -/

theorem failure_mem_items {s : Stream} {e : StreamError} :
    .failure e ∈ s.items ↔ .failure e ∈ s.arrivals := by
  rw [Stream.items, List.mem_flatMap]
  constructor
  · rintro ⟨_ | e', harrival, hitem⟩
    · rename_i bytes
      cases bytes <;> simp [Arrival.items] at hitem
    · obtain rfl : e = e' := by simpa [Arrival.items] using hitem
      exact harrival
  · intro harrival
    exact ⟨_, harrival, List.mem_singleton_self _⟩

theorem segments_bytes (bytes : Bytes) (pauses : Nat) :
    segments (bytes.map .byte ++ List.replicate pauses .nothing) =
      bytes :: List.replicate pauses [] := by
  induction bytes with
  | nil =>
    induction pauses with
    | zero => rfl
    | succ pauses ih =>
      rw [List.map_nil, List.nil_append] at ih ⊢
      rw [List.replicate_succ, segments_nothing, ih, List.replicate_succ]
  | cons b bs ih =>
    rw [List.map_cons, List.cons_append, segments_byte, ih, List.modifyHead_cons]

theorem flatMap_throughEdge (bytes : Bytes) (pauses : Nat) :
    (throughEdge (bytes :: List.replicate pauses [])).flatMap cutFrames = cutFrames bytes := by
  have hnone : (throughEdge (List.replicate pauses [])).flatMap cutFrames = [] := by
    cases pauses with
    | zero => rfl
    | succ pauses => simp [List.replicate_succ, throughEdge, cutFrames]
  rw [throughEdge]
  split
  · rw [List.flatMap_singleton]
  · rw [List.flatMap_cons, hnone, List.append_nil]

theorem sum_length_cutFrames (parts : List Bytes) :
    (parts.flatMap cutFrames).flatten = parts.flatten ∧
      (parts.flatMap cutFrames).length = (parts.map fun part => frameCount part.length).sum := by
  induction parts with
  | nil => exact ⟨rfl, rfl⟩
  | cons part parts ih =>
    obtain ⟨hflatten, hlength⟩ := ih
    constructor
    · rw [List.flatMap_cons, List.flatten_append, flatten_cutFrames, hflatten, List.flatten_cons]
    · rw [List.flatMap_cons, List.length_append, length_cutFrames, hlength, List.map_cons,
        List.sum_cons]

/-! ## The transfer -/

theorem Stream.received_of_seen {s s' : Stream} {events : List StreamEvent}
    (h : s'.seen = s.seen ++ events) :
    s'.received = s.received ++ events.flatMap StreamEvent.bytes := by
  rw [received, h, List.flatMap_append, received]
  congr 2

theorem broughtBy_callsOf (rounds : List Round) :
    broughtBy (callsOf rounds) = (rounds.flatMap Round.writes).flatMap StreamEvent.bytes := by
  induction rounds with
  | nil => rfl
  | cons r rounds ih =>
    rw [callsOf_cons, broughtBy_append, ih, Round.broughtBy_calls, List.flatMap_cons,
      List.flatMap_append, Round.bytes]

variable {source : Stream} {c : Channel}

theorem sent_of_no_fault {source' : Stream} {c' : Channel} {rounds : List Round}
    {result : Except PictureError Transfer} (h : Copied source c rounds result source' c')
    (hsource : ∀ e, .failure e ∉ source.arrivals) (hwrites : ∀ a ∈ c.stream.writes, a.TakesSome)
    (hflush : c.stream.flushes.head?.join = none) : ∃ n k, result = .ok (.sent n k) := by
  obtain ⟨before, last, -, -, hends⟩ := h.ends
  -- An error has to come from one of the scripts.
  cases hends with
  | sent n k => exact ⟨n, k, rfl⟩
  | sourceFailed hitems =>
    rename_i e
    have hmem : .failure e ∈ source.items := by simp [hitems]
    exact absurd (failure_mem_items.mp hmem) (hsource e)
  | writeFailed hscript ha =>
    refine absurd ha (hwrites _ ?_).not_refuses
    rw [hscript]
    simp
  | flushFailed hscript =>
    rw [hscript] at hflush
    cases hflush

theorem Stream.IsSteady.cutFrames (h : source.IsSteady) :
    source.sentSegments.flatMap Teleop.cutFrames = Teleop.cutFrames source.content := by
  obtain ⟨pauses, hitems⟩ := h
  rw [Stream.sentSegments, hitems, segments_bytes, flatMap_throughEdge]

theorem rounds_of_no_frame {rounds : List Round} {last : Round}
    (hlast : rounds.getLast? = some last) (hfull : rounds.dropLast = []) : rounds = [last] := by
  rw [← List.dropLast_append_getLast? last hlast, hfull, List.nil_append]

theorem Stream.frameList_of_no_failure (hsource : ∀ e, .failure e ∉ source.arrivals) :
    source.frameList = { frames := source.sentSegments.flatMap Teleop.cutFrames } := by
  have hitems : ∀ e, .failure e ∉ source.items := fun e he => hsource e (failure_mem_items.mp he)
  have hnil : (segments source.items).modifyHead ([] ++ ·) = segments source.items := by
    cases segments source.items <;> rfl
  rw [Stream.frameList, framesFrom_segments (by decide) hitems, hnil, Stream.sentSegments]

namespace Copied

variable {source' : Stream} {c' : Channel} {rounds : List Round} {n k : Nat}

theorem sent_segments (h : Copied source c rounds (.ok (.sent n k)) source' c')
    (hsource : ∀ e, .failure e ∉ source.arrivals) :
    rounds.dropLast.map Round.bytes = source.sentSegments.flatMap cutFrames ∧
      broughtBy (callsOf rounds) = source.sentSegments.flatten ∧
        n = source.sentSegments.flatten.length ∧
          k = (source.sentSegments.map fun segment => frameCount segment.length).sum := by
  obtain ⟨hthrough, -, hn, hk, -⟩ := h.sent n k rfl
  have hlist := Stream.frameList_of_no_failure hsource
  have hframes : rounds.dropLast.map Round.bytes = source.sentSegments.flatMap cutFrames :=
    congrArg FrameList.frames (hthrough.frames.symm.trans hlist)
  obtain ⟨hflatten, hcount⟩ := sum_length_cutFrames source.sentSegments
  have hbrought : broughtBy (callsOf rounds) = source.sentSegments.flatten := by
    rw [hthrough.brought, hframes, hflatten]
  refine ⟨hframes, hbrought, hbrought ▸ hn, ?_⟩
  rw [hk, ← List.length_map Round.bytes, hframes, hcount]

theorem sent_content (h : Copied source c rounds (.ok (.sent n k)) source' c')
    (hsource : ∀ e, .failure e ∉ source.arrivals) (hsteady : source.IsSteady) :
    rounds.dropLast.map Round.bytes = cutFrames source.content ∧
      broughtBy (callsOf rounds) = source.content ∧ n = source.content.length ∧
        k = frameCount source.content.length := by
  obtain ⟨hframes, hbrought, hn, hk⟩ := h.sent_segments hsource
  obtain ⟨hflatten, hcount⟩ := sum_length_cutFrames source.sentSegments
  have hcut := hsteady.cutFrames
  have hwhole : source.sentSegments.flatten = source.content := by
    rw [← hflatten, hcut, flatten_cutFrames]
  rw [← hcount, hcut, length_cutFrames] at hk
  exact ⟨hframes.trans hcut, hbrought.trans hwhole, hwhole ▸ hn, hk⟩

theorem received (h : Copied source c rounds (.ok (.sent n k)) source' c') :
    c'.stream.received = c.stream.received ++ broughtBy (callsOf rounds) := by
  rw [Stream.received_of_seen h.channel_seen, broughtBy_callsOf]

end Copied

/-- **Over a source and a channel that do not fail, a transfer sends the segments of the source up
to the first that ends at the edge of a frame.** -/
theorem sendPicture_sends_segments (source : Stream) (c : Channel)
    (hsource : ∀ e, .failure e ∉ source.arrivals) (hwrites : ∀ a ∈ c.stream.writes, a.TakesSome)
    (hflush : c.stream.flushes.head?.join = none) : SendsSegments source c := by
  have h := (copying_sendPicture source {} c).copied
  obtain ⟨n, k, hresult⟩ := sent_of_no_fault h hsource hwrites hflush
  rw [hresult] at h
  have hreceived := h.received
  obtain ⟨hframes, hbrought, hn, hk⟩ := h.sent_segments hsource
  refine ⟨by rw [hresult, hn, hk], hbrought ▸ hreceived, hframes,
    fun _ _ _ => length_of_mem_dropLast_cutFrames, ?_, ?_⟩
  · intro hsteady
    obtain ⟨hframes, hbrought, hn, hk⟩ := h.sent_content hsource hsteady
    exact ⟨by rw [hresult, hn, hk], hbrought ▸ hreceived, hframes,
      fun _ => length_of_mem_dropLast_cutFrames⟩
  · intro hempty
    -- Nothing is brought through, so there is no frame, and the one round is the last.
    obtain ⟨hthrough, -, -, -, reads, hlast⟩ := h.sent n k rfl
    have hnone : source.sentSegments.flatten = [] := by
      have hcontent := hthrough.content
      rw [hempty, hbrought] at hcontent
      exact (List.append_eq_nil_iff.mp hcontent.symm).1
    have hfull : (rounds source {} c).dropLast = [] := by
      rw [← List.map_eq_nil_iff, hframes, List.flatMap_eq_nil_iff]
      intro segment hsegment
      rw [List.flatten_eq_nil_iff.mp hnone segment hsegment, cutFrames]
    rw [h.channel_seen, rounds_of_no_frame hlast hfull]
    rfl

/-- Segments of 40, 64 and 5 bytes, of which the last is not sent. The channel takes the bytes as it
likes. -/
theorem sendPicture_sends_two_segments :
    let source : Stream :=
      { arrivals := [.chunk (.pattern 33), .chunk (.pattern 7), .chunk [], .chunk (.pattern 64),
          .chunk [], .chunk (.pattern 5)] }
    let c : Channel := { stream := { writes := [.upTo 1, .upTo 40, .all, .upTo 3] } }
    (∀ e, .failure e ∉ source.arrivals) ∧ (∀ a ∈ c.stream.writes, a.TakesSome) ∧
      c.stream.flushes.head?.join = none ∧ SendsSegments source c ∧
        (sendPicture source {} c).1 = .ok (.sent 104 4) := by
  intro source c
  have hsource : ∀ e, .failure e ∉ source.arrivals := by simp [source]
  have hwrites : ∀ a ∈ c.stream.writes, a.TakesSome := by simp [c, Acceptance.TakesSome]
  have hsends := sendPicture_sends_segments source c hsource hwrites rfl
  exact ⟨hsource, hwrites, rfl, hsends, hsends.result.trans (by decide)⟩

end Teleop
