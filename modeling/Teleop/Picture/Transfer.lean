import Teleop.Wire.Channel

/-!
# The body of a picture

A picture goes over the wire in frames. Every frame is read in full before it is written, so only
the last one before an end of the source can be short.
-/

namespace Teleop

/-- Why a picture request was not completed. -/
inductive PictureError where
  | channel (e : ChannelError)
  | capture (e : RobotError)
  | cannotOpen (path : String) (e : SystemError)
  | cannotRead (e : StreamError)
deriving DecidableEq, Repr

def PictureError.message : PictureError → String
  | channel e => e.message
  | capture e => e.message
  | cannotOpen path e => "cannot open " ++ path ++ ": " ++ e.message
  | cannotRead e => "cannot read picture: " ++ e.text

inductive Transfer where
  /-- The request was refused and nothing was captured. -/
  | rejected
  /-- The whole picture was sent. -/
  | sent (bytes frames : Nat)
deriving DecidableEq, Repr

/-- What was sent so far. -/
structure Progress where
  bytes : Nat := 0
  frames : Nat := 0
deriving DecidableEq, Repr

def Progress.add (p : Progress) (frame : Bytes) : Progress :=
  { bytes := p.bytes + frame.length, frames := p.frames + 1 }

/-- Reads until `frame` is full or the source has nothing. -/
def fillFrame (frame : Bytes) (source : Stream) : Except StreamError Bytes × Stream :=
  if frame.length < frameSize then
    match source.read (frameSize - frame.length) with
    | (.error e, source) => (.error e, source)
    | (.ok [], source) => (.ok frame, source)
    | (.ok (b :: bs), source) => fillFrame (frame ++ b :: bs) source
  else (.ok frame, source)
termination_by frameSize - frame.length

theorem remaining_fillFrame (frame : Bytes) (source : Stream) :
    (fillFrame frame source).2.remaining ≤ source.remaining ∧
      ∀ frame' source', fillFrame frame source = (.ok frame', source') →
        source'.remaining + frame'.length ≤ source.remaining + frame.length := by
  fun_induction fillFrame frame source with
  | case1 frame source hlen e s hread =>
    have := Stream.remaining_read_le (frameSize - frame.length) source
    simp only [hread] at this
    exact ⟨this, by simp⟩
  | case2 frame source hlen s hread =>
    have := Stream.remaining_read_le (frameSize - frame.length) source
    simp only [hread] at this
    refine ⟨this, ?_⟩
    rintro frame' source' ⟨⟩
    omega
  | case3 frame source hlen b bs s hread ih =>
    have := Stream.remaining_read_lt hread
    refine ⟨by omega, fun frame' source' h => ?_⟩
    have := ih.2 frame' source' h
    simp only [List.length_append, List.length_cons] at this
    omega
  | case4 frame source hlen =>
    refine ⟨Nat.le_refl _, ?_⟩
    rintro frame' source' ⟨⟩
    omega

/-- One frame on its way: the next part of the source is read and written. -/
inductive FrameStep where
  | sent (source : Stream) (progress : Progress) (channel : Channel)
  | exhausted (source : Stream) (channel : Channel)
  | failed (e : PictureError) (source : Stream) (channel : Channel)

def sendNextFrame (source : Stream) (progress : Progress) (c : Channel) : FrameStep :=
  match fillFrame [] source with
  | (.error e, source) => .failed (.cannotRead e) source c
  | (.ok [], source) => .exhausted source c
  | (.ok (b :: bs), source) =>
    match c.sendFrame (b :: bs) with
    | (.error e, c) => .failed (.channel e) source c
    | (.ok _, c) => .sent source (progress.add (b :: bs)) c

theorem remaining_of_sendNextFrame {source source' : Stream} {p p' : Progress} {c c' : Channel}
    (h : sendNextFrame source p c = .sent source' p' c') : source'.remaining < source.remaining := by
  unfold sendNextFrame at h
  split at h
  · simp at h
  · simp at h
  · rename_i b bs s hfill
    have := (remaining_fillFrame [] source).2 _ _ hfill
    simp only [List.length_cons, List.length_nil] at this
    split at h
    · simp at h
    · simp only [FrameStep.sent.injEq] at h
      obtain ⟨rfl, -, -⟩ := h
      omega

/-- Sends frames until the source is at its end, and flushes. -/
def sendPicture (source : Stream) (progress : Progress) (c : Channel) :
    Except PictureError Transfer × Stream × Channel :=
  match _ : sendNextFrame source progress c with
  | .failed e source c => (.error e, source, c)
  | .sent source progress c => sendPicture source progress c
  | .exhausted source c =>
    match c.flush with
    | (.error e, c) => (.error (.channel e), source, c)
    | (.ok _, c) => (.ok (.sent progress.bytes progress.frames), source, c)
termination_by source.remaining
decreasing_by exact remaining_of_sendNextFrame ‹_›

end Teleop
