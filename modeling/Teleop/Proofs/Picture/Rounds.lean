import Teleop.Proofs.Picture.Course
import Teleop.Proofs.Picture.Frames

/-!
# A transfer, round by round

In one round of a transfer a frame is read from the source and written to the channel. A transfer is
a run of such rounds, and each of its laws is an induction on that run: what got through is always
the front of what was read, and the first call that fails is the last one.
-/

namespace Teleop

/-! ## Rounds -/

inductive TransferCall where
  | source (e : StreamEvent)
  | channel (e : StreamEvent)
deriving DecidableEq, Repr

namespace TransferCall

def event : TransferCall → StreamEvent
  | source e | channel e => e

def count : TransferCall → Nat
  | source e => e.count
  | channel _ => 0

def bytes : TransferCall → Bytes
  | source _ => []
  | channel e => e.bytes

end TransferCall

def takenBy (calls : List TransferCall) : Nat := (calls.map TransferCall.count).sum

def broughtBy (calls : List TransferCall) : Bytes := calls.flatMap TransferCall.bytes

/-- What the two streams see of one frame, and in the last round, of the end of the transfer. -/
structure Round where
  reads : List StreamEvent
  writes : List StreamEvent
deriving DecidableEq, Repr

namespace Round

/-- The frame is read before any of it is written. -/
def calls (r : Round) : List TransferCall := r.reads.map .source ++ r.writes.map .channel

def bytes (r : Round) : Bytes := r.writes.flatMap StreamEvent.bytes

/-- What the streams saw between two moments. -/
def between (source source' : Stream) (c c' : Channel) : Round where
  reads := source'.seen.drop source.seen.length
  writes := c'.stream.seen.drop c.stream.seen.length

theorem between_eq {source source' : Stream} {c c' : Channel} {reads writes : List StreamEvent}
    (hreads : source'.seen = source.seen ++ reads)
    (hwrites : c'.stream.seen = c.stream.seen ++ writes) :
    between source source' c c' = ⟨reads, writes⟩ := by
  rw [between, hreads, hwrites, List.drop_left, List.drop_left]

end Round

def rounds (source : Stream) (progress : Progress) (c : Channel) : List Round :=
  match _ : sendNextFrame source progress c with
  | .failed _ source' c' => [.between source source' c c']
  | .sent source' progress' c' => .between source source' c c' :: rounds source' progress' c'
  | .exhausted source' c' => [.between source source' c c'.flush.2]
termination_by source.remaining
decreasing_by exact remaining_of_sendNextFrame ‹_›

def callsOf (rounds : List Round) : List TransferCall := rounds.flatMap Round.calls

theorem takenBy_append (a b : List TransferCall) : takenBy (a ++ b) = takenBy a + takenBy b := by
  rw [takenBy, List.map_append, List.sum_append, takenBy, takenBy]

theorem broughtBy_append (a b : List TransferCall) :
    broughtBy (a ++ b) = broughtBy a ++ broughtBy b :=
  List.flatMap_append

@[simp] theorem takenBy_source (reads : List StreamEvent) :
    takenBy (reads.map .source) = (reads.map StreamEvent.count).sum := by
  rw [takenBy, List.map_map]
  rfl

@[simp] theorem takenBy_channel (writes : List StreamEvent) :
    takenBy (writes.map .channel) = 0 := by
  induction writes with
  | nil => rfl
  | cons e writes ih => rw [List.map_cons, ← List.singleton_append, takenBy_append, ih]; rfl

@[simp] theorem broughtBy_source (reads : List StreamEvent) :
    broughtBy (reads.map .source) = [] := by
  rw [broughtBy, List.flatMap_map]
  exact List.flatMap_eq_nil_iff.mpr fun _ _ => rfl

@[simp] theorem broughtBy_channel (writes : List StreamEvent) :
    broughtBy (writes.map .channel) = writes.flatMap StreamEvent.bytes := by
  rw [broughtBy, List.flatMap_map]
  rfl

/-! ## The run of a transfer -/

/-- How a transfer goes on from here, `progress` being what it sent before. -/
inductive Copying : Stream → Progress → Channel → List Round → Except PictureError Transfer →
    Stream → Channel → Prop
  | frame {source source₁ source' : Stream} {progress : Progress} {c c₁ c' : Channel}
    {reads writes : List StreamEvent} {frame : Bytes} {rounds : List Round}
    {result : Except PictureError Transfer} (hgives : source.Gives reads frame source₁)
    (hlist : source.frameList = source₁.frameList.cons frame)
    (hbrought : c.stream.Brought writes frame c₁.stream)
    (rest : Copying source₁ (progress.add frame) c₁ rounds result source' c') :
    Copying source progress c (⟨reads, writes⟩ :: rounds) result source' c'
  /-- What there is of a frame when a read fails is lost. -/
  | sourceFailed {source source₁ source' : Stream} {progress : Progress} {c : Channel}
    {reads : List StreamEvent} {lost : Bytes} {e : StreamError}
    (hgives : source.Gives reads lost source₁) (hlost : lost.length < frameSize)
    (hlist : source.frameList = { failure? := some e })
    (hitems : source₁.items = .failure e :: source'.items)
    (hseen : source'.seen = source₁.seen ++ [.readFailed e.kind]) :
    Copying source progress c [⟨reads ++ [.readFailed e.kind], []⟩] (.error (.cannotRead e))
      source' c
  | writeFailed {source source' : Stream} {progress : Progress} {c c' : Channel}
    {reads writes : List StreamEvent} {frame bytes : Bytes} {s : Stream} {call : StreamEvent}
    {e : StreamError} (hgives : source.Gives reads frame source')
    (hlist : source.frameList = source'.frameList.cons frame)
    (hbrought : c.stream.Brought writes bytes s) (hpart : bytes <+: frame)
    (hrefused : s.Refused call e c'.stream) :
    Copying source progress c [⟨reads, writes ++ [call]⟩] (.error (.channel (.stream e))) source' c'
  | flushFailed {source source' : Stream} {progress : Progress} {c c' : Channel}
    {reads : List StreamEvent} {e : StreamError} (hgives : source.Gives reads [] source')
    (hlist : source.frameList = {})
    (hflushes : c.stream.flushes = some e :: c'.stream.flushes)
    (hseen : c'.stream.seen = c.stream.seen ++ [.flushFailed e.kind]) :
    Copying source progress c [⟨reads, [.flushFailed e.kind]⟩] (.error (.channel (.stream e)))
      source' c'
  | complete {source source' : Stream} {progress : Progress} {c c' : Channel}
    {reads : List StreamEvent} (hgives : source.Gives reads [] source')
    (hlist : source.frameList = {}) (hseen : c'.stream.seen = c.stream.seen ++ [.flushed]) :
    Copying source progress c [⟨reads, [.flushed]⟩]
      (.ok (.sent progress.bytes progress.frames)) source' c'

inductive NextFrame (source : Stream) (progress : Progress) (c : Channel) : FrameStep → Prop
  | sent {source' : Stream} {c' : Channel} {reads writes : List StreamEvent} {frame : Bytes}
    (hgives : source.Gives reads frame source')
    (hlist : source.frameList = source'.frameList.cons frame)
    (hbrought : c.stream.Brought writes frame c'.stream) :
    NextFrame source progress c (.sent source' (progress.add frame) c')
  | exhausted {source' : Stream} {reads : List StreamEvent} (hgives : source.Gives reads [] source')
    (hlist : source.frameList = {}) : NextFrame source progress c (.exhausted source' c)
  | failed {source' : Stream} {c' : Channel} {e : PictureError} {round : Round}
    (h : Copying source progress c [round] (.error e) source' c')
    (hreads : source'.seen = source.seen ++ round.reads)
    (hwrites : c'.stream.seen = c.stream.seen ++ round.writes) :
    NextFrame source progress c (.failed e source' c')

theorem nextFrame (source : Stream) (progress : Progress) (c : Channel) :
    NextFrame source progress c (sendNextFrame source progress c) := by
  have hlist := frameList_fillFrame source
  have hfills := fills_fillFrame [] source
  unfold sendNextFrame
  rcases hfill : fillFrame [] source with ⟨e | _ | ⟨b, bs⟩, source'⟩ <;> rw [hfill] at hlist hfills
  · cases hfills with
    | broken hgives hroom hitems hseen =>
      rw [List.length_nil, Nat.zero_add] at hroom
      refine .failed (.sourceFailed hgives hroom hlist hitems hseen) ?_ (List.append_nil _).symm
      rw [hseen, hgives.seen, List.append_assoc]
  · cases hfills with
    | filled hgives => exact .exhausted hgives hlist
  · obtain ⟨reads, hgives⟩ : ∃ reads, source.Gives reads (b :: bs) source' := by
      generalize hresult : (Except.ok (b :: bs) : Except StreamError Bytes) = result at hfills
      cases hfills with
      | filled hgives =>
        obtain rfl := Except.ok.inj hresult
        exact ⟨_, hgives⟩
      | broken => cases hresult
    have hcarries := Stream.carries_writeAll (b :: bs) c.stream
    dsimp only
    unfold Channel.sendFrame
    rcases hwrite : c.stream.writeAll (b :: bs) with ⟨e | _, s⟩ <;> rw [hwrite] at hcarries
    · cases hcarries with
      | part hbrought hpart hrefused =>
        have hcopying : Copying source progress c _ _ source' { c with stream := s } :=
          .writeFailed hgives hlist hbrought hpart hrefused
        refine .failed hcopying hgives.seen ?_
        rw [hrefused.seen, hbrought.seen, List.append_assoc]
    · cases hcarries with
      | whole hbrought => exact .sent hgives hlist hbrought

/-! ## The end of a transfer -/

theorem Channel.flush_error {c c' : Channel} {e : ChannelError} (h : c.flush = (.error e, c')) :
    ∃ e', e = .stream e' ∧ c.stream.flushes = some e' :: c'.stream.flushes ∧
      c'.stream.seen = c.stream.seen ++ [.flushFailed e'.kind] := by
  unfold Channel.flush Stream.flush at h
  split at h <;> obtain ⟨hanswer, rfl⟩ := Prod.mk.inj h <;> cases hanswer
  rename_i e' s hflush
  split at hflush <;> obtain ⟨hanswer, rfl⟩ := Prod.mk.inj hflush <;> cases hanswer
  rename_i rest hflushes
  exact ⟨e', rfl, hflushes, rfl⟩

theorem Channel.seen_of_flush {c c' : Channel} (h : c.flush = (.ok (), c')) :
    c'.stream.seen = c.stream.seen ++ [.flushed] := by
  unfold Channel.flush Stream.flush at h
  split at h <;> obtain ⟨hanswer, rfl⟩ := Prod.mk.inj h <;> cases hanswer
  rename_i s hflush
  split at hflush <;> obtain ⟨hanswer, rfl⟩ := Prod.mk.inj hflush <;> cases hanswer
  rfl

theorem rounds_eq (source : Stream) (progress : Progress) (c : Channel) :
    rounds source progress c =
      match sendNextFrame source progress c with
      | .failed _ source' c' => [.between source source' c c']
      | .sent source' progress' c' => .between source source' c c' :: rounds source' progress' c'
      | .exhausted source' c' => [.between source source' c c'.flush.2] := by
  rw [rounds]
  split <;> rename_i hstep <;> rw [hstep]

theorem copying_sendPicture (source : Stream) (progress : Progress) (c : Channel) :
    Copying source progress c (rounds source progress c) (sendPicture source progress c).1
      (sendPicture source progress c).2.1 (sendPicture source progress c).2.2 := by
  -- The rounds go with the transfer step by step, and each way it takes is one constructor.
  fun_induction sendPicture source progress c with
  | case1 source progress c e source' c' hstep =>
    have hnext := nextFrame source progress c
    rw [hstep] at hnext
    rw [rounds_eq, hstep]
    dsimp only
    cases hnext with
    | failed h hreads hwrites =>
      rw [Round.between_eq hreads hwrites]
      exact h
  | case2 source progress c source' progress' c' hstep ih =>
    have hnext := nextFrame source progress c
    rw [hstep] at hnext
    rw [rounds_eq, hstep]
    dsimp only
    cases hnext with
    | sent hgives hlist hbrought =>
      rw [Round.between_eq hgives.seen hbrought.seen]
      exact .frame hgives hlist hbrought ih
  | case3 source progress c source' c' hstep e c'' hflush =>
    have hnext := nextFrame source progress c
    rw [hstep] at hnext
    rw [rounds_eq, hstep]
    dsimp only
    cases hnext with
    | exhausted hgives hlist =>
      obtain ⟨e', rfl, hflushes, hseen⟩ := Channel.flush_error hflush
      rw [hflush, Round.between_eq hgives.seen hseen]
      exact .flushFailed hgives hlist hflushes hseen
  | case4 source progress c source' c' hstep _ c'' hflush =>
    have hnext := nextFrame source progress c
    rw [hstep] at hnext
    rw [rounds_eq, hstep]
    dsimp only
    cases hnext with
    | exhausted hgives hlist =>
      have hseen := Channel.seen_of_flush hflush
      rw [hflush, Round.between_eq hgives.seen hseen]
      exact .complete hgives hlist hseen

end Teleop
