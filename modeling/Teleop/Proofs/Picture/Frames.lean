import Teleop.Picture.Transfer
import Teleop.Proofs.Wire.Ledger
import Teleop.Proofs.Wire.WholeWrites

/-!
# The frames of a source

What a source comes to when it is read frame by frame. A reader of single items finds the same
frames as one that fills a frame chunk by chunk. A read of nothing cuts a frame short and ends the
source only at the edge of a frame, so a source without errors is sent segment by segment.
-/

namespace Teleop

/-- The bytes that a stream still brings. -/
def Stream.content (s : Stream) : Bytes := s.items.filterMap Item.byte?

structure FrameList where
  frames : List Bytes := []
  failure? : Option StreamError := none
deriving DecidableEq, Repr

def FrameList.cons (frame : Bytes) (l : FrameList) : FrameList :=
  { l with frames := frame :: l.frames }

/-- The frames for a reader of single items, with `frame` the part of the next one that is there
already. A read of nothing ends this frame, or the source if there is nothing of it. An error
discards it. -/
def framesFrom (frame : Bytes) : List Item → FrameList
  | [] => if frame = [] then {} else { frames := [frame] }
  | .nothing :: rest => if frame = [] then {} else (framesFrom [] rest).cons frame
  | .failure e :: _ => { failure? := some e }
  | .byte b :: rest =>
    if frame.length + 1 < frameSize then framesFrom (frame ++ [b]) rest
    else (framesFrom [] rest).cons (frame ++ [b])

/-- What a source comes to from here on. -/
def Stream.frameList (s : Stream) : FrameList := framesFrom [] s.items

/-! ## Filling a frame -/

theorem framesFrom_bytes {frame bytes : Bytes} (rest : List Item)
    (hframe : frame.length < frameSize) (hroom : frame.length + bytes.length ≤ frameSize) :
    framesFrom frame (bytes.map .byte ++ rest) =
      if (frame ++ bytes).length < frameSize then framesFrom (frame ++ bytes) rest
      else (framesFrom [] rest).cons (frame ++ bytes) := by
  induction bytes generalizing frame with
  | nil => simp [hframe]
  | cons b bs ih =>
    rw [List.length_cons] at hroom
    rw [List.map_cons, List.cons_append, framesFrom]
    split
    · rename_i hmore
      have hlength : (frame ++ [b]).length = frame.length + 1 := List.length_append
      rw [ih (by omega) (by omega), List.append_assoc]
      rfl
    · obtain rfl : bs = [] := List.eq_nil_of_length_eq_zero (by omega)
      rw [if_neg (by rw [List.length_append, List.length_singleton]; omega)]
      rfl

theorem framesFrom_fillFrame (frame : Bytes) (source : Stream) (h : frame.length ≤ frameSize) :
    (if frame.length < frameSize then framesFrom frame source.items
      else (framesFrom [] source.items).cons frame) =
      match fillFrame frame source with
      | (.error e, _) => { failure? := some e }
      | (.ok [], _) => {}
      | (.ok (b :: bs), source') => source'.frameList.cons (b :: bs) := by
  fun_induction fillFrame frame source with
  | case1 frame source hlen e s hread =>
    rw [if_pos hlen, items_read_error (by omega) hread, framesFrom]
  | case2 frame source hlen s hread =>
    rw [if_pos hlen]
    rcases items_read_nothing (by omega) hread with hitems | ⟨hitems, hrest⟩
    · rw [hitems, framesFrom]
      cases frame <;> rfl
    · rw [hitems, framesFrom]
      cases frame with
      | nil => rfl
      | cons b bs =>
        -- Its script is over, so the source gives nothing for ever.
        have hover : s.frameList = {} := by rw [Stream.frameList, hrest, framesFrom, if_pos rfl]
        dsimp only
        rw [hover]
        rfl
  | case3 frame source hlen b bs s hread ih =>
    have hroom := Stream.length_read_le hread
    rw [if_pos hlen, items_read_bytes (by omega) hread, framesFrom_bytes _ hlen (by omega)]
    exact ih (by rw [List.length_append]; omega)
  | case4 frame source hlen =>
    rw [if_neg hlen]
    cases frame with
    | nil => exact absurd (by decide) hlen
    | cons b bs => rfl

theorem frameList_fillFrame (source : Stream) :
    source.frameList =
      match fillFrame [] source with
      | (.error e, _) => { failure? := some e }
      | (.ok [], _) => {}
      | (.ok (b :: bs), source') => source'.frameList.cons (b :: bs) := by
  have h := framesFrom_fillFrame [] source (by decide)
  rwa [if_pos (by decide)] at h

/-! ## What filling a frame takes -/

theorem Stream.seen_read {room : Nat} {s s' : Stream} {r : Except StreamError Bytes}
    (h : s.read room = (r, s')) :
    s'.seen = s.seen ++ [match r with
      | .ok bytes => .read bytes.length
      | .error e => .readFailed e.kind] := by
  unfold Stream.read at h
  split at h <;> obtain ⟨rfl, rfl⟩ := Prod.mk.inj h <;> rfl

/-- These reads took bytes off a source, and more can follow. -/
structure Stream.Gives (source : Stream) (reads : List StreamEvent) (taken : Bytes)
    (source' : Stream) : Prop where
  seen : source'.seen = source.seen ++ reads
  goesOn : ∀ e ∈ reads, e.isRead = true ∧ e.goesOn = true
  count : (reads.map StreamEvent.count).sum = taken.length
  items : ∃ used, source.items = used ++ source'.items ∧ used.filterMap Item.byte? = taken

namespace Stream.Gives

variable {source source₁ source' : Stream} {reads : List StreamEvent} {taken : Bytes}

theorem content (h : source.Gives reads taken source') :
    source.content = taken ++ source'.content := by
  obtain ⟨used, hitems, hused⟩ := h.items
  rw [Stream.content, hitems, List.filterMap_append, hused, Stream.content]

theorem nothing (source : Stream) : source.Gives [] [] source :=
  ⟨(List.append_nil _).symm, nofun, rfl, [], rfl, rfl⟩

theorem cons {bytes : Bytes} (hseen : source₁.seen = source.seen ++ [.read bytes.length])
    (hitems : source.items = bytes.map .byte ++ source₁.items)
    (h : source₁.Gives reads taken source') :
    source.Gives (.read bytes.length :: reads) (bytes ++ taken) source' where
  seen := by
    rw [h.seen, hseen, List.append_assoc]
    rfl
  goesOn := List.forall_mem_cons.mpr ⟨⟨rfl, rfl⟩, h.goesOn⟩
  count := by
    rw [List.map_cons, List.sum_cons, h.count, List.length_append]
    rfl
  items := by
    obtain ⟨used, hused, rfl⟩ := h.items
    refine ⟨bytes.map .byte ++ used, by rw [hitems, hused, List.append_assoc], ?_⟩
    rw [List.filterMap_append, List.filterMap_map]
    exact congrArg (· ++ _) List.filterMap_some

end Stream.Gives

/-- What becomes of a frame that is filled: a read finds nothing or the frame is full, or a read
fails before it is. -/
inductive Fills (frame : Bytes) (source : Stream) : Except StreamError Bytes → Stream → Prop
  | filled {reads : List StreamEvent} {taken : Bytes} {source' : Stream}
    (h : source.Gives reads taken source') : Fills frame source (.ok (frame ++ taken)) source'
  | broken {reads : List StreamEvent} {taken : Bytes} {source₁ source' : Stream} {e : StreamError}
    (h : source.Gives reads taken source₁) (hroom : frame.length + taken.length < frameSize)
    (hitems : source₁.items = .failure e :: source'.items)
    (hseen : source'.seen = source₁.seen ++ [.readFailed e.kind]) :
    Fills frame source (.error e) source'

theorem Fills.cons {frame bytes : Bytes} {source source₁ source' : Stream}
    {result : Except StreamError Bytes}
    (hseen : source₁.seen = source.seen ++ [.read bytes.length])
    (hitems : source.items = bytes.map .byte ++ source₁.items)
    (h : Fills (frame ++ bytes) source₁ result source') : Fills frame source result source' := by
  cases h with
  | filled h =>
    rw [List.append_assoc]
    exact .filled (h.cons hseen hitems)
  | broken h hroom hfailure hlast =>
    refine .broken (h.cons hseen hitems) ?_ hfailure hlast
    rwa [List.length_append, ← Nat.add_assoc, ← List.length_append]

theorem fills_fillFrame (frame : Bytes) (source : Stream) :
    Fills frame source (fillFrame frame source).1 (fillFrame frame source).2 := by
  fun_induction fillFrame frame source with
  | case1 frame source hlen e s hread =>
    exact .broken (.nothing source) hlen (items_read_error (by omega) hread)
      (Stream.seen_read hread)
  | case2 frame source hlen s hread =>
    have hgives : source.Gives [.read 0] [] s := by
      refine ⟨Stream.seen_read hread, by simp [StreamEvent.isRead, StreamEvent.goesOn], rfl, ?_⟩
      rcases items_read_nothing (by omega) hread with hitems | ⟨hitems, hrest⟩
      · exact ⟨[.nothing], hitems, rfl⟩
      · exact ⟨[], hitems.trans hrest.symm, rfl⟩
    have hfilled : Fills frame source (.ok (frame ++ [])) s := .filled hgives
    rwa [List.append_nil] at hfilled
  | case3 frame source hlen b bs s hread ih =>
    exact ih.cons (Stream.seen_read hread) (items_read_bytes (by omega) hread)
  | case4 frame source hlen =>
    have hfilled : Fills frame source (.ok (frame ++ [])) source := .filled (.nothing source)
    rwa [List.append_nil] at hfilled

/-! ## Cutting bytes into frames -/

/-- Full frames, and the bytes that are left in one more. -/
def cutFrames : Bytes → List Bytes
  | [] => []
  | b :: bs => (b :: bs).take frameSize :: cutFrames ((b :: bs).drop frameSize)
termination_by bytes => bytes.length
decreasing_by
  rw [List.length_drop, List.length_cons, frameSize]
  omega

/-- So many frames hold `n` bytes. -/
def frameCount (n : Nat) : Nat := (n + (frameSize - 1)) / frameSize

theorem cutFrames_of_ne_nil {bytes : Bytes} (h : bytes ≠ []) :
    cutFrames bytes = bytes.take frameSize :: cutFrames (bytes.drop frameSize) := by
  cases bytes with
  | nil => contradiction
  | cons b bs => rw [cutFrames]

theorem cutFrames_of_le {bytes : Bytes} (h : bytes ≠ []) (hle : bytes.length ≤ frameSize) :
    cutFrames bytes = [bytes] := by
  rw [cutFrames_of_ne_nil h, List.take_of_length_le hle, List.drop_of_length_le hle, cutFrames]

theorem cutFrames_append {frame : Bytes} (h : frame.length = frameSize) (bytes : Bytes) :
    cutFrames (frame ++ bytes) = frame :: cutFrames bytes := by
  have hne : frame ++ bytes ≠ [] := by
    intro hnil
    simp [List.append_eq_nil_iff.mp hnil, frameSize] at h
  rw [cutFrames_of_ne_nil hne, ← h, List.take_left, List.drop_left]

theorem flatten_cutFrames (bytes : Bytes) : (cutFrames bytes).flatten = bytes := by
  fun_induction cutFrames bytes with
  | case1 => rfl
  | case2 b bs ih => rw [List.flatten_cons, ih, List.take_append_drop]

theorem length_cutFrames (bytes : Bytes) : (cutFrames bytes).length = frameCount bytes.length := by
  fun_induction cutFrames bytes with
  | case1 => rfl
  | case2 b bs ih =>
    rw [List.length_cons, ih, frameCount, frameCount, List.length_drop, List.length_cons]
    simp only [frameSize]
    omega

theorem length_of_mem_dropLast_cutFrames {bytes frame : Bytes}
    (h : frame ∈ (cutFrames bytes).dropLast) : frame.length = frameSize := by
  fun_induction cutFrames bytes with
  | case1 => cases h
  | case2 b bs ih =>
    by_cases hrest : (b :: bs).drop frameSize = []
    · simp [hrest, cutFrames] at h
    · rw [List.dropLast_cons_of_ne_nil (by simp [cutFrames_of_ne_nil hrest]), List.mem_cons] at h
      rcases h with rfl | h
      · have := List.drop_eq_nil_iff.not.mp hrest
        rw [List.length_take]
        omega
      · exact ih h

/-! ## Segments -/

/-- The bytes between the reads of nothing. -/
def segments (items : List Item) : List Bytes :=
  (items.splitOnP (· == .nothing)).map fun part => part.filterMap Item.byte?

/-- The segments up to the first that ends at the edge of a frame, and this one. -/
def throughEdge : List Bytes → List Bytes
  | [] => []
  | segment :: rest =>
    if segment.length % frameSize = 0 then [segment] else segment :: throughEdge rest

theorem segments_nil : segments [] = [[]] := rfl

theorem segments_nothing (rest : List Item) :
    segments (.nothing :: rest) = [] :: segments rest := by
  rw [segments, List.splitOnP_cons_eq_if_modifyHead, if_pos (by simp)]
  rfl

theorem segments_byte (b : UInt8) (rest : List Item) :
    segments (.byte b :: rest) = (segments rest).modifyHead (b :: ·) := by
  rw [segments, List.splitOnP_cons_eq_if_modifyHead, if_neg (by simp), segments]
  cases rest.splitOnP (· == .nothing) <;> rfl

theorem segments_ne_nil (items : List Item) : segments items ≠ [] := by
  rw [segments, Ne, List.map_eq_nil_iff]
  exact List.splitOnP_ne_nil _ _

theorem throughEdge_append {frame : Bytes} (h : frame.length = frameSize) {parts : List Bytes}
    (hparts : parts ≠ []) :
    (throughEdge (parts.modifyHead (frame ++ ·))).flatMap cutFrames =
      frame :: (throughEdge parts).flatMap cutFrames := by
  cases parts with
  | nil => contradiction
  | cons first rest =>
    have hmod : (frame ++ first).length % frameSize = first.length % frameSize := by
      rw [List.length_append, h, Nat.add_mod_left]
    rw [List.modifyHead_cons, throughEdge, throughEdge, hmod]
    split <;> simp only [List.flatMap_cons, cutFrames_append h, List.cons_append]

theorem framesFrom_segments {frame : Bytes} {items : List Item} (hframe : frame.length < frameSize)
    (hitems : ∀ e, .failure e ∉ items) :
    framesFrom frame items =
      { frames := (throughEdge ((segments items).modifyHead (frame ++ ·))).flatMap cutFrames } := by
  -- The bytes of the frame that is begun stand in front of the first segment.
  have hcut : ∀ {bytes : Bytes}, bytes ≠ [] → bytes.length < frameSize →
      cutFrames bytes = [bytes] := fun hne hlt =>
    cutFrames_of_le hne (Nat.le_of_lt hlt)
  have hedge : ∀ {bytes : Bytes}, bytes ≠ [] → bytes.length < frameSize →
      ¬ bytes.length % frameSize = 0 := fun hne hlt => by
    rw [Nat.mod_eq_of_lt hlt, List.length_eq_zero_iff]
    exact hne
  have hwhole : ∀ parts : List Bytes, parts.modifyHead ([] ++ ·) = parts := fun parts => by
    cases parts <;> rfl
  induction items generalizing frame with
  | nil =>
    rw [framesFrom, segments_nil, List.modifyHead_cons, List.append_nil, throughEdge, throughEdge]
    split
    · rename_i hnil
      simp [hnil, cutFrames]
    · rename_i hne
      simp [hcut hne hframe]
  | cons item rest ih =>
    have hrest : ∀ e, .failure e ∉ rest := fun e h => hitems e (List.mem_cons_of_mem _ h)
    cases item with
    | failure e => exact absurd List.mem_cons_self (hitems e)
    | nothing =>
      have hnext := @ih [] (by decide) hrest
      rw [hwhole] at hnext
      rw [framesFrom, segments_nothing, List.modifyHead_cons, List.append_nil, throughEdge]
      split
      · rename_i hnil
        simp [hnil, cutFrames]
      · rename_i hne
        rw [if_neg (hedge hne hframe), List.flatMap_cons, hcut hne hframe, hnext]
        rfl
    | byte b =>
      have hlength : (frame ++ [b]).length = frame.length + 1 := List.length_append
      have hsegments : (segments (.byte b :: rest)).modifyHead (frame ++ ·) =
          (segments rest).modifyHead ((frame ++ [b]) ++ ·) := by
        rw [segments_byte, List.modifyHead_modifyHead]
        congr 1
        funext bytes
        simp
      rw [framesFrom, hsegments]
      split
      · exact ih (by omega) hrest
      · rw [throughEdge_append (by omega) (segments_ne_nil rest), @ih [] (by decide) hrest,
          hwhole]
        rfl

end Teleop
