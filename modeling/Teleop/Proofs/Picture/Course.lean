import Teleop.Picture.Request
import Teleop.Proofs.Wire.Directions

/-!
# The course of a picture request

What a request shows on its way: its message is read, the gate looks at it, it is answered by what
the gate found, and it captures only behind a `PICTURE_OK`.
-/

namespace Teleop

inductive RequestMark where
  | read
  /-- What the message said, and whether the operator was connected when the gate looked. -/
  | checked (word : Bytes) (connected : Bool)
  | answered (r : Response)
  | captured
deriving DecidableEq, Repr

/-- The answer to a request, by what the gate found. -/
def verdict (word : Bytes) (connected : Bool) : Response :=
  if Command.parse? word = some .picture ∧ connected = true then .pictureOk else .pictureErr

/-- All that a request shows if nothing goes wrong. -/
def course (word : Bytes) (connected : Bool) : List RequestMark :=
  [.read, .checked word connected, .answered (verdict word connected)] ++
    if verdict word connected = .pictureOk then [.captured] else []

theorem verdict_eq_pictureOk {word : Bytes} {connected : Bool} :
    verdict word connected = .pictureOk ↔ word = Command.picture.bytes ∧ connected = true := by
  unfold verdict
  simp only [Command.parse?_eq_some_iff]
  split
  · rename_i hboth
    exact iff_of_true rfl hboth
  · rename_i hnot
    exact iff_of_false (by simp) hnot

theorem verdict_cases (word : Bytes) (connected : Bool) :
    verdict word connected = .pictureOk ∨ verdict word connected = .pictureErr := by
  unfold verdict
  split
  · exact Or.inl rfl
  · exact Or.inr rfl

theorem take_course {word : Bytes} {connected : Bool} (h : verdict word connected = .pictureOk) :
    (course word connected).take 4 = course word connected := by
  rw [course, if_pos h]
  rfl

/-! ## Frames -/

/-- The channel that a frame leaves behind. -/
def FrameStep.channel : FrameStep → Channel
  | sent _ _ c | exhausted _ c | failed _ _ c => c

theorem sent_sendNextFrame (source : Stream) (progress : Progress) (c : Channel) :
    ∃ more, (sendNextFrame source progress c).channel.stream.sent = c.stream.sent ++ more := by
  unfold sendNextFrame
  split
  · exact ⟨[], by simp [FrameStep.channel]⟩
  · exact ⟨[], by simp [FrameStep.channel]⟩
  · rename_i b bs source' hfill
    obtain ⟨more, hmore⟩ := c.sent_sendFrame (b :: bs)
    refine ⟨more, ?_⟩
    split <;> rename_i h <;> rwa [h] at hmore

namespace Request

/-- What the next step of a request shows. -/
def mark? (r : Request) (s : SessionState) : Option RequestMark :=
  match r.phase with
  | .reading => (r.channel.readMessage messageCapacity).1.toOption.map fun _ => .read
  | .checking m => some (.checked m.bytes s.connected)
  | .answering accepted => some (.answered (if accepted then .pictureOk else .pictureErr))
  | .capturing => some .captured
  | _ => none

theorem mark?_eq_checked {r : Request} {s : SessionState} {word : Bytes} {connected : Bool}
    (h : r.mark? s = some (.checked word connected)) : connected = s.connected := by
  unfold mark? at h
  cases hphase : r.phase <;> simp_all

/-- The first thing that the client was sent is this answer, or a part of it. Nothing follows an
answer that refuses the request. -/
def Said (s : Stream) (a : Response) (r : Request) : Prop :=
  ∃ (e : StreamEvent) (more : List StreamEvent), e.IsPartOf a.framed ∧
    (a ≠ .pictureOk → more = []) ∧ r.channel.stream.sent = s.sent ++ e :: more

/-- A request in this phase has shown so many marks and is to get this answer. -/
def Fits (count : Nat) (a : Response) : RequestPhase → Prop
  | .reading => count = 0
  | .checking _ => count = 1
  | .answering accepted => count = 2 ∧ (accepted = true ↔ a = .pictureOk)
  | .capturing => count = 3 ∧ a = .pictureOk
  | .opening _ | .sending .. | .flushing _ => count = 4 ∧ a = .pictureOk
  | .served _ => count = 0 ∨ 3 ≤ count

/-- How far a request on the stream `s` is, by what it has shown. -/
structure Stage (s : Stream) (shown : List RequestMark) (r : Request) (word : Bytes)
    (connected : Bool) (count : Nat) : Prop where
  shown_eq : shown = (course word connected).take count
  fits : Fits count (verdict word connected) r.phase
  silent : count < 3 → r.channel.stream.sent = s.sent
  said : 3 ≤ count → r.Said s (verdict word connected)

/-- The request came on the stream `s` and has shown this. -/
def OnCourse (s : Stream) (shown : List RequestMark) (r : Request) : Prop :=
  ∃ word connected count, r.Stage s shown word connected count

variable {s : Stream} {shown : List RequestMark} {r : Request}

theorem onCourse_begin (s : Stream) : OnCourse s [] { channel := { stream := s } } :=
  ⟨[], false, 0, rfl, rfl, fun _ => rfl, fun h => absurd h (by simp)⟩

/-! ## One step -/

theorem said_of_respond {a : Response} {r' : Request} (hsent : r.channel.stream.sent = s.sent)
    (h : r'.channel = (r.channel.respond a).2) : r'.Said s a := by
  obtain ⟨e, hpart, hanswer⟩ := Channel.sent_respond a r.channel
  refine ⟨e, [], hpart, fun _ => rfl, ?_⟩
  rw [h, hanswer, hsent]

theorem response_of_accepted {word : Bytes} {connected accepted : Bool}
    (h : accepted = true ↔ verdict word connected = .pictureOk) :
    (if accepted then Response.pictureOk else .pictureErr) = verdict word connected := by
  cases accepted with
  | true => simpa using (h.mp rfl).symm
  | false =>
    rcases verdict_cases word connected with hok | herr
    · exact absurd (h.mpr hok) (by simp)
    · simpa using herr.symm

theorem onCourse_check {m : Message} (state : SessionState)
    (hsent : r.channel.stream.sent = s.sent) :
    (check m state r.channel).OnCourse s [.read, .checked m.bytes state.connected] := by
  refine ⟨m.bytes, state.connected, 2, rfl, ?_, fun _ => ?_, fun h => absurd h (by simp)⟩
  · unfold check
    split
    · rename_i hparse
      exact ⟨rfl, by simp [verdict, hparse]⟩
    · rename_i hparse
      exact ⟨rfl, by simp [verdict, not_not.mp hparse]⟩
  · unfold check
    split <;> exact hsent

theorem onCourse_read (hphase : r.phase = .reading)
    (hsent : r.channel.stream.sent = s.sent) (state : SessionState) (studio : Studio) :
    (r.step state studio).1.OnCourse s (r.mark? state).toList := by
  have hread := (Channel.sent_readMessage messageCapacity r.channel).trans hsent
  unfold step mark?
  rw [hphase]
  rcases hmessage : r.channel.readMessage messageCapacity with ⟨e | m, c⟩ <;>
    rw [hmessage] at hread
  · exact ⟨[], false, 0, rfl, Or.inl rfl, fun _ => hread, fun h => absurd h (by simp)⟩
  · exact ⟨[], false, 1, rfl, rfl, fun _ => hread, fun h => absurd h (by simp)⟩

theorem onCourse_answer {word : Bytes} {connected accepted : Bool}
    (hphase : r.phase = .answering accepted)
    (haccepted : accepted = true ↔ verdict word connected = .pictureOk)
    (hsent : r.channel.stream.sent = s.sent) (state : SessionState) (studio : Studio) :
    (r.step state studio).1.OnCourse s
      ([.read, .checked word connected] ++ (r.mark? state).toList) := by
  unfold step mark?
  rw [hphase]
  simp only [response_of_accepted haccepted]
  rcases hanswer : r.channel.respond (verdict word connected) with ⟨e | n, c⟩
  · refine ⟨word, connected, 3, rfl, Or.inr (Nat.le_refl _), fun h => absurd h (by simp), ?_⟩
    exact fun _ => said_of_respond hsent (by rw [hanswer]; rfl)
  · refine ⟨word, connected, 3, rfl, ?_, fun h => absurd h (by simp), ?_⟩
    · cases haccept : accepted with
      | true => exact ⟨rfl, haccepted.mp haccept⟩
      | false => exact Or.inr (Nat.le_refl _)
    · exact fun _ => said_of_respond hsent (by rw [hanswer])

end Request

/-- The request was answered `PICTURE_OK` and goes on. -/
def RequestPhase.isAccepted : RequestPhase → Bool
  | capturing | opening _ | sending .. | flushing _ => true
  | reading | checking _ | answering _ | served _ => false

namespace Request

variable {s : Stream} {shown : List RequestMark} {r : Request}

theorem step_accepted (h : r.phase.isAccepted = true) (state : SessionState) (studio : Studio) :
    Fits 4 .pictureOk (r.step state studio).1.phase ∧
      ∃ more, (r.step state studio).1.channel.stream.sent = r.channel.stream.sent ++ more := by
  have hsame := (List.append_nil r.channel.stream.sent).symm
  have hover : ∀ result, Fits 4 .pictureOk (.served result) := fun _ => Or.inr (by simp)
  unfold step
  cases hphase : r.phase with
  | reading | checking _ | answering _ | served _ => simp [hphase, RequestPhase.isAccepted] at h
  | capturing =>
    dsimp only
    split
    · exact ⟨hover _, [], hsame⟩
    · exact ⟨⟨rfl, rfl⟩, [], hsame⟩
  | opening path =>
    dsimp only
    split
    · exact ⟨hover _, [], hsame⟩
    · exact ⟨⟨rfl, rfl⟩, [], hsame⟩
  | sending source progress =>
    obtain ⟨more, hmore⟩ := sent_sendNextFrame source progress r.channel
    dsimp only
    split <;> rename_i hframe <;> rw [hframe] at hmore
    · exact ⟨hover _, more, hmore⟩
    · exact ⟨⟨rfl, rfl⟩, more, hmore⟩
    · exact ⟨⟨rfl, rfl⟩, more, hmore⟩
  | flushing progress =>
    have hflush := r.channel.sent_flush.trans hsame
    dsimp only
    split <;> rename_i h <;> rw [h] at hflush
    · exact ⟨hover _, [], hflush⟩
    · exact ⟨hover _, [], hflush⟩

theorem course_of_accepted {word : Bytes} {connected : Bool} {count : Nat}
    (h : r.phase.isAccepted = true) (hfits : Fits count (verdict word connected) r.phase)
    (state : SessionState) :
    verdict word connected = .pictureOk ∧ 3 ≤ count ∧
      (course word connected).take count ++ (r.mark? state).toList = course word connected := by
  unfold mark?
  cases hphase : r.phase with
  | reading | checking _ | answering _ | served _ => simp [hphase, RequestPhase.isAccepted] at h
  | capturing =>
    obtain ⟨rfl, hok⟩ : count = 3 ∧ _ := by simpa only [hphase, Fits] using hfits
    refine ⟨hok, Nat.le_refl _, ?_⟩
    rw [course, if_pos hok]
    rfl
  | opening _ | sending _ _ | flushing _ =>
    obtain ⟨rfl, hok⟩ : count = 4 ∧ _ := by simpa only [hphase, Fits] using hfits
    refine ⟨hok, by simp, ?_⟩
    rw [course, if_pos hok]
    rfl

theorem onCourse_accepted {word : Bytes} {connected : Bool} {count : Nat}
    (h : r.Stage s shown word connected count) (hphase : r.phase.isAccepted = true)
    (state : SessionState) (studio : Studio) :
    (r.step state studio).1.OnCourse s (shown ++ (r.mark? state).toList) := by
  obtain ⟨hok, hcount, hcourse⟩ := course_of_accepted hphase h.fits state
  obtain ⟨hfits, more, hmore⟩ := step_accepted hphase state studio
  obtain ⟨e, before, hpart, -, hbefore⟩ := h.said hcount
  rw [h.shown_eq, hcourse]
  refine ⟨word, connected, 4, (take_course hok).symm, hok ▸ hfits, fun h => absurd h (by simp), ?_⟩
  intro
  refine ⟨e, before ++ more, hpart, fun hne => absurd hok hne, ?_⟩
  rw [hmore, hbefore, List.append_assoc]
  rfl

theorem onCourse_step (h : r.OnCourse s shown) (state : SessionState) (studio : Studio) :
    (r.step state studio).1.OnCourse s (shown ++ (r.mark? state).toList) := by
  obtain ⟨word, connected, count, h⟩ := h
  -- The phase tells how many marks there are, but for a request that is over.
  have hfits := h.fits
  cases hphase : r.phase with
  | reading =>
    obtain rfl : count = 0 := by simpa [hphase, Fits] using hfits
    rw [h.shown_eq]
    exact onCourse_read hphase (h.silent (by simp)) state studio
  | checking m =>
    obtain rfl : count = 1 := by simpa [hphase, Fits] using hfits
    rw [h.shown_eq, step, mark?, hphase]
    exact onCourse_check state (h.silent (by simp))
  | answering accepted =>
    obtain ⟨rfl, haccepted⟩ : count = 2 ∧ _ := by simpa only [hphase, Fits] using hfits
    rw [h.shown_eq]
    exact onCourse_answer hphase haccepted (h.silent (by simp)) state studio
  | served result =>
    rw [step, mark?, hphase, Option.toList_none, List.append_nil]
    exact ⟨word, connected, count, h⟩
  | capturing | opening _ | sending _ _ | flushing _ =>
    exact onCourse_accepted h (by rw [hphase]; rfl) state studio

theorem captures_step (r : Request) (state : SessionState) (studio : Studio) :
    (r.step state studio).2.2.camera.captures =
      studio.camera.captures + (r.mark? state).toList.count .captured := by
  unfold step mark?
  cases r.phase with
  | reading =>
    dsimp only
    rcases r.channel.readMessage messageCapacity with ⟨e | m, c⟩
    · rfl
    · simp [Except.toOption]
  | checking m => simp
  | answering accepted =>
    dsimp only
    split <;> simp
  | capturing =>
    simp only [Camera.take, Option.toList_some, List.count_singleton_self]
    split <;> rfl
  | opening path =>
    dsimp only
    split <;> rfl
  | sending source progress =>
    dsimp only
    split <;> rfl
  | flushing progress =>
    dsimp only
    split <;> rfl
  | served result => rfl

/-! ## What a course tells -/

theorem shown_of_onCourse (h : r.OnCourse s shown) :
    ∃ word connected, shown <+: course word connected := by
  obtain ⟨word, connected, count, rfl, -⟩ := h
  exact ⟨word, connected, List.take_prefix _ _⟩

theorem three_le_of_answered {word : Bytes} {connected : Bool} {count : Nat} {a : Response}
    (h : .answered a ∈ (course word connected).take count) :
    3 ≤ count ∧ a = verdict word connected := by
  refine ⟨?_, ?_⟩
  · match count with
    | 0 | 1 | 2 => simp [course] at h
    | n + 3 => omega
  · have hmem := List.mem_of_mem_take h
    simpa [course] using hmem

theorem two_le_of_checked {word word' : Bytes} {connected connected' : Bool} {count : Nat}
    (h : .checked word' connected' ∈ (course word connected).take count) :
    2 ≤ count ∧ word' = word ∧ connected' = connected := by
  refine ⟨?_, ?_⟩
  · match count with
    | 0 | 1 => simp [course] at h
    | n + 2 => omega
  · have hmem := List.mem_of_mem_take h
    simpa [course] using hmem

/-- A request that was not answered has sent nothing, and an answered one this answer first. -/
theorem sent_of_onCourse (h : r.OnCourse s shown) :
    ((∀ a, .answered a ∉ shown) → r.channel.stream.sent = s.sent) ∧
      ∀ a, .answered a ∈ shown → r.Said s a := by
  obtain ⟨word, connected, count, rfl, -, hsilent, hsaid⟩ := h
  constructor
  · intro hnone
    apply hsilent
    by_contra hcount
    apply hnone (verdict word connected)
    obtain ⟨n, rfl⟩ : ∃ n, count = n + 3 := ⟨count - 3, by omega⟩
    simp [course]
  · intro a ha
    obtain ⟨hcount, rfl⟩ := three_le_of_answered ha
    exact hsaid hcount

/-- The request is to be refused, or it was refused and is over. It has sent nothing else. -/
def Refused (s : Stream) (r : Request) : Prop :=
  (r.phase = .answering false ∧ r.channel.stream.sent = s.sent) ∨
    r.result?.isSome ∧
      ∃ e : StreamEvent, e.IsPartOf Response.pictureErr.framed ∧
        r.channel.stream.sent = s.sent ++ [e]

theorem refused_of_onCourse {word : Bytes} {connected : Bool} (h : r.OnCourse s shown)
    (hchecked : .checked word connected ∈ shown) (herr : verdict word connected = .pictureErr) :
    r.Refused s ∧ .answered .pictureOk ∉ shown ∧ .captured ∉ shown := by
  obtain ⟨word, connected, count, rfl, hfits, hsilent, hsaid⟩ := h
  obtain ⟨hcount, rfl, rfl⟩ := two_le_of_checked hchecked
  rw [herr] at hfits hsaid
  refine ⟨?_, ?_, ?_⟩
  · cases hphase : r.phase with
    | reading =>
      have : count = 0 := by simpa [hphase, Fits] using hfits
      omega
    | checking m =>
      have : count = 1 := by simpa [hphase, Fits] using hfits
      omega
    | answering accepted =>
      obtain ⟨rfl, haccepted⟩ : count = 2 ∧ accepted = false := by
        simpa [hphase, Fits] using hfits
      exact Or.inl ⟨by rw [hphase, haccepted], hsilent (by simp)⟩
    | served result =>
      have hover : count = 0 ∨ 3 ≤ count := by simpa only [hphase, Fits] using hfits
      obtain ⟨e, more, hpart, hmore, hsent⟩ := hsaid (by omega)
      rw [hmore (by simp)] at hsent
      exact Or.inr ⟨by simp [result?, hphase], e, hpart, hsent⟩
    | capturing | opening _ | sending _ _ | flushing _ => simp [hphase, Fits] at hfits
  · intro hok
    have := (three_le_of_answered hok).2
    simp [herr] at this
  · intro hcaptured
    have := List.mem_of_mem_take hcaptured
    simp [course, herr] at this

theorem result?_step_of_refused (h : r.Refused s) (state : SessionState) (studio : Studio) :
    (r.step state studio).1.result?.isSome := by
  rcases h with ⟨hphase, -⟩ | ⟨hresult, -⟩
  · unfold step
    rw [hphase]
    dsimp only
    split <;> rfl
  · unfold result? at hresult
    unfold step
    cases hphase : r.phase <;> simp_all [result?]

/-! ## Places in a course -/

theorem nodup_course (word : Bytes) (connected : Bool) : (course word connected).Nodup := by
  unfold course
  split <;> simp

theorem take_of_split {word : Bytes} {connected : Bool} {before after : List RequestMark}
    {m : RequestMark} (h : before ++ m :: after <+: course word connected) :
    before = (course word connected).take before.length ∧
      (course word connected)[before.length]? = some m := by
  obtain ⟨rest, hrest⟩ := h
  rw [← hrest]
  simp

theorem before_read {word : Bytes} {connected : Bool} {before after : List RequestMark}
    (h : before ++ .read :: after <+: course word connected) : before = [] := by
  obtain ⟨-, hat⟩ := take_of_split h
  unfold course at hat
  match hlength : before.length with
  | 0 => exact List.length_eq_zero_iff.mp hlength
  | n + 1 =>
    rw [hlength] at hat
    split at hat <;> rcases n with _ | _ | _ | n <;> simp at hat

theorem before_answered {word : Bytes} {connected : Bool} {before after : List RequestMark}
    {a : Response} (h : before ++ .answered a :: after <+: course word connected) :
    before = [.read, .checked word connected] ∧ a = verdict word connected := by
  obtain ⟨hbefore, hat⟩ := take_of_split h
  unfold course at hbefore hat
  match hlength : before.length with
  | 0 | 1 => simp [hlength] at hat
  | 2 =>
    rw [hlength] at hbefore hat
    exact ⟨hbefore, by simpa using hat.symm⟩
  | n + 3 =>
    rw [hlength] at hat
    split at hat <;> rcases n with _ | n <;> simp at hat

theorem before_captured {word : Bytes} {connected : Bool} {before after : List RequestMark}
    (h : before ++ .captured :: after <+: course word connected) :
    before = [.read, .checked word connected, .answered .pictureOk] := by
  obtain ⟨hbefore, hat⟩ := take_of_split h
  have hok : verdict word connected = .pictureOk := by
    have := List.mem_of_getElem? hat
    simpa [course] using this
  unfold course at hbefore hat
  rw [if_pos hok, hok] at hbefore hat
  match hlength : before.length with
  | 0 | 1 | 2 => simp [hlength] at hat
  | 3 =>
    rw [hlength] at hbefore
    exact hbefore
  | n + 4 => simp [hlength] at hat

end Request

end Teleop
