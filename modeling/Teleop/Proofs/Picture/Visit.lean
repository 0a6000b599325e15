import Teleop.Proofs.Picture.Segments
import Teleop.Proofs.Session.Interplay
import Teleop.Proofs.Wire.Calls
import Teleop.Proofs.Wire.RoundTrip

/-!
# A picture request from its line to its end

A request is served to its end while others use the session too. From stage to stage it goes as its
line says, as the gate finds and as its answer fares; once its picture is open, the rest is one
transfer.
-/

namespace Teleop

/-! ## Serving amid others -/

namespace Request

/-- Serves a request to its end. Before its step number `n` others do `others n` to the session. -/
def finishAmid (others : Nat → SessionState → SessionState) (n : Nat) (r : Request)
    (s : SessionState) (studio : Studio) :
    Except PictureError Transfer × Request × SessionState × Studio :=
  match _ : r.result? with
  | some result => (result, r, s, studio)
  | none =>
    let next := r.step (others n s) studio
    finishAmid others (n + 1) next.1 next.2.1 next.2.2
termination_by (r.phase.stage, r.phase.frames)
decreasing_by exact advances_step ‹_›

variable {others : Nat → SessionState → SessionState} {n : Nat} {r : Request} {s : SessionState}
  {studio : Studio}

theorem finishAmid_of_result {result : Except PictureError Transfer} (h : r.result? = some result) :
    r.finishAmid others n s studio = (result, r, s, studio) := by
  rw [finishAmid]
  split <;> rename_i hresult <;> rw [h] at hresult <;> cases hresult
  rfl

theorem finishAmid_of_step {r' : Request} {s' : SessionState} {studio' : Studio}
    (h : r.result? = none) (hstep : r.step (others n s) studio = (r', s', studio')) :
    r.finishAmid others n s studio = r'.finishAmid others (n + 1) s' studio' := by
  rw [finishAmid]
  split <;> rename_i hresult <;> rw [h] at hresult <;> cases hresult
  rw [hstep]

theorem finish_eq_finishAmid (r : Request) (s : SessionState) (studio : Studio) (n : Nat) :
    r.finish s studio = r.finishAmid (fun _ s => s) n s studio := by
  fun_induction finish r s studio generalizing n with
  | case1 r s studio result h => rw [finishAmid_of_result h]
  | case2 r s studio h next ih =>
    have hstep : r.step s studio = (next.1, next.2.1, next.2.2) := rfl
    rw [finishAmid_of_step h hstep, ih (n + 1)]

end Request

/-- The session behind `k` doings of others, from number `n` on. -/
def SessionState.amid (others : Nat → SessionState → SessionState) :
    (n k : Nat) → SessionState → SessionState
  | _, 0, s => s
  | n, k + 1, s => amid others (n + 1) k (others n s)

structure Visit where
  result : Except PictureError Transfer
  channel : Channel
  session : SessionState
  studio : Studio

def visit (others : Nat → SessionState → SessionState) (c : Channel) (s : SessionState)
    (studio : Studio) : Visit :=
  let (result, r, s, studio) := Request.finishAmid others 0 { channel := c } s studio
  { result, channel := r.channel, session := s, studio }

def visitAlone (c : Channel) (s : SessionState) (studio : Studio) : Visit :=
  let (result, r, s, studio) := Request.finish { channel := c } s studio
  { result, channel := r.channel, session := s, studio }

theorem visitAlone_eq (c : Channel) (s : SessionState) (studio : Studio) :
    visitAlone c s studio = visit (fun _ s => s) c s studio := by
  rw [visitAlone, Request.finish_eq_finishAmid _ _ _ 0, visit]

/-! ## Line, answer and capture -/

/-- The next line at its full length, or the error that reading it comes to. -/
def Channel.nextLine (c : Channel) : Except ChannelError Bytes := (takeLine [] c.items).1

/-- The error that an answer meets: that of its write, or else that of its flush. -/
def Channel.answerFault? (c : Channel) : Option StreamError :=
  (c.stream.acceptance 0).fault?.or c.stream.flushes.head?.join

/-- What the one write of an answer shows. -/
def Channel.answerEvent (c : Channel) (a : Response) : StreamEvent :=
  (c.stream.acceptance 0).event a.framed

/-- The script has an error like this for a write or a flush. -/
def Channel.CanFail (c : Channel) (e : StreamError) : Prop :=
  (∃ a ∈ c.stream.writes, ∃ call, a.Refuses call e) ∨ some e ∈ c.stream.flushes

theorem Channel.canFail_of_outgoing {c c' : Channel}
    (h : c'.stream.outgoing = c.stream.outgoing) {e : StreamError} (hfail : c'.CanFail e) :
    c.CanFail e := by
  have hscript := congrArg Stream.script h
  obtain ⟨hwrites, hflushes, -⟩ := (Script.mk.injEq ..).mp hscript
  change c'.stream.writes = c.stream.writes at hwrites
  change c'.stream.flushes = c.stream.flushes at hflushes
  rwa [CanFail, hwrites, hflushes] at hfail

theorem Channel.respond_eq (a : Response) (c : Channel) :
    (match c.answerFault? with
      | some e => (c.respond a).1 = .error (.stream e)
      | none => ∃ n, (c.respond a).1 = .ok n) ∧
      (c.respond a).2.stream.sent = c.stream.sent ++ [c.answerEvent a] ∧
        ∀ e, (c.respond a).2.CanFail e → c.CanFail e := by
  obtain ⟨hfault, hwrites, hflushes, hsent⟩ := Stream.answer_eq a c.stream.outgoing
  change _ = c.answerFault? at hfault
  rw [answer_outgoing] at hwrites hflushes hsent
  rw [Stream.sent_outgoing, Stream.sent_outgoing] at hsent
  refine ⟨?_, hsent, ?_⟩
  · rcases respond_answer a c with ⟨e, he, hanswer⟩ | ⟨hok, hanswer⟩ <;>
      rw [hanswer] at hfault <;> rw [← hfault]
    · exact he
    · exact hok
  · rintro e (⟨refusal, hmem, hrefuses⟩ | hmem)
    · have hmem' : refusal ∈ c.stream.writes.drop 1 := hwrites ▸ hmem
      exact Or.inl ⟨refusal, List.mem_of_mem_drop hmem', hrefuses⟩
    · change (c.respond a).2.stream.flushes = _ at hflushes
      rw [hflushes] at hmem
      split at hmem
      · exact Or.inr hmem
      · exact Or.inr (List.mem_of_mem_drop hmem)

theorem verdict_take (line : Bytes) (connected : Bool) :
    verdict (line.take messageCapacity) connected = verdict line connected := by
  rw [verdict, parse?_take, verdict]

/-- What the next capture comes to. -/
def Studio.shoot (studio : Studio) (s : SessionState) :
    Except RobotError Path × SessionState × Studio :=
  let (result, scene, camera) :=
    studio.camera.take studio.target.dir studio.target.name { files := studio.files, session := s }
  (result, scene.session, { studio with camera, files := scene.files })

namespace Request

theorem check_eq (m : Message) (s : SessionState) (c : Channel) :
    ∃ c', c'.stream = c.stream ∧ check m s c =
      { channel := c', phase := .answering (verdict m.bytes s.connected == .pictureOk) } := by
  unfold check verdict
  by_cases hparse : Command.parse? m.bytes = some .picture
  · refine ⟨c, rfl, ?_⟩
    cases s.connected <;> simp [hparse]
  · exact ⟨c.warn [.invalidPictureRequest m.bytes], rfl, by simp [hparse]⟩

/-! ## Stage by stage -/

variable (others : Nat → SessionState → SessionState) (n : Nat)

theorem finishAmid_unread {c : Channel} {e : ChannelError} (h : c.nextLine = .error e)
    (s : SessionState) (studio : Studio) :
    ∃ r : Request, r.channel.stream.outgoing = c.stream.outgoing ∧
      finishAmid others n { channel := c } s studio =
        (.error (.channel e), r, s.amid others n 1, studio) := by
  have hmessage := (readMessage_items messageCapacity c).1
  have hsilent := c.outgoing_readMessage messageCapacity
  rw [← Channel.nextLine, h] at hmessage
  rcases hread : c.readMessage messageCapacity with ⟨result, c'⟩
  rw [hread] at hmessage hsilent
  obtain rfl : result = .error e := hmessage
  refine ⟨fail { channel := c' } (.channel e), hsilent, ?_⟩
  have hstep : step { channel := c } (others n s) studio =
      (fail { channel := c' } (.channel e), others n s, studio) := by
    simp only [step, hread]
  rw [finishAmid_of_step rfl hstep, finishAmid_of_result rfl]
  rfl

theorem finishAmid_read {c : Channel} {line : Bytes} (h : c.nextLine = .ok line)
    (s : SessionState) (studio : Studio) :
    ∃ c' : Channel, c'.stream.outgoing = c.stream.outgoing ∧
      finishAmid others n { channel := c } s studio =
        finishAmid others (n + 2)
          { channel := c'
            phase := .answering (verdict line (s.amid others n 2).connected == .pictureOk) }
          (s.amid others n 2) studio := by
  have hmessage := (readMessage_items messageCapacity c).1
  have hsilent := c.outgoing_readMessage messageCapacity
  rw [← Channel.nextLine, h] at hmessage
  rcases hread : c.readMessage messageCapacity with ⟨result, c'⟩
  rw [hread] at hmessage hsilent
  obtain rfl : result = .ok (.cut messageCapacity line) := hmessage
  obtain ⟨c'', hstream, hcheck⟩ :=
    check_eq (.cut messageCapacity line) (s.amid others n 2) c'
  rw [show (Message.cut messageCapacity line).bytes = line.take messageCapacity from rfl,
    verdict_take] at hcheck
  refine ⟨c'', by rw [hstream, hsilent], ?_⟩
  have hfirst : step { channel := c } (others n s) studio =
      ({ channel := c', phase := .checking (.cut messageCapacity line) }, others n s, studio) := by
    simp only [step, hread]
  have hsecond : step { channel := c', phase := .checking (.cut messageCapacity line) }
      (others (n + 1) (others n s)) studio = (_, s.amid others n 2, studio) :=
    congrArg (·, s.amid others n 2, studio) hcheck
  rw [finishAmid_of_step rfl hfirst, finishAmid_of_step rfl hsecond]

theorem finishAmid_answering (accepted : Bool) (c : Channel) (s : SessionState) (studio : Studio) :
    ∃ c' : Channel,
      c'.stream.sent = c.stream.sent ++
          [c.answerEvent (if accepted then .pictureOk else .pictureErr)] ∧
        (∀ e, c'.CanFail e → c.CanFail e) ∧
        finishAmid others n { channel := c, phase := .answering accepted } s studio =
          match c.answerFault?, accepted with
          | some e, _ =>
            (.error (.channel (.stream e)), fail { channel := c' } (.channel (.stream e)),
              s.amid others n 1, studio)
          | none, false =>
            (.ok .rejected, { channel := c', phase := .served (.ok .rejected) },
              s.amid others n 1, studio)
          | none, true =>
            finishAmid others (n + 1) { channel := c', phase := .capturing } (s.amid others n 1)
              studio := by
  obtain ⟨hresult, hsent, hfail⟩ := c.respond_eq (if accepted then .pictureOk else .pictureErr)
  rcases hanswer : c.respond (if accepted then .pictureOk else .pictureErr) with ⟨result, c'⟩
  rw [hanswer] at hresult hsent hfail
  refine ⟨c', hsent, hfail, ?_⟩
  cases hfault : c.answerFault? with
  | some e =>
    simp only [hfault] at hresult
    subst hresult
    have hstep : step { channel := c, phase := .answering accepted } (others n s) studio =
        (fail { channel := c', phase := .answering accepted } (.channel (.stream e)), others n s,
          studio) := by
      simp only [step, hanswer]
    rw [finishAmid_of_step rfl hstep, finishAmid_of_result rfl]
    rfl
  | none =>
    simp only [hfault] at hresult
    obtain ⟨count, rfl⟩ := hresult
    have hstep : step { channel := c, phase := .answering accepted } (others n s) studio =
        ({ channel := c', phase := if accepted then .capturing else .served (.ok .rejected) },
          others n s, studio) := by
      simp only [step, hanswer]
    rw [finishAmid_of_step rfl hstep]
    cases accepted with
    | false => exact finishAmid_of_result rfl
    | true => rfl

theorem step_capturing (c : Channel) (s : SessionState) (studio : Studio) :
    step { channel := c, phase := .capturing } s studio =
      match studio.shoot s with
      | (.error e, s, studio) => (fail { channel := c } (.capture e), s, studio)
      | (.ok path, s, studio) => ({ channel := c, phase := .opening path }, s, studio) := by
  unfold step Studio.shoot
  dsimp only
  split <;> rename_i hresult
  · rw [hresult]
    rfl
  · rw [hresult]

theorem finishAmid_capturing (c : Channel) (s : SessionState) (studio : Studio) :
    finishAmid others n { channel := c, phase := .capturing } s studio =
      match studio.shoot (s.amid others n 1) with
      | (.error e, s, studio) =>
        (.error (.capture e), fail { channel := c } (.capture e), s, studio)
      | (.ok path, s, studio) =>
        match studio.files.openToRead path with
        | .error e =>
          (.error (.cannotOpen path e), fail { channel := c } (.cannotOpen path e),
            s.amid others (n + 1) 1, studio)
        | .ok source =>
          finishAmid others (n + 2) { channel := c, phase := .sending source {} }
            (s.amid others (n + 1) 1) studio := by
  have hstep : step { channel := c, phase := .capturing } (others n s) studio = _ :=
    step_capturing c (s.amid others n 1) studio
  rcases hshoot : studio.shoot (s.amid others n 1) with ⟨e | path, s', studio'⟩ <;>
    rw [hshoot] at hstep <;> rw [finishAmid_of_step rfl hstep]
  · rw [finishAmid_of_result rfl]
  · dsimp only
    cases hopen : studio'.files.openToRead path with
    | error e =>
      have hnext : step { channel := c, phase := .opening path } (others (n + 1) s') studio' =
          (fail { channel := c } (.cannotOpen path e), others (n + 1) s', studio') := by
        simp only [step, hopen]
        rfl
      rw [finishAmid_of_step rfl hnext, finishAmid_of_result rfl]
      rfl
    | ok source =>
      have hnext : step { channel := c, phase := .opening path } (others (n + 1) s') studio' =
          ({ channel := c, phase := .sending source {} }, others (n + 1) s', studio') := by
        simp only [step, hopen]
      rw [finishAmid_of_step rfl hnext]
      rfl

theorem finishAmid_sending (source : Stream) (progress : Progress) (c : Channel) (s : SessionState)
    (studio : Studio) :
    ∃ k, finishAmid others n { channel := c, phase := .sending source progress } s studio =
      let sent := sendPicture source progress c
      (sent.1, { channel := sent.2.2, phase := .served sent.1 }, s.amid others n k, studio) := by
  dsimp only
  -- One step of the request is one round of the transfer, with others at work in between.
  fun_induction sendPicture source progress c generalizing n s with
  | case1 source progress c e source' c' hframe =>
    have hstep : step { channel := c, phase := .sending source progress } (others n s) studio =
        (fail { channel := c' } e, others n s, studio) := by
      simp only [step, hframe]
      rfl
    refine ⟨1, ?_⟩
    rw [finishAmid_of_step rfl hstep, finishAmid_of_result rfl]
    rfl
  | case2 source progress c source' progress' c' hframe ih =>
    have hstep : step { channel := c, phase := .sending source progress } (others n s) studio =
        ({ channel := c', phase := .sending source' progress' }, others n s, studio) := by
      simp only [step, hframe]
    obtain ⟨k, hrest⟩ := ih (n + 1) (others n s)
    refine ⟨k + 1, ?_⟩
    rw [finishAmid_of_step rfl hstep, hrest]
    rfl
  | case3 source progress c source' c' hframe e c'' hflush =>
    have hstep : step { channel := c, phase := .sending source progress } (others n s) studio =
        ({ channel := c', phase := .flushing progress }, others n s, studio) := by
      simp only [step, hframe]
    have hlast : step { channel := c', phase := .flushing progress } (others (n + 1) (others n s))
        studio = (fail { channel := c'' } (.channel e), s.amid others n 2, studio) := by
      simp only [step, hflush]
      rfl
    refine ⟨2, ?_⟩
    rw [finishAmid_of_step rfl hstep, finishAmid_of_step rfl hlast, finishAmid_of_result rfl]
    rfl
  | case4 source progress c source' c' hframe _ c'' hflush =>
    have hstep : step { channel := c, phase := .sending source progress } (others n s) studio =
        ({ channel := c', phase := .flushing progress }, others n s, studio) := by
      simp only [step, hframe]
    have hlast : step { channel := c', phase := .flushing progress } (others (n + 1) (others n s))
        studio = ({ channel := c'', phase := .served (.ok (.sent progress.bytes progress.frames)) },
          s.amid others n 2, studio) := by
      simp only [step, hflush]
      rfl
    refine ⟨2, ?_⟩
    rw [finishAmid_of_step rfl hstep, finishAmid_of_step rfl hlast, finishAmid_of_result rfl]

end Request

end Teleop
