import Teleop.Proofs.Picture.Visit

/-!
# What a picture request comes to

Only what stands before the first terminator decides about a request, with the gate and the answer.
Behind a `PICTURE_OK` goes out the front of the file that the capture left, and all of it if nothing
fails. Whatever else happens to the session meanwhile comes from others.
-/

namespace Teleop

/-! ## What comes behind the line -/

theorem takeLine_of_mem {front : Bytes} (h : terminator ∈ front) (rest : List Item) :
    (takeLine [] (front.map .byte ++ rest)).1 = .ok (front.takeWhile (· != terminator)) := by
  obtain ⟨line, behind, rfl, hline⟩ := List.eq_append_cons_of_mem h
  have htake : (line ++ terminator :: behind).takeWhile (· != terminator) = line := by
    rw [List.takeWhile_append_of_pos fun b hb => bne_iff_ne.mpr (ne_of_mem_of_not_mem hb hline)]
    simp
  rw [htake, List.map_append, List.append_assoc, takeLine_bytes _ _ _ hline]
  simp [takeLine]

theorem Stream.sent_of_seen {s s' : Stream} {events : List StreamEvent}
    (h : s'.seen = s.seen ++ events) : s'.sent = s.sent ++ events.filter StreamEvent.isWrite := by
  rw [sent, h, List.filter_append, sent]

/-- Two channels did the same, and go on sending alike. -/
structure Channel.WentAlike (c d c' d' : Channel) : Prop where
  outbound : c'.outbound = d'.outbound
  seen : ∃ events, c'.stream.seen = c.stream.seen ++ events ∧
    d'.stream.seen = d.stream.seen ++ events

namespace Channel.WentAlike

variable {c d c₁ d₁ c' d' : Channel}

theorem nothing (h : c.outbound = d.outbound) : WentAlike c d c d :=
  ⟨h, [], by simp, by simp⟩

theorem trans (h : WentAlike c d c₁ d₁) (h' : WentAlike c₁ d₁ c' d') : WentAlike c d c' d' := by
  obtain ⟨events, hc, hd⟩ := h.seen
  obtain ⟨events', hc', hd'⟩ := h'.seen
  exact ⟨h'.outbound, events ++ events', by rw [hc', hc, List.append_assoc],
    by rw [hd', hd, List.append_assoc]⟩

theorem sent (h : WentAlike c d c' d') :
    ∃ calls, c'.stream.sent = c.stream.sent ++ calls ∧ d'.stream.sent = d.stream.sent ++ calls := by
  obtain ⟨events, hc, hd⟩ := h.seen
  exact ⟨events.filter StreamEvent.isWrite, Stream.sent_of_seen hc, Stream.sent_of_seen hd⟩

end Channel.WentAlike

theorem Channel.Alike.exists_eq {α τ : Type} {other : Channel → τ} {c d c' : Channel} {result : α}
    {a b : α × Channel} (h : Alike outbound other c d a b) (ha : a = (result, c')) :
    ∃ d', b = (result, d') ∧ WentAlike c d c' d' := by
  subst ha
  exact ⟨b.2, Prod.ext h.answer.symm rfl, h.side, h.seen⟩

namespace Request

/-- Behind the gate a step depends on what can be sent, not on what is still to read. -/
theorem step_alike {c d : Channel} {phase : RequestPhase} (hphase : phase.stage ≤ 5)
    (h : c.outbound = d.outbound) (s : SessionState) (studio : Studio) :
    ∃ (phase' : RequestPhase) (c' d' : Channel) (after : SessionState × Studio),
      step ⟨c, phase⟩ s studio = (⟨c', phase'⟩, after) ∧
        step ⟨d, phase⟩ s studio = (⟨d', phase'⟩, after) ∧
          phase'.stage ≤ 5 ∧ c.WentAlike d c' d' := by
  unfold step
  cases phase with
  | reading | checking m => simp [RequestPhase.stage] at hphase
  | answering accepted =>
    dsimp only [Channel.respond]
    generalize Response.framed _ = bytes
    rcases hcall : c.send bytes with ⟨e | n, c'⟩ <;>
      obtain ⟨d', hother, hwent⟩ := (Channel.send_alike h bytes).exists_eq hcall <;> rw [hother]
    · exact ⟨_, c', d', _, rfl, rfl, Nat.zero_le 5, hwent⟩
    · refine ⟨_, c', d', _, rfl, rfl, ?_, hwent⟩
      cases accepted <;> simp [RequestPhase.stage]
  | capturing =>
    dsimp only
    split <;> exact ⟨_, c, d, _, rfl, rfl, by simp [RequestPhase.stage], .nothing h⟩
  | opening path =>
    dsimp only
    split <;> exact ⟨_, c, d, _, rfl, rfl, by simp [RequestPhase.stage], .nothing h⟩
  | sending source progress =>
    dsimp only [sendNextFrame]
    rcases hfill : fillFrame [] source with ⟨e | _ | ⟨b, bs⟩, source'⟩
    · exact ⟨_, c, d, _, rfl, rfl, by simp [RequestPhase.stage], .nothing h⟩
    · exact ⟨_, c, d, _, rfl, rfl, by simp [RequestPhase.stage], .nothing h⟩
    · dsimp only
      rcases hcall : c.sendFrame (b :: bs) with ⟨e | n, c'⟩ <;>
        obtain ⟨d', hother, hwent⟩ := (Channel.sendFrame_alike h (b :: bs)).exists_eq hcall <;>
        rw [hother] <;> exact ⟨_, c', d', _, rfl, rfl, by simp [RequestPhase.stage], hwent⟩
  | flushing progress =>
    dsimp only
    rcases hcall : c.flush with ⟨e | n, c'⟩ <;>
      obtain ⟨d', hother, hwent⟩ := (Channel.flush_alike h).exists_eq hcall <;>
      rw [hother] <;> exact ⟨_, c', d', _, rfl, rfl, by simp [RequestPhase.stage], hwent⟩
  | served result => exact ⟨_, c, d, _, rfl, rfl, Nat.zero_le 5, .nothing h⟩

theorem finishAmid_alike {c d : Channel} {phase : RequestPhase} (hphase : phase.stage ≤ 5)
    (h : c.outbound = d.outbound) (others : Nat → SessionState → SessionState) (n : Nat)
    (s : SessionState) (studio : Studio) :
    ∃ (result : Except PictureError Transfer) (last : RequestPhase) (c' d' : Channel)
      (after : SessionState × Studio),
      finishAmid others n ⟨c, phase⟩ s studio = (result, ⟨c', last⟩, after) ∧
        finishAmid others n ⟨d, phase⟩ s studio = (result, ⟨d', last⟩, after) ∧
          c.WentAlike d c' d' := by
  generalize hr : Request.mk c phase = r
  -- One run is followed; the other takes the same steps as long as it can send the same.
  fun_induction finishAmid others n r s studio generalizing c d phase with
  | case1 n r s studio result hover =>
    subst hr
    refine ⟨result, phase, c, d, _, rfl, ?_, .nothing h⟩
    exact finishAmid_of_result hover
  | case2 n r s studio hover next =>
    rename_i ih
    subst hr
    obtain ⟨phase', c', d', after, hc, hd, hphase', hwent⟩ :=
      step_alike hphase h (others n s) studio
    have hnext : next = (⟨c', phase'⟩, after) := hc
    rw [hnext] at ih ⊢
    obtain ⟨result, last, c'', d'', after', hc', hd', hwent'⟩ := ih hphase' hwent.outbound rfl
    refine ⟨result, last, c'', d'', after', hc', ?_, hwent.trans hwent'⟩
    have hover' : (Request.mk d phase).result? = none := hover
    rw [finishAmid_of_step hover' hd, hd']

end Request

theorem Channel.outbound_of_outgoing {c c' : Channel}
    (h : c'.stream.outgoing = c.stream.outgoing) :
    c'.outbound = c.outbound ∧ c'.stream.sent = c.stream.sent := by
  have hscript : c'.stream.outgoing.script = c.stream.outgoing.script := congrArg Stream.script h
  exact ⟨hscript, by rw [← Stream.sent_outgoing, h, Stream.sent_outgoing]⟩

theorem visit_of_nextLine_eq {others : Nat → SessionState → SessionState} {c d : Channel}
    (hline : d.nextLine = c.nextLine) (h : d.outbound = c.outbound) (s : SessionState)
    (studio : Studio) :
    (visit others d s studio).result = (visit others c s studio).result ∧
      (visit others d s studio).session = (visit others c s studio).session ∧
        (visit others d s studio).studio = (visit others c s studio).studio ∧
          ∃ calls, (visit others c s studio).channel.stream.sent = c.stream.sent ++ calls ∧
            (visit others d s studio).channel.stream.sent = d.stream.sent ++ calls := by
  unfold visit
  cases hc : c.nextLine with
  | error e =>
    obtain ⟨r, hr, hvisit⟩ := Request.finishAmid_unread others 0 hc s studio
    obtain ⟨r', hr', hvisit'⟩ :=
      Request.finishAmid_unread others 0 (hline.trans hc) s studio
    rw [hvisit, hvisit']
    refine ⟨rfl, rfl, rfl, [], ?_, ?_⟩
    · rw [List.append_nil, (Channel.outbound_of_outgoing hr).2]
    · rw [List.append_nil, (Channel.outbound_of_outgoing hr').2]
  | ok line =>
    obtain ⟨c', hc', hvisit⟩ := Request.finishAmid_read others 0 hc s studio
    obtain ⟨d', hd', hvisit'⟩ :=
      Request.finishAmid_read others 0 (hline.trans hc) s studio
    obtain ⟨hout, hsent⟩ := Channel.outbound_of_outgoing hc'
    obtain ⟨hout', hsent'⟩ := Channel.outbound_of_outgoing hd'
    have hboth : c'.outbound = d'.outbound := by rw [hout, hout', h]
    generalize (verdict line _ == .pictureOk) = accepted at hvisit hvisit'
    have hphase : (RequestPhase.answering accepted).stage ≤ 5 := Nat.le_refl 5
    obtain ⟨result, last, c'', d'', after, hfinish, hfinish', hwent⟩ :=
      Request.finishAmid_alike hphase hboth others 2 (s.amid others 0 2) studio
    obtain ⟨calls, hcalls, hcalls'⟩ := hwent.sent
    rw [hvisit, hvisit', hfinish, hfinish']
    exact ⟨rfl, rfl, rfl, calls, by rw [hcalls, hsent], by rw [hcalls', hsent']⟩

/-! ## What goes out behind a `PICTURE_OK` -/

/-- What is sent of a capture, by the files that it left and what it came to. -/
inductive PictureSent (c : Channel) (files : FileTree) :
    Except RobotError Path → Except PictureError Transfer → Bytes → Prop
  | notCaptured (e : RobotError) : PictureSent c files (.error e) (.error (.capture e)) []
  | notOpened {path : Path} {e : SystemError} (h : files.lookup path = .error e) :
    PictureSent c files (.ok path) (.error (.cannotOpen path e)) []
  /-- A directory opens and cannot be read. -/
  | notRead {path : Path} {access : Access} (h : files.lookup path = .ok (.directory access)) :
    PictureSent c files (.ok path)
      (.error (.cannotRead ⟨.other, SystemError.isDirectory.message⟩)) []
  | broken {path : Path} {file sent : Bytes} {e : StreamError} (h : files.read path = .ok file)
    (hsent : sent <+: file) (hfail : c.CanFail e) :
    PictureSent c files (.ok path) (.error (.channel (.stream e))) sent
  | whole {path : Path} {file : Bytes} (h : files.read path = .ok file) :
    PictureSent c files (.ok path) (.ok (.sent file.length (frameCount file.length))) file

theorem PictureSent.of_canFail {c c' : Channel} {files : FileTree}
    {captured : Except RobotError Path} {result : Except PictureError Transfer} {sent : Bytes}
    (hfail : ∀ e, c'.CanFail e → c.CanFail e) (h : PictureSent c' files captured result sent) :
    PictureSent c files captured result sent := by
  cases h with
  | notCaptured e => exact .notCaptured e
  | notOpened h => exact .notOpened h
  | notRead h => exact .notRead h
  | broken h hsent he => exact .broken h hsent (hfail _ he)
  | whole h => exact .whole h

theorem FileTree.read_of_file {files : FileTree} {path : Path} {content : Bytes} {access : Access}
    (h : files.lookup path = .ok (.file content access)) : files.read path = .ok content := by
  simp [read, h]

def Stream.ofFile (content : Bytes) : Stream := { arrivals := [.chunk content] }

def Stream.ofDirectory : Stream :=
  { arrivals := [.failure ⟨.other, SystemError.isDirectory.message⟩] }

theorem sendPicture_ofDirectory (c : Channel) :
    sendPicture .ofDirectory {} c = (.error (.cannotRead ⟨.other, SystemError.isDirectory.message⟩),
      Stream.note {} (.readFailed .other), c) := by
  have hstep : sendNextFrame .ofDirectory {} c =
      .failed (.cannotRead ⟨.other, SystemError.isDirectory.message⟩)
        (Stream.note {} (.readFailed .other)) c := by
    rw [sendNextFrame, fillFrame]
    rfl
  rw [sendPicture]
  split <;> rename_i hnext <;> rw [hstep] at hnext <;> cases hnext
  rfl

theorem Stream.content_ofFile (content : Bytes) :
    (ofFile content).content = content ∧ (ofFile content).IsSteady ∧
      ∀ e, .failure e ∉ (ofFile content).arrivals := by
  have hcontent : (ofFile content).content = content := by
    rw [Stream.content, Stream.items, ofFile, List.flatMap_singleton]
    cases content with
    | nil => rfl
    | cons b bs =>
      rw [Arrival.items, List.filterMap_map]
      exact List.filterMap_some
  refine ⟨hcontent, ?_, by simp [ofFile]⟩
  unfold IsSteady
  rw [hcontent]
  cases content with
  | nil => exact ⟨1, rfl⟩
  | cons b bs => exact ⟨0, by simp [Stream.items, ofFile, Arrival.items]⟩

theorem StreamEvent.bytes_of_writes (events : List StreamEvent) :
    (events.filter isWrite).flatMap bytes = events.flatMap bytes := by
  induction events with
  | nil => rfl
  | cons e events ih => cases e <;> simp [List.filter_cons, isWrite, bytes, ih]

theorem Copied.writes {source source' : Stream} {c c' : Channel} {rounds : List Round}
    {result : Except PictureError Transfer} (h : Copied source c rounds result source' c') :
    ∃ calls, c'.stream.sent = c.stream.sent ++ calls ∧
      calls.flatMap StreamEvent.bytes = broughtBy (callsOf rounds) := by
  refine ⟨(rounds.flatMap Round.writes).filter StreamEvent.isWrite,
    Stream.sent_of_seen h.channel_seen, ?_⟩
  rw [StreamEvent.bytes_of_writes, broughtBy_callsOf]

theorem pictureSent_file {files : FileTree} {path : Path} {content : Bytes}
    (h : files.read path = .ok content) (c : Channel) :
    PictureSent c files (.ok path) (sendPicture (.ofFile content) {} c).1
      (broughtBy (callsOf (rounds (.ofFile content) {} c))) := by
  have hcopied := (copying_sendPicture (.ofFile content) {} c).copied
  obtain ⟨hcontent, hsteady, hclean⟩ := Stream.content_ofFile content
  have hfront : broughtBy (callsOf (rounds (.ofFile content) {} c)) <+: content := by
    have := hcopied.in_order _ List.prefix_rfl
    rw [hcontent] at this
    exact this.trans (List.take_prefix _ _)
  obtain ⟨before, last, -, -, hends⟩ := hcopied.ends
  generalize (sendPicture (.ofFile content) {} c).1 = result at hcopied hends ⊢
  cases hends with
  | sent n k =>
    obtain ⟨-, hbrought, rfl, rfl⟩ := hcopied.sent_content hclean hsteady
    rw [hbrought, hcontent]
    exact .whole h
  | sourceFailed hitems =>
    rename_i e
    have hmem : .failure e ∈ (Stream.ofFile content).items := by simp [hitems]
    exact absurd (failure_mem_items.mp hmem) (hclean e)
  | writeFailed hscript ha => exact .broken h hfront (Or.inl ⟨_, by simp [hscript], _, ha⟩)
  | flushFailed hscript => exact .broken h hfront (Or.inr (by simp [hscript]))

theorem Request.finishAmid_accepted (others : Nat → SessionState → SessionState) (n : Nat)
    (c : Channel) (s : SessionState) (studio : Studio) :
    ∃ (result : Except PictureError Transfer) (r : Request) (after : SessionState)
      (calls : List StreamEvent),
      finishAmid others n { channel := c, phase := .capturing } s studio =
          (result, r, after, (studio.shoot (s.amid others n 1)).2.2) ∧
        (∃ k, after = (studio.shoot (s.amid others n 1)).2.1.amid others (n + 1) k) ∧
          r.channel.stream.sent = c.stream.sent ++ calls ∧
            PictureSent c (studio.shoot (s.amid others n 1)).2.2.files
              (studio.shoot (s.amid others n 1)).1 result (calls.flatMap StreamEvent.bytes) := by
  have hfinish := finishAmid_capturing others n c s studio
  have hnone : ∀ s : Stream, s.sent = s.sent ++ [] := fun s => (List.append_nil s.sent).symm
  rcases hshoot : studio.shoot (s.amid others n 1) with ⟨e | path, s', studio'⟩ <;>
    rw [hshoot] at hfinish
  · exact ⟨_, _, _, [], hfinish, ⟨0, rfl⟩, hnone c.stream, .notCaptured e⟩
  · dsimp only [FileTree.openToRead] at hfinish
    rcases hlookup : studio'.files.lookup path with e | ⟨content, access⟩ | access <;>
      simp only [hlookup, Access.allows_root, if_true] at hfinish
    · exact ⟨_, _, _, [], hfinish, ⟨1, rfl⟩, hnone c.stream, .notOpened hlookup⟩
    · obtain ⟨k, hsending⟩ := finishAmid_sending others (n + 2) (.ofFile content) {} c
        (s'.amid others (n + 1) 1) studio'
      obtain ⟨calls, hsent, hcalls⟩ := (copying_sendPicture (.ofFile content) {} c).copied.writes
      refine ⟨_, _, _, calls, hfinish.trans hsending, ⟨k + 1, rfl⟩, hsent, ?_⟩
      rw [hcalls]
      exact pictureSent_file (FileTree.read_of_file hlookup) c
    · obtain ⟨k, hsending⟩ := finishAmid_sending others (n + 2) .ofDirectory {} c
        (s'.amid others (n + 1) 1) studio'
      rw [sendPicture_ofDirectory] at hsending
      exact ⟨_, _, _, [], hfinish.trans hsending, ⟨k + 1, rfl⟩, hnone c.stream, .notRead hlookup⟩

/-! ## The whole request -/

/-- The line is `PICTURE` and no longer, the gate finds the operator connected, and the answer meets
no error. -/
def LetThrough (others : Nat → SessionState → SessionState) (c : Channel) (s : SessionState) :
    Prop :=
  c.nextLine = .ok Command.picture.bytes ∧ (s.amid others 0 2).connected = true ∧
    c.answerFault? = none

structure Visited (others : Nat → SessionState → SessionState) (c : Channel) (s : SessionState)
    (studio : Studio) (v : Visit) : Prop where
  /-- Without a full line nothing is sent or flushed. -/
  unread : ∀ e, c.nextLine = .error e → v.result = .error (.channel e) ∧
    v.channel.stream.outgoing = c.stream.outgoing ∧ v.studio = studio
  /-- A request that is not let through gets its answer with one write, and nothing else happens. -/
  turnedAway : ∀ line, c.nextLine = .ok line → ¬ LetThrough others c s →
    v.channel.stream.sent =
        c.stream.sent ++ [c.answerEvent (verdict line (s.amid others 0 2).connected)] ∧
      v.studio = studio ∧
        v.result = match c.answerFault? with
          | some e => .error (.channel (.stream e))
          | none => .ok .rejected
  /-- One that is let through captures once, and is sent of the file what goes. -/
  served : LetThrough others c s → ∃ calls,
    v.channel.stream.sent = c.stream.sent ++ c.answerEvent .pictureOk :: calls ∧
      v.studio = (studio.shoot (s.amid others 0 4)).2.2 ∧
        v.studio.camera.captures = studio.camera.captures + 1 ∧
          PictureSent c v.studio.files (studio.shoot (s.amid others 0 4)).1 v.result
            (calls.flatMap StreamEvent.bytes)
  /-- All that comes behind the line is ignored. -/
  behind : ∀ (d : Channel) (front : Bytes) (rest rest' : List Item), terminator ∈ front →
    c.items = front.map .byte ++ rest → d.items = front.map .byte ++ rest' →
      d.outbound = c.outbound →
        (visit others d s studio).result = v.result ∧
          (visit others d s studio).session = v.session ∧
          (visit others d s studio).studio = v.studio ∧
            ∃ calls, v.channel.stream.sent = c.stream.sent ++ calls ∧
              (visit others d s studio).channel.stream.sent = d.stream.sent ++ calls
  /-- Only others and the camera change the session. -/
  session : (∃ k, v.session = s.amid others 0 k) ∨
    LetThrough others c s ∧ ∃ k, v.session = (studio.shoot (s.amid others 0 4)).2.1.amid others 4 k
  /-- A camera that has nothing to do with the flags leaves them to the others. -/
  flags : studio.camera.LeavesFlags → ∃ k, v.session = s.amid others 0 k
  /-- So it goes for a request that has the session for itself, and the flags stay. -/
  alone : visitAlone c s studio = visit (fun _ s => s) c s studio ∧
    (studio.camera.LeavesFlags → (visitAlone c s studio).session = s)

theorem SessionState.amid_same (n k : Nat) (s : SessionState) : s.amid (fun _ s => s) n k = s := by
  induction k generalizing n with
  | zero => rfl
  | succ k ih => exact ih (n + 1)

theorem Studio.session_shoot {studio : Studio} (h : studio.camera.LeavesFlags) (s : SessionState) :
    (studio.shoot s).2.1 = s :=
  h studio.target.dir studio.target.name { files := studio.files, session := s }

theorem Studio.captures_shoot (studio : Studio) (s : SessionState) :
    (studio.shoot s).2.2.camera.captures = studio.camera.captures + 1 :=
  rfl

theorem Channel.answer_of_outgoing {c c' : Channel} (h : c'.stream.outgoing = c.stream.outgoing)
    (a : Response) :
    c'.answerFault? = c.answerFault? ∧ c'.answerEvent a = c.answerEvent a ∧
      c'.stream.sent = c.stream.sent := by
  have hfault := congrArg (fun s : Stream => (s.acceptance 0).fault?.or s.flushes.head?.join) h
  have hevent := congrArg (fun s : Stream => (s.acceptance 0).event a.framed) h
  exact ⟨hfault, hevent, (outbound_of_outgoing h).2⟩

section

variable {others : Nat → SessionState → SessionState} {c : Channel} {s : SessionState} {line : Bytes}

theorem letThrough_iff (h : c.nextLine = .ok line) :
    LetThrough others c s ↔
      verdict line (s.amid others 0 2).connected = .pictureOk ∧ c.answerFault? = none := by
  rw [verdict_eq_pictureOk, LetThrough, h, and_assoc, Except.ok.injEq]

theorem visit_of_line (h : c.nextLine = .ok line) (studio : Studio) :
    ∃ c' : Channel,
      c'.stream.sent =
          c.stream.sent ++ [c.answerEvent (verdict line (s.amid others 0 2).connected)] ∧
        (∀ e, c'.CanFail e → c.CanFail e) ∧
        ((¬ LetThrough others c s ∧
            visit others c s studio =
              { result := match c.answerFault? with
                  | some e => .error (.channel (.stream e))
                  | none => .ok .rejected
                channel := c', session := s.amid others 0 3, studio }) ∨
          LetThrough others c s ∧
            visit others c s studio =
              let (result, r, session, studio) := Request.finishAmid others 3
                { channel := c', phase := .capturing } (s.amid others 0 3) studio
              { result, channel := r.channel, session, studio }) := by
  obtain ⟨c₁, hout, hread⟩ := Request.finishAmid_read others 0 h s studio
  set answer := verdict line (s.amid others 0 2).connected with hanswer
  obtain ⟨hfault, hevent, hsent⟩ := Channel.answer_of_outgoing hout answer
  obtain ⟨c₂, hsent', hfail, hvisit⟩ := Request.finishAmid_answering others 2
    (answer == .pictureOk) c₁ (s.amid others 0 2) studio
  rw [Request.response_of_accepted (by rw [← hanswer, beq_iff_eq]), ← hanswer, hevent, hsent]
    at hsent'
  rw [hfault] at hvisit
  refine ⟨c₂, hsent', fun e he => Channel.canFail_of_outgoing hout (hfail e he), ?_⟩
  rw [letThrough_iff h, ← hanswer]
  unfold visit
  rw [hread, hvisit]
  -- An answer that fails ends the request even if the gate accepts it.
  cases c.answerFault? with
  | some e => exact Or.inl ⟨by simp, rfl⟩
  | none =>
    by_cases hok : answer = .pictureOk
    · rw [beq_iff_eq.mpr hok]
      exact Or.inr ⟨⟨hok, rfl⟩, rfl⟩
    · rw [beq_eq_false_iff_ne.mpr hok]
      exact Or.inl ⟨fun hboth => hok hboth.1, rfl⟩

theorem visit_unread {e : ChannelError} (h : c.nextLine = .error e) (studio : Studio) :
    (visit others c s studio).result = .error (.channel e) ∧
      (visit others c s studio).channel.stream.outgoing = c.stream.outgoing ∧
        (visit others c s studio).studio = studio ∧
          (visit others c s studio).session = s.amid others 0 1 := by
  obtain ⟨r, hr, hvisit⟩ := Request.finishAmid_unread others 0 h s studio
  unfold visit
  rw [hvisit]
  exact ⟨rfl, hr, rfl, rfl⟩

theorem visit_letThrough (h : LetThrough others c s) (studio : Studio) :
    ∃ calls,
      (visit others c s studio).channel.stream.sent =
          c.stream.sent ++ c.answerEvent .pictureOk :: calls ∧
        (visit others c s studio).studio = (studio.shoot (s.amid others 0 4)).2.2 ∧
          PictureSent c (studio.shoot (s.amid others 0 4)).2.2.files
              (studio.shoot (s.amid others 0 4)).1 (visit others c s studio).result
              (calls.flatMap StreamEvent.bytes) ∧
            ∃ k, (visit others c s studio).session =
              (studio.shoot (s.amid others 0 4)).2.1.amid others 4 k := by
  obtain ⟨c', hanswer, hfail, ⟨hnot, -⟩ | ⟨-, hvisit⟩⟩ := visit_of_line h.1 studio
  · exact absurd h hnot
  · obtain ⟨hok, -⟩ := (letThrough_iff h.1).mp h
    rw [hok] at hanswer
    obtain ⟨result, r, after, calls, hfinish, hsession, hsent, hpicture⟩ :=
      Request.finishAmid_accepted others 3 c' (s.amid others 0 3) studio
    rw [hfinish] at hvisit
    rw [hvisit]
    refine ⟨calls, ?_, rfl, hpicture.of_canFail hfail, hsession⟩
    rw [hsent, hanswer, List.append_assoc]
    rfl

theorem session_visit (others : Nat → SessionState → SessionState) (c : Channel) (s : SessionState)
    (studio : Studio) :
    (∃ k, (visit others c s studio).session = s.amid others 0 k) ∨
      LetThrough others c s ∧ ∃ k, (visit others c s studio).session =
        (studio.shoot (s.amid others 0 4)).2.1.amid others 4 k := by
  cases hline : c.nextLine with
  | error e => exact Or.inl ⟨1, (visit_unread hline studio).2.2.2⟩
  | ok line =>
    obtain ⟨c', -, -, ⟨-, hvisit⟩ | ⟨hthrough, -⟩⟩ := visit_of_line hline studio
    · rw [hvisit]
      exact Or.inl ⟨3, rfl⟩
    · obtain ⟨-, -, -, -, hsession⟩ := visit_letThrough hthrough studio
      exact Or.inr ⟨hthrough, hsession⟩

theorem flags_visit (others : Nat → SessionState → SessionState) (c : Channel) (s : SessionState)
    {studio : Studio} (h : studio.camera.LeavesFlags) :
    ∃ k, (visit others c s studio).session = s.amid others 0 k := by
  rcases session_visit others c s studio with hsame | ⟨-, k, hsame⟩
  · exact hsame
  · rw [Studio.session_shoot h] at hsame
    exact ⟨k + 4, hsame⟩

end

theorem Interplay.drive_image (x : Interplay) (i : Nat) :
    (x.turn (.image i)).engine.drive = x.engine.drive := by
  cases hr : x.requests[i]? with
  | none => rw [turn_image_none hr]
  | some r => rw [turn_image_some hr]

/-- **Line, gate and answer decide about a request.** It captures just if it is let through, and is
then sent the front of the file that the capture left. No request moves the drive. -/
theorem request_served (others : Nat → SessionState → SessionState) (c : Channel)
    (s : SessionState) (studio : Studio) :
    Visited others c s studio (visit others c s studio) ∧
      ∀ (x : Interplay) (i : Nat), (x.turn (.image i)).engine.drive = x.engine.drive := by
  refine ⟨⟨?_, ?_, ?_, ?_, session_visit others c s studio, flags_visit others c s,
    ?_⟩, Interplay.drive_image⟩
  · intro e h
    obtain ⟨hresult, hout, hstudio, -⟩ := visit_unread h studio
    exact ⟨hresult, hout, hstudio⟩
  · intro line h hnot
    obtain ⟨c', hanswer, -, ⟨-, hvisit⟩ | ⟨hthrough, -⟩⟩ := visit_of_line h studio
    · rw [hvisit]
      exact ⟨hanswer, rfl, rfl⟩
    · exact absurd hthrough hnot
  · intro h
    obtain ⟨calls, hsent, hstudio, hpicture, -⟩ := visit_letThrough h studio
    rw [hstudio]
    exact ⟨calls, hsent, rfl, studio.captures_shoot _, hpicture⟩
  · intro d front rest rest' hfront hc hd hout
    refine visit_of_nextLine_eq ?_ hout s studio
    rw [Channel.nextLine, Channel.nextLine, hc, hd, takeLine_of_mem hfront, takeLine_of_mem hfront]
  · refine ⟨visitAlone_eq c s studio, fun hcamera => ?_⟩
    obtain ⟨k, hsame⟩ := flags_visit (fun _ s => s) c s hcamera
    rw [visitAlone_eq, hsame, SessionState.amid_same]

end Teleop
