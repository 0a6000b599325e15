import Teleop.Proofs.Picture.Sittings
import Teleop.Proofs.Session.Waiting

/-!
# When the image channel takes a connection

The service looks for the end of the session at each point where it may take a connection, and only
there. Behind the end it takes none; a request on its way then is finished first.
-/

namespace Teleop

namespace Sitting

/-! ## The end of the session -/

/-- The service has finished exactly if it saw the end when it last looked. -/
structure Minds (x : Sitting) (occasions : List Occasion) : Prop where
  going : (x.after occasions).service.phase.isFinished = false →
    Quiet EndSeen (x.looks occasions) ∧
      (x.after occasions).service.waiter = .ended ((x.looks occasions).any (·.connected))
  ended : (x.after occasions).service.phase.isFinished = true → EndSeen (x.looks occasions)

namespace Minds

variable {x : Sitting} {occasions : List Occasion}

theorem keep (h : x.Minds occasions) {o : Occasion}
    (hlooks : x.looks (occasions ++ [o]) = x.looks occasions)
    (hwaiter : (x.after (occasions ++ [o])).service.waiter = (x.after occasions).service.waiter)
    (hphase : (x.after (occasions ++ [o])).service.phase.isFinished =
      (x.after occasions).service.phase.isFinished) : x.Minds (occasions ++ [o]) := by
  refine ⟨?_, ?_⟩
  · intro hgoing
    rw [hlooks, hwaiter]
    exact h.going (hphase ▸ hgoing)
  · intro hover
    rw [hlooks]
    exact h.ended (hphase ▸ hover)

theorem looks_runs (hphase : (x.after occasions).service.phase = .waiting) :
    x.looks (occasions ++ [.runs]) = x.looks occasions ++ [(x.after occasions).session] :=
  flagsAt_runs (by rw [hphase]; rfl)

theorem looks_elsewhere (hphase : (x.after occasions).service.phase.isWaiting = false)
    (o : Occasion) : x.looks (occasions ++ [o]) = x.looks occasions :=
  flagsAt_elsewhere hphase o

theorem poll_end (h : x.Minds occasions) (hphase : (x.after occasions).service.phase = .waiting)
    (hend : EndSeen (x.looks (occasions ++ [.runs]))) :
    (x.after occasions).service.waiter.poll (x.after occasions).session = (.ready, .resolved) := by
  obtain ⟨hquiet, hwaiter⟩ := h.going (by rw [hphase]; rfl)
  rw [looks_runs hphase] at hend
  rw [hwaiter, awaits_ended.due _ _ hquiet hend]

theorem poll_on (h : x.Minds occasions) (hphase : (x.after occasions).service.phase = .waiting)
    (hon : ¬ EndSeen (x.looks (occasions ++ [.runs]))) :
    Quiet EndSeen (x.looks (occasions ++ [.runs])) ∧
      (x.after occasions).service.waiter.poll (x.after occasions).session =
        (.pending, .ended ((x.looks (occasions ++ [.runs])).any (·.connected))) := by
  obtain ⟨hquiet, hwaiter⟩ := h.going (by rw [hphase]; rfl)
  rw [looks_runs hphase] at hon ⊢
  rw [hwaiter, awaits_ended.goesOn _ _ hquiet hon]
  exact ⟨quiet_concat hquiet hon, rfl⟩

theorem runs (h : x.Minds occasions) : x.Minds (occasions ++ [.runs]) := by
  have hmove := (x.after occasions).move
  generalize hy : (x.after occasions).occur .runs = y at hmove
  have hafter : x.after (occasions ++ [.runs]) = y := by rw [after_concat, hy]
  cases hmove with
  | waits hphase hpoll _ | takes hphase hpoll _ =>
    by_cases hend : EndSeen (x.looks (occasions ++ [.runs]))
    · rw [h.poll_end hphase hend] at hpoll
      cases hpoll
    · obtain ⟨hquiet, hpending⟩ := h.poll_on hphase hend
      rw [hpending] at hpoll
      cases hpoll
      refine ⟨fun _ => ⟨hquiet, congrArg (·.service.waiter) hafter⟩, ?_⟩
      intro hover
      rw [hafter] at hover
      cases hover
  | ends hphase hpoll ha =>
    by_cases hend : EndSeen (x.looks (occasions ++ [.runs]))
    · refine ⟨?_, fun _ => hend⟩
      intro hgoing
      rw [hafter] at hgoing
      cases hgoing
    · obtain ⟨hquiet, hpending⟩ := h.poll_on hphase hend
      rw [hpending] at hpoll
      cases hpoll
      exact absurd rfl ha
  | stalls hphase _ | refuses hphase _ | opens hphase _ | serves hphase _ | concludes hphase _
  | releases hphase | rests hphase =>
    refine h.keep (looks_elsewhere (by rw [hphase]; rfl) _) (congrArg (·.service.waiter) hafter) ?_
    simp [hafter, hphase, Service.conclude, ServicePhase.isFinished]

theorem aside (h : x.Minds occasions) {o : Occasion} (ho : o ≠ .runs) :
    x.Minds (occasions ++ [o]) := by
  have hservice : (x.after (occasions ++ [o])).service = (x.after occasions).service := by
    rw [after_concat]
    exact ((x.after occasions).occur_aside ho).1
  exact h.keep (flagsAt_aside ho) (congrArg Service.waiter hservice)
    (congrArg (·.phase.isFinished) hservice)

theorem finished_iff (h : x.Minds occasions) :
    (x.after occasions).service.phase.isFinished = true ↔ EndSeen (x.looks occasions) := by
  refine ⟨h.ended, ?_⟩
  intro hend
  by_contra hnot
  refine (h.going (by simpa using hnot)).1 _ ?_ List.prefix_rfl hend
  intro hnone
  rw [hnone] at hend
  exact not_endSeen_nil hend

end Minds

theorem minds {x : Sitting} (hx : x.service = {}) (occasions : List Occasion) :
    x.Minds occasions := by
  induction occasions using List.reverseRecOn with
  | nil =>
    refine ⟨fun _ => ⟨?_, congrArg Service.waiter hx⟩, ?_⟩
    · exact fun front hne hfront => absurd (List.prefix_nil.mp hfront) hne
    · intro hover
      rw [after, List.foldl_nil, hx] at hover
      cases hover
  | append_singleton occasions o ih =>
    by_cases ho : o = .runs
    · subst ho
      exact ih.runs
    · exact ih.aside ho

/-! ## Behind the end -/

theorem final_occur {x : Sitting} (h : x.service.phase = .finished) (o : Occasion) :
    (x.occur o).service = x.service ∧ (x.occur o).studio = x.studio ∧
      (x.occur o).listener.released = x.listener.released ∧
        (x.occur o).listener.waiting = x.listener.waiting ++ o.connection?.toList := by
  by_cases ho : o = .runs
  · subst ho
    simp [occur, Service.step, h, Occasion.connection?]
  · exact x.occur_aside ho

theorem final {x : Sitting} (h : x.service.phase = .finished) (more : List Occasion) :
    (x.after more).service = x.service ∧ (x.after more).studio = x.studio ∧
      (x.after more).listener.released = x.listener.released ∧
        (x.after more).listener.waiting = x.listener.waiting ++ arrivals more := by
  induction more using List.reverseRecOn with
  | nil => exact ⟨rfl, rfl, rfl, (List.append_nil _).symm⟩
  | append_singleton more o ih =>
    obtain ⟨hservice, hstudio, hreleased, hwaiting⟩ := ih
    obtain ⟨hservice', hstudio', hreleased', hwaiting'⟩ :=
      final_occur (x := x.after more) (by rw [hservice, h]) o
    rw [after_concat]
    refine ⟨hservice'.trans hservice, hstudio'.trans hstudio, hreleased'.trans hreleased, ?_⟩
    rw [hwaiting', hwaiting, arrivals_concat, List.append_assoc]

/-! ## Behind a close -/

end Sitting

/-- A camera cannot open a session that was closed. -/
def Camera.KeepsClosed (c : Camera) : Prop :=
  ∀ dir name scene, scene.session.closed = true →
    (c.capture dir name scene).2.session.closed = true

theorem Request.closed_step {studio : Studio} (h : studio.camera.KeepsClosed) (r : Request)
    {s : SessionState} (hs : s.closed = true) : (r.step s studio).2.1.closed = true := by
  unfold step
  split
  · split <;> exact hs
  · exact hs
  · split <;> exact hs
  · have hclosed := h studio.target.dir studio.target.name
      { files := studio.files, session := s } hs
    simp only [Camera.take]
    split <;> exact hclosed
  · split <;> exact hs
  · split <;> exact hs
  · split <;> exact hs
  · exact hs

theorem Request.keepsClosed_step {studio : Studio} (h : studio.camera.KeepsClosed) (r : Request)
    (s : SessionState) : (r.step s studio).2.2.camera.KeepsClosed := by
  rw [Camera.KeepsClosed, Request.capture_step]
  exact h

theorem Waiter.poll_of_closed {s : SessionState} (h : s.closed = true) (w : Waiter) :
    (w.poll s).1 ≠ .pending := by
  cases w <;> simp [poll, h]

/-- A handshake is in hand, and no request yet. -/
def ServicePhase.isGreeting : ServicePhase → Bool
  | greeting _ => true
  | _ => false

namespace Sitting

/-- The session is closed for good. -/
structure Shut (x : Sitting) : Prop where
  closed : x.session.closed = true
  camera : x.studio.camera.KeepsClosed

/-- The requests there were, and the one that the connection in hand may still become. -/
def claims (x : Sitting) : Nat :=
  x.service.report.requests + x.service.phase.isGreeting.toNat

theorem Shut.runs {x : Sitting} (h : x.Shut) :
    (x.occur .runs).Shut ∧ (x.occur .runs).claims ≤ x.claims ∧
      (x.occur .runs).listener.waiting = x.listener.waiting := by
  have hmove := x.move
  generalize x.occur .runs = y at hmove
  unfold claims
  cases hmove with
  | waits _ hpoll _ | takes _ hpoll _ =>
    exact absurd (congrArg Prod.fst hpoll) (Waiter.poll_of_closed h.closed _)
  | stalls _ _ | rests _ => exact ⟨h, Nat.le_refl _, rfl⟩
  | ends hphase _ _ | refuses hphase _ | opens hphase _ | releases hphase =>
    refine ⟨⟨h.closed, h.camera⟩, ?_, rfl⟩
    simp [hphase, ServicePhase.isGreeting]
  | serves hphase _ =>
    refine ⟨⟨Request.closed_step h.camera _ h.closed, Request.keepsClosed_step h.camera _ _⟩,
      ?_, rfl⟩
    simp [hphase, ServicePhase.isGreeting]
  | concludes hphase _ =>
    refine ⟨⟨Request.closed_step h.camera _ h.closed, Request.keepsClosed_step h.camera _ _⟩,
      ?_, rfl⟩
    simp [hphase, ServicePhase.isGreeting, Service.conclude, Service.requests_count]

theorem Shut.occur {x : Sitting} (h : x.Shut) (o : Occasion) :
    (x.occur o).Shut ∧ (x.occur o).claims ≤ x.claims ∧
      (x.occur o).listener.waiting = x.listener.waiting ++ o.connection?.toList := by
  by_cases ho : o = .runs
  · subst ho
    obtain ⟨hshut, hclaims, hwaiting⟩ := h.runs
    exact ⟨hshut, hclaims, hwaiting.trans (List.append_nil _).symm⟩
  · obtain ⟨hservice, hstudio, -, hwaiting⟩ := x.occur_aside ho
    refine ⟨⟨?_, by rw [hstudio]; exact h.camera⟩, by rw [claims, hservice, claims], hwaiting⟩
    cases o with
    | closes => rfl
    | arrives _ | sets _ => exact h.closed
    | runs => exact absurd rfl ho

theorem Shut.after {x : Sitting} (h : x.Shut) (more : List Occasion) :
    (x.after more).Shut ∧ (x.after more).claims ≤ x.claims ∧
      (x.after more).listener.waiting = x.listener.waiting ++ arrivals more := by
  induction more using List.reverseRecOn with
  | nil => exact ⟨h, Nat.le_refl _, (List.append_nil _).symm⟩
  | append_singleton more o ih =>
    obtain ⟨hshut, hclaims, hwaiting⟩ := ih
    obtain ⟨hshut', hclaims', hwaiting'⟩ := hshut.occur o
    rw [after_concat]
    refine ⟨hshut', hclaims'.trans hclaims, ?_⟩
    rw [hwaiting', hwaiting, arrivals_concat, List.append_assoc]

/-! ## Back to where connections are taken -/

end Sitting

namespace ServicePhase

/-- It waits for a handshake that may never be over. -/
def Stuck (p : ServicePhase) : Prop := ∃ c, p = greeting c ∧ c.handshake = .pending

/-- How far the service is from letting its connection go. -/
def rank : ServicePhase → Nat × Nat × Nat
  | greeting _ => (3, 0, 0)
  | serving _ r => (2, r.phase.stage, r.phase.frames)
  | closing .. => (1, 0, 0)
  | waiting | finished => (0, 0, 0)

end ServicePhase

theorem Request.unfinished_of_step {r : Request} {s : SessionState} {studio : Studio}
    (h : (r.step s studio).1.result? = none) : r.result? = none := by
  unfold result? at h ⊢
  split
  · next result hphase => simp [step, hphase] at h
  · rfl

namespace Sitting

theorem service_after_aside {more : List Occasion} (h : .runs ∉ more) (x : Sitting) :
    (x.after more).service = x.service := by
  induction more using List.reverseRecOn with
  | nil => rfl
  | append_singleton more o ih =>
    rw [List.mem_append, not_or] at h
    rw [after_concat, (occur_aside _ fun ho => h.2 (ho ▸ List.mem_singleton_self _)).1, ih h.1]

theorem rank_runs {x : Sitting} (hbusy : x.service.phase.isIdle = false)
    (hstuck : ¬ x.service.phase.Stuck) :
    ¬ (x.occur .runs).service.phase.Stuck ∧
      Prod.Lex (· < ·) (Prod.Lex (· < ·) (· < ·)) (x.occur .runs).service.phase.rank
        x.service.phase.rank := by
  have hmove := x.move
  generalize x.occur .runs = y at hmove
  cases hmove with
  | waits hphase _ _ | takes hphase _ _ | ends hphase _ _ | rests hphase =>
    rw [hphase] at hbusy
    cases hbusy
  | stalls hphase hc => exact absurd ⟨_, hphase, hc⟩ hstuck
  | refuses hphase hc =>
    rw [hphase]
    exact ⟨by simp [ServicePhase.Stuck], .left _ _ (by simp)⟩
  | opens hphase hc =>
    rw [hphase]
    exact ⟨by simp [ServicePhase.Stuck], .left _ _ (by simp)⟩
  | serves hphase hresult =>
    rw [hphase]
    exact ⟨by simp [ServicePhase.Stuck],
      .right _ (Request.advances_step (Request.unfinished_of_step hresult))⟩
  | concludes hphase hresult =>
    rw [hphase]
    exact ⟨by simp [ServicePhase.Stuck, Service.conclude], .left _ _ (by simp)⟩
  | releases hphase =>
    rw [hphase]
    exact ⟨by simp [ServicePhase.Stuck], .left _ _ (by simp)⟩

/-- The service runs `k` times. Before each run other things happen. -/
def rounds : (between : Nat → List Occasion) → (k : Nat) → List Occasion
  | _, 0 => []
  | between, k + 1 => between 0 ++ .runs :: rounds (fun i => between (i + 1)) k

theorem returns (x : Sitting) (hstuck : ¬ x.service.phase.Stuck) (between : Nat → List Occasion)
    (h : ∀ i, .runs ∉ between i) :
    ∃ k, (x.after (rounds between k)).service.phase.isIdle = true := by
  cases hidle : x.service.phase.isIdle with
  | true => exact ⟨0, hidle⟩
  | false =>
    have hservice := service_after_aside (h 0) x
    have hrank := rank_runs (x := x.after (between 0)) (by rw [hservice, hidle])
      (by rwa [hservice])
    obtain ⟨k, hk⟩ := returns ((x.after (between 0)).occur .runs) hrank.1
      (fun i => between (i + 1)) fun i => h (i + 1)
    refine ⟨k + 1, ?_⟩
    rw [rounds, after_append]
    exact hk
termination_by x.service.phase.rank
decreasing_by
  rw [← hservice]
  exact hrank.2

/-! ## The laws -/

/-- What the service has done after these occasions, and what it does next. -/
structure Attended (x : Sitting) (occasions : List Occasion) : Prop where
  /-- One connection is dealt with at a time. -/
  account : ∃ deals begun hand, x.Account occasions deals begun hand ∧
    (∀ d ∈ deals, d.Sound ∧ d.ShutOnce) ∧ hand.taken.length ≤ 1 ∧
      ((x.after occasions).service.phase.isIdle = true → hand = {})
  looks : (x.after occasions).service.phase = .waiting →
    x.looks (occasions ++ [.runs]) = x.looks occasions ++ [(x.after occasions).session]
  /-- If the end is seen then nothing is taken, whoever waits. -/
  ends : (x.after occasions).service.phase = .waiting →
    EndSeen (x.looks (occasions ++ [.runs])) →
    (x.after (occasions ++ [.runs])).service.phase = .finished ∧
      (x.after (occasions ++ [.runs])).listener = (x.after occasions).listener ∧
        (x.after (occasions ++ [.runs])).service.report = (x.after occasions).service.report
  /-- Else the first one that waits is taken. -/
  takes : (x.after occasions).service.phase = .waiting →
    ¬ EndSeen (x.looks (occasions ++ [.runs])) →
    (x.after (occasions ++ [.runs])).service.phase =
        (match (x.after occasions).listener.waiting with
          | [] => .waiting
          | c :: _ => .greeting c) ∧
      (x.after (occasions ++ [.runs])).listener =
        { (x.after occasions).listener with
          waiting := (x.after occasions).listener.waiting.tail }
  finished : (x.after occasions).service.phase = .finished ↔ EndSeen (x.looks occasions)
  final : (x.after occasions).service.phase = .finished → ∀ more,
    (x.after (occasions ++ more)).service = (x.after occasions).service ∧
      (x.after (occasions ++ more)).listener.released = (x.after occasions).listener.released ∧
        (x.after (occasions ++ more)).listener.waiting =
          (x.after occasions).listener.waiting ++ arrivals more
  /-- Behind a close nobody is taken any more, and only a handshake in hand can still become a
  request. -/
  closed : (x.after occasions).session.closed = true →
    (x.after occasions).studio.camera.KeepsClosed → ∀ more,
    (x.after (occasions ++ more)).listener.waiting =
        (x.after occasions).listener.waiting ++ arrivals more ∧
      (x.after (occasions ++ more)).service.report.requests ≤
        (x.after occasions).service.report.requests +
          (x.after occasions).service.phase.isGreeting.toNat
  /-- Whatever comes of a connection, the service comes back, unless a handshake is never over. -/
  returns : ¬ (x.after occasions).service.phase.Stuck → ∀ between : Nat → List Occasion,
    (∀ i, .runs ∉ between i) →
    ∃ k, (x.after (occasions ++ rounds between k)).service.phase.isIdle = true

theorem attended (l : Listener) (s : SessionState) (studio : Studio) (occasions : List Occasion) :
    Attended { listener := l, session := s, studio } occasions := by
  generalize hx : ({ listener := l, session := s, studio } : Sitting) = x
  have hservice : x.service = {} := by rw [← hx]
  have hminds := minds hservice occasions
  refine ⟨?_, Minds.looks_runs, ?_, ?_, ?_, ?_, ?_, ?_⟩
  · obtain ⟨deals, begun, hand, h⟩ := account hservice occasions
    have hsound := h.dealt.sound
    exact ⟨deals, begun, hand, h, fun d hd => ⟨hsound d hd, (hsound d hd).shutOnce⟩,
      h.inHand.length_taken, h.inHand.eq_empty⟩
  · intro hphase hend
    rw [after_concat, occur, Service.step, hphase, hminds.poll_end hphase hend]
    exact ⟨rfl, rfl, rfl⟩
  · intro hphase hon
    obtain ⟨-, hpoll⟩ := hminds.poll_on hphase hon
    rw [after_concat, occur, Service.step, hphase, hpoll]
    cases hwaiting : (x.after occasions).listener.waiting with
    | nil => exact ⟨rfl, congrArg (Listener.mk · _) hwaiting⟩
    | cons c rest => exact ⟨rfl, rfl⟩
  · rw [← ServicePhase.isFinished_iff]
    exact hminds.finished_iff
  · intro hphase more
    rw [after_append]
    obtain ⟨hsame, -, hreleased, hwaiting⟩ := final hphase more
    exact ⟨hsame, hreleased, hwaiting⟩
  · intro hclosed hcamera more
    rw [after_append]
    obtain ⟨-, hclaims, hwaiting⟩ := Shut.after ⟨hclosed, hcamera⟩ more
    exact ⟨hwaiting, Nat.le_trans (Nat.le_add_right _ _) hclaims⟩
  · intro hstuck between hbetween
    obtain ⟨k, hk⟩ := returns _ hstuck between hbetween
    exact ⟨k, by rwa [after_append]⟩

end Sitting

end Teleop
