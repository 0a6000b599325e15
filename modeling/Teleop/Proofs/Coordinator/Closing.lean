import Teleop.Proofs.Coordinator.Exclusion
import Teleop.Proofs.Coordinator.Images

/-!
# Closed sessions

A session is closed behind its command task. If that task returned it has put the flag down, and
whoever asks for a picture from then on is refused. A task that was stopped on its way leaves the
flag as it is, and the gate looks at nothing else.
-/

namespace Teleop

/-! ## What nobody writes -/

namespace World

variable (w : World)

theorem studio_putSession (n : Nat) (s : LiveSession) : (w.putSession n s).studio = w.studio := by
  unfold putSession
  split <;> rfl

theorem studio_releaseControl (ended : Bool) (id : Nat) (stream : Stream) :
    (w.releaseControl ended id stream).studio = w.studio := by
  unfold releaseControl
  split <;> rfl

theorem studio_releaseImage (t : Task Service) : (w.releaseImage t).studio = w.studio := by
  unfold releaseImage
  split
  · split <;> rfl
  · rfl

theorem studio_coordinate : w.coordinate.studio = w.studio := by
  have hmove := coordination_coordinate w
  generalize w.coordinate = w' at hmove ⊢
  cases hmove <;> rfl

theorem capture_imageFate (n : Nat) (s : LiveSession) (fate : TaskFate) :
    (w.imageFate n s fate).studio.camera.capture = w.studio.camera.capture := by
  unfold imageFate
  split
  · cases fate with
    | run =>
      simp only [studio_releaseImage, studio_putSession]
      exact Service.capture_step _ _ _ _
    | vanish | crash => simp only [studio_releaseImage, studio_putSession]
  · rfl

theorem capture_step (e : Event) :
    (w.step e).studio.camera.capture = w.studio.camera.capture := by
  cases e with
  | controlArrives | imageArrives | shutdown => rfl
  | coordinator => exact congrArg (·.camera.capture) w.studio_coordinate
  | graceExpires =>
    rw [step, giveUpImage]
    split
    · split <;> rfl
    · rfl
  | task n name fate =>
    rw [step]
    split
    · rfl
    · cases name with
      | command =>
        dsimp only [commandFate]
        split
        · simp only [studio_releaseControl, studio_putSession]
        · rfl
      | image => exact w.capture_imageFate n _ fate
      | rejection i =>
        dsimp only [rejectionFate]
        split
        · simp only [studio_releaseControl, studio_putSession]
        · rfl

theorem leavesFlags_run {w : World} (h : w.studio.camera.LeavesFlags) (events : List Event) :
    (w.run events).studio.camera.LeavesFlags := by
  induction events generalizing w with
  | nil => exact h
  | cons e events ih =>
    apply ih
    unfold Camera.LeavesFlags
    rw [capture_step]
    exact h

end World

theorem CommandRun.closed_step (r : CommandRun) (e : Engine) :
    (r.step e).2.session.closed = e.session.closed := by
  cases hphase : r.phase with
  | reading =>
    rcases hread : r.channel.readMessage messageCapacity with ⟨error | m, c⟩
    · rw [step_reading_error hphase hread, engine_lose]
      rfl
    · obtain ⟨reply, -, -, hstep⟩ := step_reading_ok hphase hread e
      rw [hstep]
      rfl
  | answering reply =>
    rcases hanswer : r.channel.respond reply.response with ⟨error | n, c⟩
    · rw [step_unsent hphase hanswer, engine_lose]
      rfl
    · rw [step_sent hphase hanswer]
  | closing response => rw [step_closing hphase]
  | finished ending => rw [step_finished hphase]

/-! ## The command task of a session -/

/-- What holds between the command task of a session and the flags. `stopped` is what it takes to
stop the task. -/
structure LiveSession.Minds (s : LiveSession) (stopped : Prop) : Prop where
  deserted : s.state.closed = true → s.Deserted
  tidy : s.command.state.Tidy s.state
  ended : ∀ run, s.command = .finished run → run.ending? ≠ none
  stopped : s.command.isAborted = true ∨ (∃ run, s.command = .lost run) → stopped

namespace LiveSession.Minds

variable {w : World} {s s' : LiveSession} {n : Nat} {e : Event} {stopped : Prop}

theorem imp {more : Prop} (h : s.Minds stopped) (himp : stopped → more) : s.Minds more :=
  { h with stopped := fun hstopped => himp (h.stopped hstopped) }

theorem start (c : Connection) : (LiveSession.start c).Minds stopped where
  deserted := by simp [LiveSession.start]
  tidy := by
    intro hleaving
    cases hleaving
  ended := by simp [LiveSession.start, Task.start]
  stopped := by simp [LiveSession.start, Task.start, Task.isAborted]

theorem not_closed_of_live (h : s.Minds stopped) (hlive : s.command.isLive = true) :
    s.state.closed = false := by
  by_contra hclosed
  have hover := (h.deserted (eq_true_of_ne_false hclosed)).command
  rw [hlive] at hover
  cases hover

theorem same (h : s.Minds stopped) (hstate : s'.state = s.state) (hcommand : s'.command = s.command)
    (hrejections : s.rejections = [] → s'.rejections = []) : s'.Minds stopped where
  deserted hclosed := by
    obtain ⟨hover, hnobody⟩ := h.deserted (hstate ▸ hclosed)
    exact ⟨hcommand ▸ hover, hrejections hnobody⟩
  tidy := by rw [hcommand, hstate]; exact h.tidy
  ended := hcommand ▸ h.ended
  stopped := hcommand ▸ h.stopped

theorem steered (h : s.Minds stopped) (horder : w.InOrder) (hsteer : Steering w s e s')
    (hdown : w.shutdown = true → stopped) : s'.Minds stopped := by
  cases hsteer with
  | aborts hshutdown =>
    refine ⟨?_, ?_, ?_, fun _ => hdown hshutdown⟩
    · intro hclosed
      obtain ⟨hover, hnobody⟩ := h.deserted hclosed
      refine ⟨?_, hnobody⟩
      cases hcommand : s.command <;> simp_all [Task.abort, Task.isLive]
    · dsimp only
      rw [Task.state_abort]
      exact h.tidy
    · intro run hrun
      apply h.ended run
      cases hcommand : s.command <;> simp_all [Task.abort]
  | dismisses => exact h.same rfl rfl (by simp +contextual [World.dismiss])
  | turnsAway hphase hshutdown hlive =>
    refine ⟨?_, h.tidy, h.ended, h.stopped⟩
    intro hclosed
    simp [h.not_closed_of_live hlive] at hclosed
  | reaps => exact h.same rfl rfl (by simp +contextual)
  | closes hphase => exact ⟨fun _ => ⟨horder.dismissing s hphase, rfl⟩, h.tidy, h.ended, h.stopped⟩
  | givesUp => exact h.same rfl rfl id

theorem moved {name : TaskName} {fate : TaskFate} {d : Drive} (h : s.Minds stopped)
    (hcamera : w.studio.camera.LeavesFlags) (hmove : TaskMove w s name fate s' d)
    (hcrash : name = .command → fate = .crash → stopped) : s'.Minds stopped := by
  cases hmove with
  | none => exact h
  | @command run aborted htask =>
    have hlive : s.command.isLive = true := by rw [htask]; rfl
    have htidy : run.Tidy s.state := by
      have := h.tidy
      rwa [htask] at this
    refine ⟨?_, ?_, ?_, ?_⟩
    · intro hclosed
      dsimp only at hclosed
      rw [CommandRun.closed_step] at hclosed
      exact absurd hclosed (by simp [World.engineOf, h.not_closed_of_live hlive])
    · dsimp only
      rw [Task.state_arrive]
      exact CommandRun.tidy_step htidy
    · intro run' hrun
      dsimp only [Task.arrive] at hrun
      split at hrun
      · rename_i hended
        obtain rfl := Task.finished.inj hrun
        exact Option.isSome_iff_ne_none.mp hended
      · split at hrun <;> cases hrun
    · intro hstopped
      apply h.stopped
      left
      rw [htask]
      cases aborted with
      | true => rfl
      | false =>
        dsimp only [Task.arrive] at hstopped
        split at hstopped <;> simp [Task.isAborted] at hstopped
  | commandVanishes hlive =>
    refine ⟨?_, ?_, ?_, ?_⟩
    · intro hclosed
      simp [h.not_closed_of_live hlive] at hclosed
    · dsimp only
      rw [Task.Rests.state_eq .vanish]
      exact h.tidy
    · intro run hrun
      rcases hcommand : s.command with ⟨run', _ | _⟩ | run' | run' <;>
        simp [hcommand, Task.vanish] at hrun hlive
      cases hlive
    · intro hstopped
      apply h.stopped
      rcases hcommand : s.command with ⟨run', _ | _⟩ | run' | run' <;>
        simp_all [Task.vanish, Task.isAborted, Task.isLive]
  | commandCrashes hlive =>
    refine ⟨?_, ?_, ?_, fun _ => hcrash rfl rfl⟩
    · intro hclosed
      simp [h.not_closed_of_live hlive] at hclosed
    · dsimp only
      rw [Task.Rests.state_eq .crash]
      exact h.tidy
    · intro run hrun
      cases hcommand : s.command <;> simp_all [Task.crash, Task.isLive]
  | image => exact h.same (Service.session_step _ _ _ _ hcamera) rfl id
  | imageVanishes | imageCrashes => exact h.same rfl rfl id
  | rejection => exact h.same rfl rfl (by simp +contextual)

end LiveSession.Minds

namespace World

variable {w : World} {n : Nat} {s s' : LiveSession}

/-- What it takes to stop the command task of session `n`. -/
def Stopped (w : World) (events : List Event) (n : Nat) : Prop :=
  (w.run events).shutdown = true ∨ .task n .command .crash ∈ events

theorem stopped_concat {events : List Event} (h : w.Stopped events n) (e : Event) :
    w.Stopped (events ++ [e]) n := by
  rcases h with hdown | hcrash
  · left
    rw [run_concat]
    exact shutdown_step hdown e
  · exact Or.inr (List.mem_append_left _ hcrash)

theorem minds_run (horder : w.InOrder) (hcamera : w.studio.camera.LeavesFlags)
    (hnone : w.sessions = []) {events : List Event}
    (hs : (w.run events).session? n = some s) : s.Minds (w.Stopped events n) := by
  induction events using List.reverseRecOn generalizing s with
  | nil =>
    change w.session? n = some s at hs
    rw [session?_eq_getElem?, hnone] at hs
    cases hs
  | append_singleton events e ih =>
    have hcamera' := leavesFlags_run hcamera events
    have hstays := fun h : w.Stopped events n => stopped_concat h e
    rw [run_concat] at hs
    rcases session?_step hs with hsame | ⟨c, -, -, -, rfl⟩ | ⟨s₀, hs₀, -, -, hsteer⟩ |
      ⟨s₀, name, fate, d, hs₀, rfl, hmove⟩
    · exact (ih hsame).imp hstays
    · exact .start c
    · have h := (ih hs₀).imp hstays
      exact h.steered (inOrder_run horder events) hsteer fun hdown => hstays (Or.inl hdown)
    · have h := (ih hs₀).imp hstays
      refine h.moved hcamera' hmove ?_
      rintro rfl rfl
      exact Or.inr (List.mem_append_right _ (List.mem_singleton_self _))

/-! ## Behind the close -/

theorem state_of_closed {stopped : Prop} (hcamera : w.studio.camera.LeavesFlags)
    (h : s.Minds stopped) (hclosed : s.state.closed = true) {e : Event}
    (hs : w.session? n = some s) (hs' : (w.step e).session? n = some s') :
    s'.state = s.state := by
  have hover := (h.deserted hclosed).command
  rcases session_moves hs hs' with rfl | hsteer | ⟨name, fate, d, rfl, hmove⟩
  · rfl
  · cases hsteer with
    | closes =>
      change ({ s.state with closed := true } : SessionState) = s.state
      rw [← hclosed]
    | _ => rfl
  · cases hmove with
    | command htask =>
      rw [htask] at hover
      cases hover
    | image => exact Service.session_step _ _ _ _ hcamera
    | _ => rfl

theorem state_run (horder : w.InOrder) (hcamera : w.studio.camera.LeavesFlags)
    (hnone : w.sessions = []) {events : List Event} (hs : (w.run events).session? n = some s)
    (hclosed : s.state.closed = true) {more : List Event}
    (hs' : (w.run (events ++ more)).session? n = some s') : s'.state = s.state := by
  induction more using List.reverseRecOn generalizing s' with
  | nil =>
    rw [List.append_nil, hs] at hs'
    obtain rfl := Option.some.inj hs'
    rfl
  | append_singleton more e ih =>
    rw [← List.append_assoc, run_concat] at hs'
    obtain ⟨s₀, hs₀⟩ := session?_run_append hs more
    have hstate := ih hs₀
    rw [← hstate] at hclosed ⊢
    exact state_of_closed (leavesFlags_run hcamera _) (minds_run horder hcamera hnone hs₀) hclosed
      hs₀ hs'

theorem connected_of_checked (horder : w.InOrder) (hcamera : w.studio.camera.LeavesFlags)
    (hnone : w.sessions = []) {events more : List Event}
    (hs : (w.run events).session? n = some s) (hclosed : s.state.closed = true) {k : Nat}
    {word : Bytes} {connected : Bool}
    (hchecked : .request k (.checked word connected) ∈ (w.run events).requestMarks n more) :
    connected = s.state.connected := by
  obtain ⟨before, e, after, rfl, hlook⟩ := mem_trace hchecked
  obtain ⟨⟨svc, state⟩, hrunning, hmark⟩ := Option.bind_eq_some_iff.mp hlook
  obtain ⟨s₀, hs₀, rfl, -⟩ := running?_eq_some hrunning
  obtain ⟨r, -, hmark⟩ := Option.bind_eq_some_iff.mp hmark
  obtain ⟨m, hm, hmark⟩ := Option.map_eq_some_iff.mp hmark
  obtain ⟨-, rfl⟩ := Mark.request.inj hmark
  rw [← run_append] at hs₀
  rw [Request.mark?_eq_checked hm, state_run horder hcamera hnone hs hclosed hs₀]

/-- Whoever was read behind the close and let in has passed the gate behind it. -/
theorem checked_of_read (hnone : w.sessions = []) {events more : List Event}
    (hs : (w.run events).session? n = some s) {k : Nat}
    (hread : .request k .read ∈ (w.run events).requestMarks n more)
    (hok : .request k (.answered .pictureOk) ∈ w.requestMarks n (events ++ more)) :
    .request k (.checked Command.picture.bytes true) ∈ (w.run events).requestMarks n more := by
  obtain ⟨s', hs'⟩ := session?_run_append hs more
  obtain ⟨word, connected, hcourse⟩ := (onCourse_run hnone hs').every k
  rw [requestMarks, trace_append, shown_append] at hcourse
  rw [requestMarks, trace_append, ← mem_shown, shown_append] at hok
  rw [← mem_shown] at hread ⊢
  -- The request was read behind the close, so it has shown nothing before.
  have hfresh : shown k (w.trace (requestMark? n) events) = [] := by
    obtain ⟨before, after, hsplit⟩ := List.append_of_mem hread
    change shown k ((w.run events).trace (requestMark? n) more) = _ at hsplit
    rw [hsplit, ← List.append_assoc] at hcourse
    exact (List.append_eq_nil_iff.mp (Request.before_read hcourse)).1
  rw [hfresh, List.nil_append] at hcourse hok
  obtain ⟨before, after, hsplit⟩ := List.append_of_mem hok
  rw [hsplit] at hcourse
  obtain ⟨hbefore, hverdict⟩ := Request.before_answered hcourse
  obtain ⟨rfl, rfl⟩ := verdict_eq_pictureOk.mp hverdict.symm
  change _ ∈ shown k ((w.run events).trace (requestMark? n) more)
  rw [hsplit, hbefore]
  simp

theorem answered_of_captured (hnone : w.sessions = []) {events : List Event}
    (hs : (w.run events).session? n = some s) {k : Nat}
    (hcaptured : .request k .captured ∈ w.requestMarks n events) :
    .request k (.answered .pictureOk) ∈ w.requestMarks n events := by
  obtain ⟨word, connected, hcourse⟩ := (onCourse_run hnone hs).every k
  rw [← mem_shown] at hcaptured ⊢
  obtain ⟨before, after, hsplit⟩ := List.append_of_mem hcaptured
  rw [hsplit] at hcourse ⊢
  rw [Request.before_captured hcourse]
  simp

end World

/-- What holds of the session `n`, which is `s` and closed behind some events, when there are more
events. -/
structure ClosedOff (w : World) (events more : List Event) (n : Nat) (s : LiveSession) : Prop where
  deserted : s.Deserted
  /-- The flags stay as they are. -/
  flags : ∀ s', (w.run (events ++ more)).session? n = some s' → s'.state = s.state
  /-- A command task that returned has put the flag down. -/
  returned : ∀ run, s.command = .finished run → s.state.connected = false
  /-- It takes the shutdown signal or a failure to leave it up. -/
  connected : s.state.connected = true → w.Stopped events n
  /-- Every gate finds the flag as it is now. -/
  gate : ∀ k word connected,
    .request k (.checked word connected) ∈ (w.run events).requestMarks n more →
      connected = s.state.connected
  /-- With the flag down, no request that is read from now on is let in, and none takes a
  picture. -/
  refused : s.state.connected = false → ∀ k,
    .request k .read ∈ (w.run events).requestMarks n more →
      .request k (.answered .pictureOk) ∉ w.requestMarks n (events ++ more) ∧
        .request k .captured ∉ w.requestMarks n (events ++ more)

namespace World

/-- **Behind the close of a session nobody is let in whose command task has returned.** -/
theorem closedOff_run (speed : Speed) (drive : Drive) (studio : Studio) (events more : List Event)
    (n : Nat) (s : LiveSession) (hcamera : studio.camera.LeavesFlags)
    (hs : ((opening speed drive studio).run events).session? n = some s)
    (hclosed : s.state.closed = true) :
    ClosedOff (opening speed drive studio) events more n s := by
  have horder := inOrder_opening speed drive studio
  have hminds := minds_run horder hcamera rfl hs
  have hdeserted := hminds.deserted hclosed
  have hgate : ∀ k word connected, .request k (.checked word connected) ∈
      ((opening speed drive studio).run events).requestMarks n more →
        connected = s.state.connected := fun k word connected =>
    connected_of_checked horder hcamera rfl hs hclosed
  have hreturned : ∀ run, s.command = .finished run → s.state.connected = false := by
    intro run hrun
    have htidy := hminds.tidy
    rw [hrun] at htidy
    exact htidy.connected_of_ending (hminds.ended run hrun)
  refine ⟨hdeserted, ?_, hreturned, ?_, hgate, ?_⟩
  · intro s' hs'
    exact state_run horder hcamera rfl hs hclosed hs'
  · intro hconnected
    apply hminds.stopped
    cases hcommand : s.command with
    | running run aborted =>
      have := hdeserted.command
      rw [hcommand] at this
      cases this
    | finished run =>
      rw [hreturned run hcommand] at hconnected
      cases hconnected
    | lost run => exact Or.inr ⟨run, rfl⟩
  · intro hdown k hread
    have hok : .request k (.answered .pictureOk) ∉
        (opening speed drive studio).requestMarks n (events ++ more) := by
      intro hok
      have := hgate k _ _ (checked_of_read rfl hs hread hok)
      rw [hdown] at this
      cases this
    refine ⟨hok, ?_⟩
    intro hcaptured
    obtain ⟨s', hs'⟩ := session?_run_append hs more
    exact hok (answered_of_captured rfl hs' hcaptured)

/-- The operator connects, and a client is at the image channel that has asked for a picture. -/
def viewing : List Event :=
  let operator : Stream := { arrivals := [.chunk (line "CONN")] }
  let viewer : Stream := { arrivals := [.chunk (line "PICTURE")] }
  [.controlArrives { id := 0, stream := operator }, .coordinator, .coordinator,
    .task 0 .command .run, .task 0 .command .run, .imageArrives { id := 1, stream := viewer },
    .task 0 .image .run, .task 0 .image .run]

/-- The operator is gone, and the coordinator closes the session. -/
def leaving : List Event :=
  viewing ++ [.task 0 .command .run, .coordinator, .coordinator]

/-- The shutdown signal is given, and the coordinator closes the session. -/
def stopping : List Event :=
  viewing ++
    [.shutdown, .coordinator, .task 0 .command .vanish, .coordinator, .coordinator]

/-- The image channel goes on. -/
def late : List Event := List.replicate 4 (.task 0 .image .run)

theorem closedOff_leaving :
    ∃ s, (bench.run leaving).session? 0 = some s ∧ s.state.closed = true ∧
      ClosedOff bench leaving late 0 s ∧
        .request 1 .read ∈ (bench.run leaving).requestMarks 0 late := by
  have hsome : ((bench.run leaving).session? 0).isSome = true := by decide +kernel
  have hany : ((bench.run leaving).session? 0).any (·.state.closed) = true := by decide +kernel
  obtain ⟨s, hs⟩ := Option.isSome_iff_exists.mp hsome
  have hclosed : s.state.closed = true := by simpa [hs] using hany
  exact ⟨s, hs, hclosed,
    closedOff_run _ _ _ _ _ _ _ (Camera.leavesFlags_onFiles _ _ _) hs hclosed, by decide +kernel⟩

/-- Behind a shutdown a request that is read when the session is closed gets its picture. -/
theorem picture_behind_close :
    ((bench.run stopping).session? 0).any (·.state.closed) = true ∧
      .request 1 .read ∈ (bench.run stopping).requestMarks 0 late ∧
        .request 1 (.answered .pictureOk) ∈ (bench.run stopping).requestMarks 0 late ∧
          .request 1 .captured ∈ (bench.run stopping).requestMarks 0 late ∧
            ((bench.run stopping).run late).studio.camera.captures = 1 := by
  decide +kernel

end World

end Teleop
