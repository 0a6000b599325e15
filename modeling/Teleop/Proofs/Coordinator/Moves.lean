import Teleop.Coordinator.World

/-!
# What one event can do to a world

Every event is one of the moves below, with all that has to hold for it. What is said of moves holds
of every step, in any order of events.
-/

namespace Teleop

/-! ## The coordinator -/

/-- Nothing that the coordinator waits for is there. -/
def World.Waits (w : World) : Prop :=
  match w.phase with
  | .accepting => w.shutdown = false ∧ w.control.waiting = []
  | .greeting c => w.shutdown = false ∧ c.handshake = .pending
  | .serving _ => False
  | .joining s => s.command.isLive = true
  | .dismissing s => s.rejections.any Task.isLive = true
  | .draining s => s.image.isLive = true
  | .stopped => True

/-- What the coordinator does when it is its turn. -/
inductive Coordination (w : World) : World → Prop where
  | waits (hwaits : w.Waits) : Coordination w w
  | stops (hphase : w.phase = .accepting) (hdown : w.shutdown = true) :
    Coordination w { w with phase := .stopped }
  | takes {c : Connection} {rest : List Connection} (hphase : w.phase = .accepting)
      (hdown : w.shutdown = false) (hwaiting : w.control.waiting = c :: rest) :
    Coordination w { w with control := { w.control with waiting := rest }, phase := .greeting c }
  | drops {c : Connection} (hphase : w.phase = .greeting c)
      (hlost : w.shutdown = true ∨ ∃ e, c.handshake = .refused e) :
    Coordination w { w with control := w.control.release c, phase := .accepting }
  | opens {c : Connection} (hphase : w.phase = .greeting c) (hdown : w.shutdown = false)
      (hdone : c.handshake = .done) :
    Coordination w { w with phase := .serving (.start c) }
  | joins {s : LiveSession} (hphase : w.phase = .serving s) (hdown : w.shutdown = true) :
    Coordination w { w with phase := .joining { s with command := s.command.abort } }
  | dismisses {s : LiveSession} (hphase : w.phase = .serving s ∨ w.phase = .joining s)
      (hover : s.command.isLive = false) :
    Coordination w { w with phase := .dismissing (World.dismiss s) }
  | turnsAway {s : LiveSession} {c : Connection} {rest : List Connection}
      (hphase : w.phase = .serving s) (hdown : w.shutdown = false)
      (hlive : s.command.isLive = true) (hwaiting : w.control.waiting = c :: rest) :
    Coordination w
      { w with
        control := { w.control with waiting := rest }
        phase := .serving { s with rejections := s.rejections ++ [.start (.of c)] }
        summary := { w.summary with busyRejections := w.summary.busyRejections + 1 } }
  | reaps {s : LiveSession} (hphase : w.phase = .serving s) (hlive : s.command.isLive = true) :
    Coordination w
      { w with phase := .serving { s with rejections := s.rejections.filter Task.isLive } }
  | drains {s : LiveSession} (hphase : w.phase = .dismissing s)
      (hover : s.rejections.any Task.isLive = false) :
    Coordination w { w with phase := .draining { s with rejections := [], state := s.state.close } }
  | concludes {s : LiveSession} (hphase : w.phase = .draining s) (hover : s.image.isLive = false) :
    Coordination w (w.conclude s ((s.image.result?.map Service.report).getD {}))

theorem coordination_coordinate (w : World) : Coordination w w.coordinate := by
  unfold World.coordinate
  split <;> rename_i hphase
  · split
    · exact .stops hphase ‹_›
    · rename_i hdown
      split
      · exact .waits (by simpa [World.Waits, hphase] using ⟨eq_false_of_ne_true hdown, ‹_›⟩)
      · exact .takes hphase (eq_false_of_ne_true hdown) ‹_›
  · split
    · exact .drops hphase (Or.inl ‹_›)
    · rename_i hdown
      split
      · exact .waits (by simpa [World.Waits, hphase] using ⟨eq_false_of_ne_true hdown, ‹_›⟩)
      · exact .drops hphase (Or.inr ⟨_, ‹_›⟩)
      · exact .opens hphase (eq_false_of_ne_true hdown) ‹_›
  · split
    · exact .joins hphase ‹_›
    · rename_i hdown
      split
      · exact .dismisses (Or.inl hphase) (by simpa using ‹(!_) = true›)
      · rename_i hlive
        split
        · exact .turnsAway hphase (eq_false_of_ne_true hdown) (by simpa using hlive) ‹_›
        · exact .reaps hphase (by simpa using hlive)
  · split
    · exact .waits (by simpa [World.Waits, hphase])
    · exact .dismisses (Or.inr hphase) (eq_false_of_ne_true ‹_›)
  · split
    · exact .waits (by rwa [World.Waits, hphase])
    · exact .drains hphase (eq_false_of_ne_true ‹_›)
  · split
    · exact .waits (by simpa [World.Waits, hphase])
    · exact .concludes hphase (eq_false_of_ne_true ‹_›)
  · exact .waits (by simp [World.Waits, hphase])

/-! ## Tasks -/

/-- The session has the task and it is not over. -/
def LiveSession.runs (s : LiveSession) : TaskName → Bool
  | .command => s.command.isLive
  | .image => s.image.isLive
  | .rejection i => (s.rejections[i]?.map Task.isLive).getD false

/-- What an event of a task does to its session and to the drive. -/
inductive TaskMove (w : World) (s : LiveSession) :
    TaskName → TaskFate → LiveSession → Drive → Prop where
  | none {name : TaskName} {fate : TaskFate} (hover : s.runs name = false) :
    TaskMove w s name fate s w.drive
  | command {run : CommandRun} {aborted : Bool} (htask : s.command = .running run aborted) :
    TaskMove w s .command .run
      { s with
        state := (run.step (w.engineOf s)).2.session
        handled := (run.step (w.engineOf s)).2.handled
        command := .arrive aborted (run.step (w.engineOf s)).1.ending?.isSome
          (run.step (w.engineOf s)).1 }
      (run.step (w.engineOf s)).2.drive
  | commandVanishes (hlive : s.command.isLive = true) :
    TaskMove w s .command .vanish { s with command := s.command.vanish } w.drive
  | commandCrashes (hlive : s.command.isLive = true) :
    TaskMove w s .command .crash { s with command := s.command.crash } w.drive
  | image {svc : Service} {aborted : Bool} (htask : s.image = .running svc aborted) :
    TaskMove w s .image .run
      { s with
        state := (svc.step w.image s.state w.studio).2.2.1
        image := .arrive aborted (svc.step w.image s.state w.studio).1.isFinished
          (svc.step w.image s.state w.studio).1 }
      w.drive
  | imageVanishes (hlive : s.image.isLive = true) :
    TaskMove w s .image .vanish { s with image := s.image.vanish } w.drive
  | imageCrashes (hlive : s.image.isLive = true) :
    TaskMove w s .image .crash { s with image := s.image.crash } w.drive
  | rejection {i : Nat} {fate : TaskFate} {r : Rejection} {aborted : Bool} {t : Task Rejection}
      (htask : s.rejections[i]? = some (.running r aborted))
      (ht : t = match fate with
        | .run => .arrive aborted r.step.isOver r.step
        | .vanish => (Task.running r aborted).vanish
        | .crash => (Task.running r aborted).crash) :
    TaskMove w s (.rejection i) fate { s with rejections := s.rejections.set i t } w.drive

/-- The world `w'` is `w` with another session of number `n`, as far as the coordinator can tell. -/
structure World.Replaces (w : World) (n : Nat) (s : LiveSession) (w' : World) : Prop where
  past : w'.past = (w.putSession n s).past
  phase : w'.phase = (w.putSession n s).phase
  shutdown : w'.shutdown = w.shutdown
  waiting : w'.control.waiting = w.control.waiting
  speed : w'.speed = w.speed
  reports : w'.reports = w.reports
  summary : w'.summary = w.summary

namespace World

variable {w : World} {n : Nat} {s : LiveSession}

theorem session?_eq_some (h : w.session? n = some s) :
    (n < w.past.length ∧ w.past[n]? = some s) ∨
      (n = w.past.length ∧ w.phase.session? = some s) := by
  unfold session? at h
  split at h
  · exact Or.inl ⟨‹_›, h⟩
  · split at h
    · exact Or.inr ⟨‹_›, h⟩
    · cases h

theorem withSession_self {p : CoordinatorPhase} (h : p.session? = some s) :
    p.withSession s = p := by
  cases p <;> simp_all [CoordinatorPhase.session?, CoordinatorPhase.withSession]

theorem putSession_self (h : w.session? n = some s) : w.putSession n s = w := by
  unfold putSession
  rcases session?_eq_some h with ⟨hn, hs⟩ | ⟨rfl, hs⟩
  · rw [if_pos hn]
    have hset : w.past.set n s = w.past := by
      obtain ⟨hlt, rfl⟩ := List.getElem?_eq_some_iff.mp hs
      exact List.set_getElem_self hlt
    rw [hset]
  · rw [if_neg (Nat.lt_irrefl _), withSession_self hs]

theorem drive_putSession (w : World) (n : Nat) (s : LiveSession) :
    (w.putSession n s).drive = w.drive := by
  unfold putSession
  split <;> rfl

theorem replaces_putSession (w : World) (n : Nat) (s : LiveSession) {w₁ : World}
    (hpast : w₁.past = w.past) (hphase : w₁.phase = w.phase) (hshutdown : w₁.shutdown = w.shutdown)
    (hwaiting : w₁.control.waiting = w.control.waiting) (hspeed : w₁.speed = w.speed)
    (hreports : w₁.reports = w.reports) (hsummary : w₁.summary = w.summary) :
    w.Replaces n s (w₁.putSession n s) := by
  unfold putSession
  rw [hpast, hphase]
  split
  · rename_i hn
    exact ⟨by simp [putSession, hn], by simp [putSession, hn], hshutdown, hwaiting, hspeed,
      hreports, hsummary⟩
  · rename_i hn
    exact ⟨by simp [putSession, hn], by simp [putSession, hn], hshutdown, hwaiting, hspeed,
      hreports, hsummary⟩

theorem Replaces.releaseControl {w' : World} (h : w.Replaces n s w') (ended : Bool) (id : Nat)
    (stream : Stream) : w.Replaces n s (w'.releaseControl ended id stream) := by
  unfold World.releaseControl
  split
  · exact ⟨h.past, h.phase, h.shutdown, h.waiting, h.speed, h.reports, h.summary⟩
  · exact h

theorem Replaces.releaseImage {w' : World} (h : w.Replaces n s w') (t : Task Service) :
    w.Replaces n s (w'.releaseImage t) := by
  unfold World.releaseImage
  split
  · split
    · exact ⟨h.past, h.phase, h.shutdown, h.waiting, h.speed, h.reports, h.summary⟩
    · exact h
  · exact h

theorem drive_releaseControl (w : World) (ended : Bool) (id : Nat) (stream : Stream) :
    (w.releaseControl ended id stream).drive = w.drive := by
  unfold releaseControl
  split <;> rfl

theorem drive_releaseImage (w : World) (t : Task Service) : (w.releaseImage t).drive = w.drive := by
  unfold releaseImage
  split
  · split <;> rfl
  · rfl

theorem replaces_self (h : w.session? n = some s) : w.Replaces n s w :=
  ⟨by rw [putSession_self h], by rw [putSession_self h], rfl, rfl, rfl, rfl, rfl⟩

theorem taskMove_command (h : w.session? n = some s) (fate : TaskFate) :
    ∃ s', TaskMove w s .command fate s' (w.commandFate n s fate).drive ∧
      w.Replaces n s' (w.commandFate n s fate) := by
  unfold commandFate
  split
  · rename_i run aborted htask
    have hlive : s.command.isLive = true := by rw [htask]; rfl
    simp only [drive_releaseControl, drive_putSession]
    cases fate with
    | run =>
      refine ⟨_, .command htask, Replaces.releaseControl ?_ _ _ _⟩
      exact replaces_putSession w n _ rfl rfl rfl rfl rfl rfl rfl
    | vanish =>
      refine ⟨_, .commandVanishes hlive, Replaces.releaseControl ?_ _ _ _⟩
      exact replaces_putSession w n _ rfl rfl rfl rfl rfl rfl rfl
    | crash =>
      refine ⟨_, .commandCrashes hlive, Replaces.releaseControl ?_ _ _ _⟩
      exact replaces_putSession w n _ rfl rfl rfl rfl rfl rfl rfl
  · rename_i hnone
    have hover : s.command.isLive = false := by
      cases hc : s.command with
      | running run aborted => exact absurd hc (hnone run aborted)
      | _ => rfl
    exact ⟨s, .none hover, replaces_self h⟩

theorem taskMove_image (h : w.session? n = some s) (fate : TaskFate) :
    ∃ s', TaskMove w s .image fate s' (w.imageFate n s fate).drive ∧
      w.Replaces n s' (w.imageFate n s fate) := by
  unfold imageFate
  split
  · rename_i svc aborted htask
    have hlive : s.image.isLive = true := by rw [htask]; rfl
    cases fate with
    | run =>
      simp only [drive_releaseImage, drive_putSession]
      refine ⟨_, .image htask, Replaces.releaseImage ?_ _⟩
      exact replaces_putSession w n _ rfl rfl rfl rfl rfl rfl rfl
    | vanish =>
      simp only [drive_releaseImage, drive_putSession]
      refine ⟨_, .imageVanishes hlive, Replaces.releaseImage ?_ _⟩
      exact replaces_putSession w n _ rfl rfl rfl rfl rfl rfl rfl
    | crash =>
      simp only [drive_releaseImage, drive_putSession]
      refine ⟨_, .imageCrashes hlive, Replaces.releaseImage ?_ _⟩
      exact replaces_putSession w n _ rfl rfl rfl rfl rfl rfl rfl
  · rename_i hnone
    have hover : s.image.isLive = false := by
      cases hc : s.image with
      | running svc aborted => exact absurd hc (hnone svc aborted)
      | _ => rfl
    exact ⟨s, .none hover, replaces_self h⟩

theorem taskMove_rejection (h : w.session? n = some s) (i : Nat) (fate : TaskFate) :
    ∃ s', TaskMove w s (.rejection i) fate s' (w.rejectionFate n s i fate).drive ∧
      w.Replaces n s' (w.rejectionFate n s i fate) := by
  unfold rejectionFate
  split
  · rename_i r aborted htask
    simp only [drive_releaseControl, drive_putSession]
    exact ⟨_, .rejection htask rfl,
      (replaces_putSession w n _ rfl rfl rfl rfl rfl rfl rfl).releaseControl _ _ _⟩
  · rename_i hnone
    have hover : s.runs (.rejection i) = false := by
      rw [LiveSession.runs]
      rcases hr : s.rejections[i]? with _ | t
      · rfl
      · cases t with
        | running r aborted => exact absurd hr (hnone r aborted)
        | _ => rfl
    exact ⟨s, .none hover, replaces_self h⟩

end World

/-! ## Events -/

/-- What an event does to a world. -/
inductive Move (w : World) : Event → World → Prop where
  | controlArrives (c : Connection) :
    Move w (.controlArrives c) { w with control := w.control.arrive c }
  | imageArrives (c : Connection) :
    Move w (.imageArrives c) { w with image := w.image.arrive c }
  | shutdown : Move w .shutdown { w with shutdown := true }
  | coordinates {w' : World} (h : Coordination w w') : Move w .coordinator w'
  | noGrace : Move w .graceExpires w
  | givesUp {s : LiveSession} (hphase : w.phase = .draining s) (hlive : s.image.isLive = true) :
    Move w .graceExpires (w.conclude { s with image := s.image.abort } {})
  | noTask {n : Nat} {name : TaskName} {fate : TaskFate} (hnone : w.session? n = none) :
    Move w (.task n name fate) w
  | task {n : Nat} {name : TaskName} {fate : TaskFate} {s s' : LiveSession} {w' : World}
      (hs : w.session? n = some s) (hmove : TaskMove w s name fate s' w'.drive)
      (hw : w.Replaces n s' w') :
    Move w (.task n name fate) w'

theorem move_step (w : World) (e : Event) : Move w e (w.step e) := by
  cases e with
  | controlArrives c => exact .controlArrives c
  | imageArrives c => exact .imageArrives c
  | shutdown => exact .shutdown
  | coordinator => exact .coordinates (coordination_coordinate w)
  | graceExpires =>
    rw [World.step, World.giveUpImage]
    split
    · rename_i s hphase
      split
      · exact .givesUp hphase ‹_›
      · exact .noGrace
    · exact .noGrace
  | task n name fate =>
    rcases hs : w.session? n with _ | s
    · simp only [World.step, hs]
      exact .noTask hs
    · simp only [World.step, hs]
      cases name with
      | command =>
        obtain ⟨s', hmove, hw⟩ := World.taskMove_command hs fate
        exact .task hs hmove hw
      | image =>
        obtain ⟨s', hmove, hw⟩ := World.taskMove_image hs fate
        exact .task hs hmove hw
      | rejection i =>
        obtain ⟨s', hmove, hw⟩ := World.taskMove_rejection hs i fate
        exact .task hs hmove hw

end Teleop
