import Mathlib.Data.List.Induction
import Teleop.Proofs.Coordinator.History
import Teleop.Proofs.Picture.Serving

/-!
# What the image channels did

The image task of a session counts what it sends. Its report is what the coordinator has of it, if
the task returns before its time is up.
-/

namespace Teleop

/-! ## The image task of a session -/

/-- Something other than a run of it happens to a task, or nothing. -/
inductive Task.Rests {α : Type} (t : Task α) : Task α → Prop where
  | same : Rests t t
  | abort : Rests t t.abort
  | vanish : Rests t t.vanish
  | crash : Rests t t.crash

namespace Task.Rests

variable {α : Type} {t t' : Task α}

theorem state_eq (h : t.Rests t') : t'.state = t.state := by
  rcases h with _ | _ | _ | _
  · rfl
  · cases t <;> rfl
  · rcases t with ⟨a, _ | _⟩ | a | a <;> rfl
  · cases t <;> rfl

theorem eq_of_over (h : t.Rests t') (hover : t.isLive = false) : t' = t := by
  rcases t with ⟨a, aborted⟩ | a | a
  · cases hover
  · cases h <;> rfl
  · cases h <;> rfl

end Task.Rests

/-- What an event does to the image side of a session, by the service that it runs and the flags
that the service finds. -/
inductive ImageMove (w : World) (s : LiveSession) :
    Option (Service × SessionState) → LiveSession → Prop where
  | runs {svc : Service} {aborted : Bool} (htask : s.image = .running svc aborted) :
    ImageMove w s (some (svc, s.state))
      { s with
        state := (svc.step w.image s.state w.studio).2.2.1
        image := .arrive aborted (svc.step w.image s.state w.studio).1.isFinished
          (svc.step w.image s.state w.studio).1 }
  | rests {s' : LiveSession} (himage : s.image.Rests s'.image) : ImageMove w s none s'

namespace World

/-- The service of session `n` that an event runs, and the flags that it finds. -/
def running? (n : Nat) (w : World) (e : Event) : Option (Service × SessionState) :=
  match e with
  | .task m .image .run =>
    if m = n then
      (w.session? n).bind fun s =>
        match s.image with
        | .running svc _ => some (svc, s.state)
        | _ => none
    else none
  | _ => none

variable {w : World} {n : Nat} {e : Event} {s s' : LiveSession}

theorem running?_of_none (h : w.session? n = none) (e : Event) : w.running? n e = none := by
  unfold running?
  split
  · rw [h]
    split <;> rfl
  · rfl

theorem running?_of_over (hs : w.session? n = some s) (hover : s.image.isLive = false)
    (e : Event) : w.running? n e = none := by
  unfold running?
  split
  · rw [hs, Option.bind_some]
    split
    · split
      · rename_i htask
        rw [htask] at hover
        cases hover
      · rfl
    · rfl
  · rfl

theorem running?_self {svc : Service} {aborted : Bool} (hs : w.session? n = some s)
    (htask : s.image = .running svc aborted) :
    w.running? n (.task n .image .run) = some (svc, s.state) := by
  simp only [running?, hs, Option.bind_some, htask, if_true]

theorem running?_of_ne (h : e ≠ .task n .image .run) : w.running? n e = none := by
  unfold running?
  split
  · split
    · rename_i hm
      exact absurd (by rw [hm]) h
    · rfl
  · rfl

theorem running?_eq_some {svc : Service} {state : SessionState}
    (h : w.running? n e = some (svc, state)) :
    ∃ s, w.session? n = some s ∧ s.state = state ∧ s.image.state = svc := by
  unfold running? at h
  split at h
  · split at h
    · obtain ⟨s, hs, h⟩ := Option.bind_eq_some_iff.mp h
      split at h
      · rename_i htask
        obtain ⟨rfl, rfl⟩ := Prod.mk.inj (Option.some.inj h)
        exact ⟨s, hs, rfl, by rw [htask]; rfl⟩
      · cases h
    · cases h
  · cases h

theorem session?_task (hs : w.session? n = some s) (name : TaskName) (fate : TaskFate) :
    ∃ s' d, (w.step (.task n name fate)).session? n = some s' ∧ TaskMove w s name fate s' d := by
  have hmove := move_step w (.task n name fate)
  generalize w.step (.task n name fate) = w' at hmove ⊢
  cases hmove with
  | noTask hnone =>
    rw [hs] at hnone
    cases hnone
  | task hs₀ hmove hw =>
    rw [hs] at hs₀
    obtain rfl := Option.some.inj hs₀
    refine ⟨_, _, ?_, hmove⟩
    rw [session?_eq_getElem?, hw.sessions_eq hs, List.getElem?_set_self (lt_length_sessions hs)]

end World

theorem TaskMove.rests {w : World} {s s' : LiveSession} {name : TaskName} {fate : TaskFate}
    {d : Drive} (h : TaskMove w s name fate s' d) (hname : ¬ (name = .image ∧ fate = .run)) :
    s.image.Rests s'.image := by
  cases h with
  | image => exact absurd ⟨rfl, rfl⟩ hname
  | imageVanishes => exact .vanish
  | imageCrashes => exact .crash
  | _ => exact .same

theorem Steering.rests {w : World} {e : Event} {s s' : LiveSession} (h : Steering w s e s') :
    s.image.Rests s'.image := by
  cases h with
  | givesUp => exact .abort
  | _ => exact .same

namespace World

variable {w : World} {n : Nat} {e : Event} {s s' : LiveSession}

theorem imageMove_step (hs : w.session? n = some s) (hs' : (w.step e).session? n = some s') :
    ImageMove w s (w.running? n e) s' := by
  by_cases he : e = .task n .image .run
  · subst he
    obtain ⟨s₁, d, hs₁, hmove⟩ := session?_task hs .image .run
    rw [hs₁] at hs'
    obtain rfl := Option.some.inj hs'
    cases hmove with
    | none hover =>
      rw [running?_of_over hs hover]
      exact .rests .same
    | image htask =>
      rw [running?_self hs htask]
      exact .runs htask
  · rw [running?_of_ne he]
    rcases session_moves hs hs' with rfl | hsteer | ⟨name, fate, d, rfl, hmove⟩
    · exact .rests .same
    · exact .rests hsteer.rests
    · refine .rests (hmove.rests ?_)
      rintro ⟨rfl, rfl⟩
      exact he rfl

theorem session?_of_step (h : (w.step e).session? n = none) : w.session? n = none := by
  rw [session?_eq_getElem?, List.getElem?_eq_none_iff] at h ⊢
  have hgrows := length_sessions_run w [e]
  change (w.step e).sessions.length = _ at hgrows
  omega

theorem session?_of_run {events : List Event} (h : (w.run events).session? n = none) :
    w.session? n = none := by
  induction events generalizing w with
  | nil => exact h
  | cons e events ih => exact session?_of_step (ih h)

theorem session?_run_append {events : List Event} (hs : (w.run events).session? n = some s)
    (more : List Event) : ∃ s', (w.run (events ++ more)).session? n = some s' := by
  rw [← Option.isSome_iff_exists, Option.isSome_iff_ne_none]
  intro hnone
  rw [run_append] at hnone
  rw [session?_of_run hnone] at hs
  cases hs

theorem trace_of_none {α : Type} {look : World → Event → Option α}
    (hlook : ∀ w, w.session? n = none → ∀ e, look w e = none) {events : List Event}
    (h : (w.run events).session? n = none) : w.trace look events = [] := by
  induction events generalizing w with
  | nil => rfl
  | cons e events ih =>
    rw [trace, hlook w (session?_of_run h) e, ih h]
    rfl

/-- What holds of the image side of every session as it begins, and is kept by its moves, holds of
every session behind all events. -/
theorem image_run {α : Type} (look : Service × SessionState → Studio → Option α)
    (P : LiveSession → List α → Prop) (hstart : ∀ c, P (.start c) [])
    (hmove : ∀ {w : World} {s s' : LiveSession} {seen : List α}
      {running? : Option (Service × SessionState)}, P s seen → ImageMove w s running? s' →
        P s' (seen ++ (running?.bind (look · w.studio)).toList))
    (hnone : w.sessions = []) {events : List Event} (hs : (w.run events).session? n = some s) :
    P s (w.trace (fun w e => (w.running? n e).bind (look · w.studio)) events) := by
  induction events using List.reverseRecOn generalizing s with
  | nil =>
    change w.session? n = some s at hs
    rw [session?_eq_getElem?, hnone] at hs
    cases hs
  | append_singleton events e ih =>
    rw [trace_concat]
    rw [run_concat] at hs
    cases hs₀ : (w.run events).session? n with
    | none =>
      -- The session begins in `e`.
      have hlook : ∀ w : World, w.session? n = none → ∀ e,
          ((w.running? n e).bind (look · w.studio)) = none := by
        intro w h e
        rw [running?_of_none h, Option.bind_none]
      obtain ⟨c, -, -, rfl⟩ := opened_of_new hs₀ hs
      rw [trace_of_none hlook hs₀, hlook _ hs₀]
      exact hstart c
    | some s₀ => exact hmove (ih hs₀) (imageMove_step hs₀ hs)

/-- A world with a drive without motors and a camera without a lens. -/
def bench : World :=
  opening .standard (.simulated "drive" false)
    { camera := .simulated "camera" 2, target := { dir := "pictures", name := "view" } }

/-! ## Requests -/

/-- What an event shows of the picture requests of session `n`. -/
def requestMark? (n : Nat) (w : World) (e : Event) : Option Mark :=
  (w.running? n e).bind fun (svc, state) => svc.mark? state

def requestMarks (n : Nat) (w : World) (events : List Event) : List Mark :=
  w.trace (requestMark? n) events

/-! ## Transfers -/

/-- The transfer that session `n` completes in an event. -/
def sent? (n : Nat) (w : World) (e : Event) : Option Nat :=
  (w.running? n e).bind fun (svc, state) => svc.sent? state w.studio

/-- The sizes of the pictures that session `n` sent. -/
def transfers (n : Nat) (w : World) (events : List Event) : List Nat := w.trace (sent? n) events

end World

theorem Task.state_arrive {α : Type} (aborted ended : Bool) (a : α) :
    (Task.arrive aborted ended a).state = a := by
  unfold arrive
  split
  · rfl
  · split <;> rfl

namespace World

variable {w : World} {n : Nat} {e : Event} {s s' : LiveSession}

theorem onCourse_run (hnone : w.sessions = []) {events : List Event}
    (hs : (w.run events).session? n = some s) :
    s.image.state.OnCourse (w.requestMarks n events) := by
  refine image_run (fun (svc, state) _ => svc.mark? state)
    (fun s history => s.image.state.OnCourse history) ?_ ?_ hnone hs
  · intro c
    exact Service.onCourse_start
  · intro w s s' history running? h hmove
    cases hmove with
    | runs htask =>
      rw [Task.state_arrive]
      rw [htask] at h
      exact Service.onCourse_step h
    | rests himage =>
      rw [himage.state_eq]
      simpa using h

theorem counts_run (hnone : w.sessions = []) {events : List Event}
    (hs : (w.run events).session? n = some s) :
    s.image.state.report.Counts (w.transfers n events) := by
  refine image_run (fun (svc, state) studio => svc.sent? state studio)
    (fun s sizes => s.image.state.report.Counts sizes) ?_ ?_ hnone hs
  · intro c
    exact ⟨rfl, rfl⟩
  · intro w s s' sizes running? h hmove
    cases hmove with
    | runs htask =>
      rw [Task.state_arrive]
      rw [htask] at h
      exact Service.counts_step _ _ _ _ h
    | rests himage =>
      rw [himage.state_eq]
      simpa using h

end World

end Teleop
