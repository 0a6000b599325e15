import Teleop.Proofs.Coordinator.Closing
import Teleop.Proofs.Coordinator.Reports

/-!
# What is left of a session

The coordinator waits for the command task of a session and for everyone whom the session turns
away. It does not wait for an image task that it has given up: such a task was only asked to go, and
is gone with the next thing that happens to it, whenever that is.
-/

namespace Teleop

/-- What is left of the sessions that are over. -/
structure TornDown (w : World) (events : List Event) : Prop where
  control : ∀ s ∈ (w.run events).past, s.Deserted
  /-- An image task that is left was given up and asked to go. -/
  image : ∀ (n : Nat) (s : LiveSession), n < (w.run events).past.length →
    (w.run events).session? n = some s → s.image.isLive = true →
      n ∈ w.trace World.givenUp? events ∧ s.image.isAborted = true
  /-- It is gone with whatever happens to it next. -/
  gone : ∀ (n : Nat) (s s' : LiveSession) (fate : TaskFate), n < (w.run events).past.length →
    (w.run events).session? n = some s →
      ((w.run events).step (.task n .image fate)).session? n = some s' → s'.image.isLive = false

namespace World

variable {w : World} {events : List Event} {n : Nat} {s s' : LiveSession}

theorem givenUp_of_live (h : Audited w events) (hn : n < (w.run events).past.length)
    (hs : (w.run events).session? n = some s) (hlive : s.image.isLive = true) :
    n ∈ w.trace givenUp? events ∧ s.image.isAborted = true := by
  have hlt : n < (w.run events).reports.length := h.length_reports ▸ hn
  cases h.reported n s _ hs (List.getElem?_eq_getElem hlt) with
  | returned htask => simp [htask, Task.isLive] at hlive
  | failed htask => simp [htask, Task.isLive] at hlive
  | givenUp hgiven hgone => exact ⟨hgiven, hgone hlive⟩

theorem isLive_of_aborted {fate : TaskFate} (hs : w.session? n = some s)
    (haborted : s.image.isLive = true → s.image.isAborted = true)
    (hs' : (w.step (.task n .image fate)).session? n = some s') : s'.image.isLive = false := by
  obtain ⟨s₁, d, hs₁, hmove⟩ := session?_task hs .image fate
  rw [hs₁] at hs'
  obtain rfl := Option.some.inj hs'
  cases hmove with
  | none hover => exact hover
  | @image svc aborted htask =>
    obtain rfl : aborted = true := by
      rw [htask] at haborted
      exact haborted rfl
    exact Task.isLive_arrive_aborted _ _
  | imageVanishes hlive =>
    have := haborted hlive
    rcases htask : s.image with ⟨svc, _ | _⟩ | svc | svc <;>
      simp_all [Task.vanish, Task.isAborted, Task.isLive]
  | imageCrashes =>
    cases s.image <;> rfl

theorem tornDown_run (speed : Speed) (drive : Drive) (studio : Studio) (events : List Event) :
    TornDown (opening speed drive studio) events := by
  have horder := inOrder_run (inOrder_opening speed drive studio) events
  have haudited : Audited (opening speed drive studio) events := audited_run rfl rfl rfl events
  refine ⟨horder.past, fun n s hn hs => givenUp_of_live haudited hn hs, ?_⟩
  intro n s s' fate hn hs hs'
  exact isLive_of_aborted hs (fun hlive => (givenUp_of_live haudited hn hs hlive).2) hs'

/-- The next operator comes when the image channel of the session before was given up. -/
def succession : List Event :=
  leaving ++ [.graceExpires, .controlArrives { id := 2 }, .coordinator, .coordinator]

theorem image_left_behind :
    (bench.run succession).past.length = 1 ∧
      ((bench.run succession).session? 0).any (·.image.isLive) = true ∧
        ((bench.run succession).session? 1).any (·.command.isLive) = true := by
  decide +kernel

end World

end Teleop
