import Teleop.Picture.Service
import Teleop.Proofs.Session.Order

/-!
# Who writes the flag of a session

A dispatch sets the flag as the table says, and the end of a command channel leaves it down. The
image channel only looks at it, as long as its camera keeps to the files.
-/

namespace Teleop

/-! ## The command channel -/

theorem table_connected (connected : Bool) (c : Option Command) :
    (table connected c).connected = true ↔ (table connected c).response = .connOk ∨
      connected = true ∧ ¬ ((table connected c).response = .connErr ∨
        (table connected c).response = .disconnOk ∨
          (table connected c).response = .cmdErr ∧ connected = false) := by
  unfold table
  split <;> simp

theorem Engine.connected_follow (e : Engine) (line : Bytes) :
    (e.follow line).session.connected = true ↔ (e.dispatched line).response = .connOk ∨
      e.session.connected = true ∧ ¬ (e.dispatched line).Closing := by
  rw [Dispatch.Closing, e.response_dispatched]
  exact table_connected _ _

namespace CommandRun

/-- The session is over for this run. -/
def isLeaving (r : CommandRun) : Bool :=
  match r.phase with
  | .reading => false
  | .answering reply => reply.close
  | .closing _ | .finished _ => true

/-- A run that is leaving has put the flag down. -/
def Tidy (r : CommandRun) (s : SessionState) : Prop := r.isLeaving = true → s.connected = false

variable {r : CommandRun} {e : Engine}

theorem Tidy.connected_of_ending {s : SessionState} (h : r.Tidy s) (hending : r.ending? ≠ none) :
    s.connected = false := by
  apply h
  unfold ending? at hending
  unfold isLeaving
  split at hending
  · rename_i hphase
    rw [hphase]
  · contradiction

theorem tidy_lose (r : CommandRun) (error : ChannelError) (e : Engine) :
    (r.lose error e).1.Tidy (r.lose error e).2.session := by
  intro
  rw [engine_lose]
  rfl

theorem tidy_step (h : r.Tidy e.session) : (r.step e).1.Tidy (r.step e).2.session := by
  unfold Tidy isLeaving at h
  cases hphase : r.phase with
  | reading =>
    rcases hread : r.channel.readMessage messageCapacity with ⟨error | m, c⟩
    · rw [step_reading_error hphase hread]
      exact tidy_lose _ _ _
    · obtain ⟨reply, -, hclose, hstep⟩ := step_reading_ok hphase hread e
      rw [hstep]
      intro hleaving
      exact connected_of_closes (hclose.symm.trans hleaving)
  | answering reply =>
    simp only [hphase] at h
    rcases hanswer : r.channel.respond reply.response with ⟨error | n, c⟩
    · rw [step_unsent hphase hanswer]
      exact tidy_lose _ _ _
    · rw [step_sent hphase hanswer]
      intro hleaving
      cases hclose : reply.close with
      | true => exact h hclose
      | false => simp [isLeaving, hclose] at hleaving
  | closing response =>
    simp only [hphase] at h
    rw [step_closing hphase]
    intro
    exact h trivial
  | finished ending =>
    simp only [hphase] at h
    rw [step_finished hphase]
    intro
    exact h trivial

theorem connected_step (h : r.Tidy e.session) :
    (r.step e).2.session.connected = true ↔
      match r.dispatch? e with
      | some d => d.response = .connOk ∨ e.session.connected = true ∧ ¬ d.Closing
      | none => e.session.connected = true ∧ (r.step e).1.ending? = none := by
  have htidy := tidy_step h
  cases hphase : r.phase with
  | reading =>
    rcases hread : r.channel.readMessage messageCapacity with ⟨error | m, c⟩
    · rw [dispatch?_reading_error hphase hread, step_reading_error hphase hread, engine_lose,
        ending?_lose]
      simp [Engine.setConnected, SessionState.setConnected]
    · obtain ⟨reply, -, -, hstep⟩ := step_reading_ok hphase hread e
      rw [dispatch?_reading_ok hphase hread, hstep]
      exact e.connected_follow m.bytes
  | answering reply =>
    rw [dispatch?_of_ne (by simp [hphase])]
    rcases hanswer : r.channel.respond reply.response with ⟨error | n, c⟩
    · rw [step_unsent hphase hanswer, engine_lose, ending?_lose]
      simp [Engine.setConnected, SessionState.setConnected]
    · rw [step_sent hphase hanswer]
      cases reply.close <;> simp [ending?]
  | closing response =>
    rw [dispatch?_of_ne (by simp [hphase])]
    rw [step_closing hphase] at htidy ⊢
    simpa [ending?] using htidy rfl
  | finished ending =>
    rw [dispatch?_of_ne (by simp [hphase])]
    rw [step_finished hphase] at htidy ⊢
    simpa [ending?, hphase] using htidy (by simp [isLeaving, hphase])

end CommandRun

/-! ## The image channel -/

/-- A camera that has nothing to do with the session. -/
def Camera.LeavesFlags (c : Camera) : Prop :=
  ∀ dir name scene, (c.capture dir name scene).2.session = scene.session

theorem Camera.leavesFlags_onFiles
    (capture : Path → String → FileTree → Except CaptureError Path × FileTree) (id : String)
    (n : Nat) : LeavesFlags { id := id, capture := onFiles capture, captures := n } := by
  intro dir name scene
  rfl

namespace Request

theorem capture_step (r : Request) (s : SessionState) (studio : Studio) :
    (r.step s studio).2.2.camera.capture = studio.camera.capture := by
  unfold step
  split
  · split <;> rfl
  · rfl
  · split <;> rfl
  · dsimp only
    split <;> rfl
  · split <;> rfl
  · split <;> rfl
  · split <;> rfl
  · rfl

theorem session_step {studio : Studio} (h : studio.camera.LeavesFlags) (r : Request)
    (s : SessionState) : (r.step s studio).2.1 = s := by
  unfold step
  split
  · split <;> rfl
  · rfl
  · split <;> rfl
  · have hsame := h studio.target.dir studio.target.name { files := studio.files, session := s }
    simp only [Camera.take]
    split <;> exact hsame
  · split <;> rfl
  · split <;> rfl
  · split <;> rfl
  · rfl

end Request

end Teleop
