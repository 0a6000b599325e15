import Teleop.Camera.Basic
import Teleop.Picture.Transfer

/-!
# One picture request

The request is read, checked against the session, answered, and if it was accepted a picture is
captured and sent. A request moves in steps, one for each thing that it has to wait for. The check
is a step of its own: the session may change between reading and checking, and again behind it.
-/

namespace Teleop

/-- Where captures go. -/
structure CaptureTarget where
  dir : Path
  name : String
deriving DecidableEq, Repr

/-- What a request works with. -/
structure Studio where
  camera : Camera
  target : CaptureTarget
  files : FileTree := {}

/-- A file as something to read from. A directory opens, and fails when it is read. -/
def FileTree.openToRead (t : FileTree) (p : Path) (user : User := .root) :
    Except SystemError Stream :=
  match t.lookup p user with
  | .error e => .error e
  | .ok (.file content access) =>
    if access.allows user .read then .ok { arrivals := [.chunk content] } else .error .denied
  | .ok (.directory access) =>
    if access.allows user .read then
      .ok { arrivals := [.failure ⟨.other, SystemError.isDirectory.message⟩] }
    else .error .denied

inductive RequestPhase where
  | reading
  | checking (request : Message)
  /-- The answer is not yet sent. -/
  | answering (accepted : Bool)
  | capturing
  | opening (path : Path)
  | sending (source : Stream) (progress : Progress)
  | flushing (progress : Progress)
  | served (result : Except PictureError Transfer)

structure Request where
  channel : Channel
  phase : RequestPhase := .reading

namespace Request

def result? (r : Request) : Option (Except PictureError Transfer) :=
  match r.phase with
  | .served result => some result
  | _ => none

def fail (r : Request) (e : PictureError) : Request := { r with phase := .served (.error e) }

/-- The gate: only `PICTURE`, and only in a connected session. -/
def check (request : Message) (s : SessionState) (c : Channel) : Request :=
  if Command.parse? request.bytes ≠ some .picture then
    { channel := c.warn [.invalidPictureRequest request.bytes], phase := .answering false }
  else { channel := c, phase := .answering s.connected }

/-- The request up to its next wait. -/
def step (r : Request) (s : SessionState) (studio : Studio) : Request × SessionState × Studio :=
  match r.phase with
  | .reading =>
    match r.channel.readMessage messageCapacity with
    | (.error e, c) => ({ r with channel := c }.fail (.channel e), s, studio)
    | (.ok m, c) => ({ channel := c, phase := .checking m }, s, studio)
  | .checking m => (check m s r.channel, s, studio)
  | .answering accepted =>
    match r.channel.respond (if accepted then .pictureOk else .pictureErr) with
    | (.error e, c) => ({ r with channel := c }.fail (.channel e), s, studio)
    | (.ok _, c) =>
      ({ channel := c, phase := if accepted then .capturing else .served (.ok .rejected) },
        s, studio)
  | .capturing =>
    let (result, scene, camera) :=
      studio.camera.take studio.target.dir studio.target.name { files := studio.files, session := s }
    let studio := { studio with camera := camera, files := scene.files }
    match result with
    | .error e => (r.fail (.capture e), scene.session, studio)
    | .ok path => ({ r with phase := .opening path }, scene.session, studio)
  | .opening path =>
    match studio.files.openToRead path with
    | .error e => (r.fail (.cannotOpen path e), s, studio)
    | .ok source => ({ r with phase := .sending source {} }, s, studio)
  | .sending source progress =>
    match sendNextFrame source progress r.channel with
    | .failed e _ c => ({ r with channel := c }.fail e, s, studio)
    | .sent source progress c => ({ channel := c, phase := .sending source progress }, s, studio)
    | .exhausted _ c => ({ channel := c, phase := .flushing progress }, s, studio)
  | .flushing progress =>
    match r.channel.flush with
    | (.error e, c) => ({ r with channel := c }.fail (.channel e), s, studio)
    | (.ok _, c) =>
      ({ channel := c, phase := .served (.ok (.sent progress.bytes progress.frames)) }, s, studio)
  | .served _ => (r, s, studio)

/-! ## Running to the end -/

end Request

/-- The stages of a request, counted from the last. -/
def RequestPhase.stage : RequestPhase → Nat
  | reading => 7
  | checking _ => 6
  | answering _ => 5
  | capturing => 4
  | opening _ => 3
  | sending .. => 2
  | flushing _ => 1
  | served _ => 0

/-- A bound on the frames that are left. -/
def RequestPhase.frames : RequestPhase → Nat
  | sending source _ => source.remaining
  | _ => 0

namespace Request

theorem advances_step {r : Request} {s : SessionState} {studio : Studio} (h : r.result? = none) :
    Prod.Lex (· < ·) (· < ·) ((r.step s studio).1.phase.stage, (r.step s studio).1.phase.frames)
      (r.phase.stage, r.phase.frames) := by
  unfold step
  split <;> rename_i hp
  · split <;> exact .left _ _ (by simp [hp, fail, RequestPhase.stage])
  · unfold check
    split <;> exact .left _ _ (by simp [hp, RequestPhase.stage])
  · split
    · exact .left _ _ (by simp [hp, fail, RequestPhase.stage])
    · split <;> exact .left _ _ (by simp [hp, RequestPhase.stage])
  · dsimp only
    split <;> exact .left _ _ (by simp [hp, fail, RequestPhase.stage])
  · split <;> exact .left _ _ (by simp [hp, fail, RequestPhase.stage])
  · rename_i source progress
    split
    · exact .left _ _ (by simp [hp, fail, RequestPhase.stage])
    · rename_i source' progress' c hsent
      simp only [hp, RequestPhase.stage, RequestPhase.frames]
      exact .right _ (remaining_of_sendNextFrame hsent)
    · exact .left _ _ (by simp [hp, RequestPhase.stage])
  · split <;> exact .left _ _ (by simp [hp, fail, RequestPhase.stage])
  · simp [result?, hp] at h

/-- Serves the request to its end. -/
def finish (r : Request) (s : SessionState) (studio : Studio) :
    Except PictureError Transfer × Request × SessionState × Studio :=
  match _ : r.result? with
  | some result => (result, r, s, studio)
  | none =>
    let next := r.step s studio
    finish next.1 next.2.1 next.2.2
termination_by (r.phase.stage, r.phase.frames)
decreasing_by exact advances_step ‹_›

end Request

end Teleop
