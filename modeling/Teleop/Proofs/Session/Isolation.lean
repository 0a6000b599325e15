import Teleop.Proofs.Session.Interplay

/-!
# The two channels of a session apart

Picture requests leave no trace on the command side: it goes as it would go without them. The other
way round, all that a picture request learns of the command side is the flag that its gate finds.
-/

namespace Teleop

/-! ## Cameras -/

/-- A camera that neither looks at the session nor changes it. -/
def Camera.KeepsToFiles (c : Camera) : Prop :=
  ∃ capture : Path → String → FileTree → Except RobotError Path × FileTree,
    ∀ dir name scene, c.capture dir name scene =
      ((capture dir name scene.files).1, { scene with files := (capture dir name scene.files).2 })

theorem Camera.keepsToFiles_onFiles
    (capture : Path → String → FileTree → Except CaptureError Path × FileTree) (id : String)
    (n : Nat) : KeepsToFiles { id := id, capture := onFiles capture, captures := n } :=
  ⟨fun dir name files =>
    ((capture dir name files).1.mapError CaptureError.toRobotError, (capture dir name files).2),
    fun _ _ _ => rfl⟩

theorem Camera.KeepsToFiles.leavesFlags {c : Camera} (h : c.KeepsToFiles) : c.LeavesFlags := by
  obtain ⟨capture, hcapture⟩ := h
  intro dir name scene
  rw [hcapture]

namespace Request

/-- What the gate finds, if the next step looks at the flag. -/
def gate? (r : Request) (s : SessionState) : Option Bool :=
  match r.phase with
  | .checking m => if Command.parse? m.bytes = some .picture then some s.connected else none
  | _ => none

theorem isSome_gate? (r : Request) (s s' : SessionState) :
    (r.gate? s).isSome = (r.gate? s').isSome := by
  unfold gate?
  split
  · split <;> rfl
  · rfl

theorem step_congr {studio : Studio} (hcamera : studio.camera.KeepsToFiles) {r : Request}
    {s s' : SessionState} (h : r.gate? s = r.gate? s') :
    (r.step s studio).1 = (r.step s' studio).1 ∧
      (r.step s studio).2.2 = (r.step s' studio).2.2 := by
  unfold step
  unfold gate? at h
  split
  · split <;> exact ⟨rfl, rfl⟩
  · rename_i m hphase
    rw [hphase] at h
    refine ⟨?_, rfl⟩
    unfold check
    split
    · rfl
    · rename_i hpicture
      rw [not_not] at hpicture
      simp only [hpicture, if_true, Option.some.injEq] at h
      rw [h]
  · split <;> exact ⟨rfl, rfl⟩
  · obtain ⟨capture, hcapture⟩ := hcamera
    simp only [Camera.take, hcapture]
    split <;> exact ⟨rfl, rfl⟩
  · split <;> exact ⟨rfl, rfl⟩
  · split <;> exact ⟨rfl, rfl⟩
  · split <;> exact ⟨rfl, rfl⟩
  · exact ⟨rfl, rfl⟩

end Request

/-! ## Actions -/

/-- A turn of a session, or a message that is dispatched without a channel. -/
inductive Interplay.Action where
  | turn (t : Turn)
  | dispatch (word : Bytes)
deriving DecidableEq, Repr

def Interplay.Action.isImage : Action → Bool
  | .turn (.ask _) | .turn (.image _) => true
  | _ => false

/-- What an action of the command side comes to: the reply to the message that it dispatched, if it
dispatched one, the flags, the calls of the drive and the messages handled so far. -/
structure CommandOutcome where
  reply? : Option Reply
  session : SessionState
  calls : List DriveCall
  handled : Nat
deriving DecidableEq, Repr

namespace Interplay

def act (x : Interplay) : Action → Interplay
  | .turn t => x.turn t
  | .dispatch word => { x with engine := (x.engine.dispatch word).2 }

def play (x : Interplay) (actions : List Action) : Interplay := actions.foldl act x

def reply? (x : Interplay) : Action → Option Reply
  | .dispatch word => some (x.engine.dispatch word).1
  | .turn .command =>
    match x.command.phase, (x.command.step x.engine).1.phase with
    | .reading, .answering reply => some reply
    | _, _ => none
  | .turn _ => none

def outcome (x : Interplay) (a : Action) : CommandOutcome where
  reply? := x.reply? a
  session := (x.act a).engine.session
  calls := (x.act a).engine.drive.calls
  handled := (x.act a).engine.handled

def outcomes (x : Interplay) : List Action → List CommandOutcome
  | [] => []
  | a :: actions => (if a.isImage then [] else [x.outcome a]) ++ (x.act a).outcomes actions

def gate? (x : Interplay) : Action → Option Bool
  | .turn (.image i) => x.requests[i]?.bind fun r => r.gate? x.engine.session
  | _ => none

/-- What the gates find, one after the other. -/
def gates (x : Interplay) : List Action → List Bool
  | [] => []
  | a :: actions => (x.gate? a).toList ++ (x.act a).gates actions

def commandSide (x : Interplay) : Engine × CommandRun := (x.engine, x.command)

def imageSide (x : Interplay) : Studio × List Request := (x.studio, x.requests)

theorem play_append (x : Interplay) (actions actions' : List Action) :
    x.play (actions ++ actions') = (x.play actions).play actions' :=
  List.foldl_append

theorem gates_append (x : Interplay) (actions actions' : List Action) :
    x.gates (actions ++ actions') = x.gates actions ++ (x.play actions).gates actions' := by
  induction actions generalizing x with
  | nil => rfl
  | cons a actions ih =>
    rw [List.cons_append, gates, ih, gates, List.append_assoc]
    rfl

variable {x y : Interplay}

theorem keepsToFiles_act (h : x.studio.camera.KeepsToFiles) (a : Action) :
    (x.act a).studio.camera.KeepsToFiles := by
  rcases a with t | word
  · cases t with
    | image i =>
      rw [act]
      cases hr : x.requests[i]? with
      | none => rwa [turn_image_none hr]
      | some r =>
        rw [turn_image_some hr]
        unfold Camera.KeepsToFiles
        rwa [r.capture_step]
    | _ => exact h
  · exact h

theorem keepsToFiles_play (h : x.studio.camera.KeepsToFiles) (actions : List Action) :
    (x.play actions).studio.camera.KeepsToFiles := by
  induction actions generalizing x with
  | nil => exact h
  | cons a actions ih => exact ih (keepsToFiles_act h a)

/-! ## The command side -/

theorem commandSide_image (h : x.studio.camera.KeepsToFiles) {a : Action} (ha : a.isImage = true) :
    (x.act a).commandSide = x.commandSide := by
  rcases a with t | word
  · cases t with
    | ask s => rfl
    | image i =>
      rw [act]
      cases hr : x.requests[i]? with
      | none => rw [turn_image_none hr]
      | some r =>
        rw [turn_image_some hr, Request.session_step h.leavesFlags]
        rfl
    | _ => cases ha
  · cases ha

theorem commandSide_congr (h : x.commandSide = y.commandSide) {a : Action}
    (ha : a.isImage = false) :
    (x.act a).commandSide = (y.act a).commandSide ∧ x.outcome a = y.outcome a := by
  obtain ⟨hengine, hcommand⟩ := Prod.mk.inj h
  rcases a with t | word
  · cases t with
    | ask s => cases ha
    | image i => cases ha
    | _ => simp [outcome, reply?, commandSide, act, turn, hengine, hcommand]
  · simp [outcome, reply?, commandSide, act, hengine, hcommand]

theorem commandSide_play (h : x.studio.camera.KeepsToFiles) (hside : x.commandSide = y.commandSide)
    (actions : List Action) :
    (x.play actions).commandSide = (y.play (actions.filter fun a => !a.isImage)).commandSide ∧
      x.outcomes actions = y.outcomes (actions.filter fun a => !a.isImage) := by
  induction actions generalizing x y with
  | nil => exact ⟨hside, rfl⟩
  | cons a actions ih =>
    have hcamera := keepsToFiles_act h a
    cases ha : a.isImage with
    | true =>
      -- Only `x` takes this action, and its command side stays.
      obtain ⟨hplay, houtcomes⟩ := ih hcamera ((commandSide_image h ha).trans hside)
      rw [List.filter_cons_of_neg (by simp [ha]), outcomes, if_pos ha, List.nil_append]
      exact ⟨hplay, houtcomes⟩
    | false =>
      obtain ⟨hact, houtcome⟩ := commandSide_congr hside ha
      obtain ⟨hplay, houtcomes⟩ := ih hcamera hact
      rw [List.filter_cons_of_pos (by simp [ha]), outcomes, outcomes, ha, houtcome, houtcomes]
      exact ⟨hplay, rfl⟩

/-! ## The image side -/

theorem imageSide_command {a : Action} (ha : a.isImage = false) :
    (x.act a).imageSide = x.imageSide ∧ x.gate? a = none := by
  rcases a with t | word
  · cases t with
    | ask s => cases ha
    | image i => cases ha
    | _ => exact ⟨rfl, rfl⟩
  · exact ⟨rfl, rfl⟩

theorem imageSide_commands {actions : List Action} (h : ∀ a ∈ actions, ¬ a.isImage = true) :
    (x.play actions).imageSide = x.imageSide ∧ x.gates actions = [] := by
  induction actions generalizing x with
  | nil => exact ⟨rfl, rfl⟩
  | cons a actions ih =>
    obtain ⟨ha, hactions⟩ := List.forall_mem_cons.mp h
    obtain ⟨hside, hgate⟩ := imageSide_command (x := x) (eq_false_of_ne_true ha)
    obtain ⟨hplay, hgates⟩ := ih (x := x.act a) hactions
    exact ⟨hplay.trans hside, by rw [gates, hgate, hgates]; rfl⟩

theorem toList_append_inj {a b : Option Bool} {l l' : List Bool} (hsome : a.isSome = b.isSome)
    (h : a.toList ++ l = b.toList ++ l') : a = b ∧ l = l' := by
  cases a <;> cases b <;> simp_all

theorem isSome_gate? (hside : x.imageSide = y.imageSide) (a : Action) :
    (x.gate? a).isSome = (y.gate? a).isSome := by
  obtain ⟨-, hrequests⟩ := Prod.mk.inj hside
  rcases a with t | word
  · cases t with
    | image i =>
      simp only [gate?, hrequests]
      cases y.requests[i]? with
      | none => rfl
      | some r => exact r.isSome_gate? _ _
    | _ => rfl
  · rfl

theorem imageSide_congr (h : x.studio.camera.KeepsToFiles) (hside : x.imageSide = y.imageSide)
    {a : Action} (ha : a.isImage = true) (hgate : x.gate? a = y.gate? a) :
    (x.act a).imageSide = (y.act a).imageSide := by
  obtain ⟨hstudio, hrequests⟩ := Prod.mk.inj hside
  rcases a with t | word
  · cases t with
    | ask s => simp only [act, turn, imageSide, hstudio, hrequests]
    | image i =>
      simp only [gate?, hrequests] at hgate
      rw [act, act]
      cases hr : y.requests[i]? with
      | none => rwa [turn_image_none hr, turn_image_none (hrequests ▸ hr)]
      | some r =>
        rw [hr] at hgate
        rw [hstudio] at h
        obtain ⟨hrequest, hafter⟩ := Request.step_congr h hgate
        rw [turn_image_some hr, turn_image_some (hrequests ▸ hr)]
        simp only [imageSide, hstudio, hrequests, hrequest, hafter]
    | _ => cases ha
  · cases ha

theorem imageSide_play (h : x.studio.camera.KeepsToFiles) (hside : x.imageSide = y.imageSide)
    {actions actions' : List Action}
    (hactions : actions.filter Action.isImage = actions'.filter Action.isImage)
    (hgates : x.gates actions = y.gates actions') :
    (x.play actions).imageSide = (y.play actions').imageSide := by
  -- Both sessions take the same actions on the image side, so the induction is on these.
  induction himages : actions.filter Action.isImage generalizing x y actions actions' with
  | nil =>
    rw [(imageSide_commands (List.filter_eq_nil_iff.mp himages)).1, hside,
      (imageSide_commands (List.filter_eq_nil_iff.mp (hactions.symm.trans himages))).1]
  | cons a images ih =>
    obtain ⟨before, after, rfl, hbefore, ha, hafter⟩ := List.filter_eq_cons_iff.mp himages
    obtain ⟨before', after', rfl, hbefore', -, hafter'⟩ :=
      List.filter_eq_cons_iff.mp (hactions.symm.trans himages)
    obtain ⟨hx, hgates₁⟩ := imageSide_commands (x := x) hbefore
    obtain ⟨hy, hgates₂⟩ := imageSide_commands (x := y) hbefore'
    have hside' : (x.play before).imageSide = (y.play before').imageSide :=
      hx.trans (hside.trans hy.symm)
    have hcamera := keepsToFiles_play h before
    -- No gate is passed before, so what this action finds is in front of what is found later.
    rw [gates_append, gates_append, hgates₁, hgates₂, List.nil_append, List.nil_append, gates,
      gates] at hgates
    obtain ⟨hgate, hlater⟩ := toList_append_inj (isSome_gate? hside' a) hgates
    rw [play_append, play_append]
    exact ih (keepsToFiles_act hcamera a) (imageSide_congr hcamera hside' ha hgate)
      (hafter.trans hafter'.symm) hlater hafter

/-! ## Both sides -/

structure Isolated (x : Interplay) : Prop where
  /-- Without the actions of the image side the command side goes as it did: its own come to the
  same, one by one, and leave the same behind. -/
  command_side : ∀ actions,
    let without := actions.filter fun a => !a.isImage
    x.outcomes actions = x.outcomes without ∧ (x.play actions).engine = (x.play without).engine ∧
      (x.play actions).command = (x.play without).command
  /-- The same picture requests in another session, served in the same steps, come to the same if
  the gates find the same: the bytes sent, the results, the captures and the files. -/
  image_side : ∀ (y : Interplay) (actions actions' : List Action),
    y.studio = x.studio → y.requests = x.requests →
      actions'.filter Action.isImage = actions.filter Action.isImage →
      y.gates actions' = x.gates actions →
        (y.play actions').requests = (x.play actions).requests ∧
          (y.play actions').studio = (x.play actions).studio

/-- **The two channels of a session do not interfere.** -/
theorem isolated (x : Interplay) (h : x.studio.camera.KeepsToFiles) : x.Isolated where
  command_side actions := by
    obtain ⟨hplay, houtcomes⟩ := commandSide_play h rfl actions
    obtain ⟨hengine, hcommand⟩ := Prod.mk.inj hplay
    exact ⟨houtcomes, hengine, hcommand⟩
  image_side y actions actions' hstudio hrequests hactions hgates := by
    have hplay := imageSide_play (hstudio ▸ h) (Prod.ext hstudio hrequests) hactions hgates
    obtain ⟨hstudio', hrequests'⟩ := Prod.mk.inj hplay
    exact ⟨hrequests', hstudio'⟩

end Interplay

/-- Two gates are passed in these turns, one while the operator is there and one behind that. -/
theorem isolated_late :
    briefSession.studio.camera.KeepsToFiles ∧ briefSession.Isolated ∧
      briefSession.gates (lateTurns.map .turn) = [true, false] :=
  ⟨Camera.keepsToFiles_onFiles _ _ _,
    Interplay.isolated briefSession (Camera.keepsToFiles_onFiles _ _ _), by decide +kernel⟩

end Teleop
