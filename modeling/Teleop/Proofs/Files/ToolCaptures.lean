import Teleop.Camera.Tool
import Teleop.Proofs.Files.Writing

/-!
# Pictures that a tool takes

A capture by a tool succeeds if the tool does and something is where the picture belongs. Who put it
there is not looked at, nor what it is: a tool that does nothing gets by with an old picture.
-/

namespace Teleop

/-! ## One run of the tool -/

/-- The directories are there, and this is what became of the tool. -/
structure ToolRan (ps : Programs) (settings : CameraSettings) (program : String) (dir : Path)
    (name : String) (files made : FileTree) (run : ProgramRun) : Prop where
  directories : files.makeDirectories dir = (none, made)
  ran : ps.run made program (settings.arguments (settings.outputPath dir name)) = .ok run

/-- What a capture to this path makes of a run of the tool. -/
def ProgramRun.answer (run : ProgramRun) (program : String) (output : Path) :
    Except CaptureError Path :=
  if run.status = .code 0 then
    match run.files.lookup output with
    | .error e => .error (.noImage output e)
    | .ok _ => .ok output
  else .error (.exited program run.status (Text.trim (Text.lossy run.complaint)))

theorem ProgramRun.answer_eq_ok {run : ProgramRun} {program : String} {output path : Path} :
    run.answer program output = .ok path ↔
      path = output ∧ run.status = .code 0 ∧ run.files.holds output = true := by
  unfold answer
  rw [FileTree.holds_iff]
  by_cases hstatus : run.status = .code 0
  · cases run.files.lookup output <;> simp [hstatus, eq_comm]
  · simp [hstatus]

section

variable {ps : Programs} {settings : CameraSettings} {program : String} {dir : Path}
  {name : String} {files made : FileTree} {run : ProgramRun}

theorem mapError_eq_ok {α ε ε' : Type} {f : ε → ε'} {x : Except ε α} {a : α} :
    x.mapError f = .ok a ↔ x = .ok a := by
  cases x <;> simp [Except.mapError]

theorem captureWith_of_ran (h : ToolRan ps settings program dir name files made run) :
    captureWith ps settings program dir name files =
      (run.answer program (settings.outputPath dir name), run.files) := by
  unfold captureWith ProgramRun.answer
  rw [h.directories]
  dsimp only
  rw [h.ran]
  dsimp only
  by_cases hstatus : run.status = .code 0
  · rw [if_pos (by simp [hstatus, ExitStatus.isSuccess]), if_pos hstatus]
    cases run.files.lookup (settings.outputPath dir name) <;> rfl
  · rw [if_neg (by simp [hstatus, ExitStatus.isSuccess]), if_neg hstatus]

theorem captureWith_cases (ps : Programs) (settings : CameraSettings) (program : String)
    (dir : Path) (name : String) (files : FileTree) :
    (∃ made run, ToolRan ps settings program dir name files made run) ∨
      (∃ e made, files.makeDirectories dir = (some e, made) ∧
        captureWith ps settings program dir name files = (.error (.cannotCreate dir e), made)) ∨
        ∃ e made, files.makeDirectories dir = (none, made) ∧
          captureWith ps settings program dir name files =
            (.error (.cannotRun program e), made) := by
  unfold captureWith
  rcases hmade : files.makeDirectories dir with ⟨_ | e, made⟩
  · dsimp only
    cases hrun : ps.run made program (settings.arguments (settings.outputPath dir name)) with
    | error e => exact Or.inr (Or.inr ⟨e, made, rfl, rfl⟩)
    | ok run => exact Or.inl ⟨made, run, hmade, hrun⟩
  · exact Or.inr (Or.inl ⟨e, made, rfl, rfl⟩)

theorem ToolRan.again (h : ToolRan ps settings program dir name files made run)
    (hidle : run.files = made) : ToolRan ps settings program dir name run.files made run := by
  rw [hidle]
  exact ⟨FileTree.makeDirectories_of_isDirectory
    (FileTree.isDirectory_makeDirectories h.directories), h.ran⟩

end

/-! ## A camera with a tool -/

namespace Camera

/-- Captures one after the other under the same name. -/
def shots (c : Camera) (dir : Path) (name : String) :
    Nat → Scene → List (Except RobotError Path) × Scene
  | 0, scene => ([], scene)
  | n + 1, scene =>
    let first := c.capture dir name scene
    let others := c.shots dir name n first.2
    (first.1 :: others.1, others.2)

section

variable {ps : Programs} {id : String} {settings : CameraSettings} {program : String} {dir : Path}
  {name : String} {scene : Scene} {made : FileTree} {run : ProgramRun}

theorem capture_ofTool (ps : Programs) (id : String) (settings : CameraSettings) (program : String)
    (dir : Path) (name : String) (scene : Scene) :
    (ofTool ps id settings program).capture dir name scene =
      ((captureWith ps settings program dir name scene.files).1.mapError CaptureError.toRobotError,
        { scene with files := (captureWith ps settings program dir name scene.files).2 }) := rfl

theorem capture_of_ran (h : ToolRan ps settings program dir name scene.files made run) :
    (ofTool ps id settings program).capture dir name scene =
      ((run.answer program (settings.outputPath dir name)).mapError CaptureError.toRobotError,
        { scene with files := run.files }) := by
  rw [capture_ofTool, captureWith_of_ran h]

theorem capture_eq_ok (path : Path) :
    ((ofTool ps id settings program).capture dir name scene).1 = .ok path ↔
      path = settings.outputPath dir name ∧ ∃ made run,
        ToolRan ps settings program dir name scene.files made run ∧ run.status = .code 0 ∧
          run.files.holds path = true := by
  constructor
  · intro h
    obtain ⟨made, run, hran⟩ | ⟨e, made, -, hfailed⟩ | ⟨e, made, -, hfailed⟩ :=
      captureWith_cases ps settings program dir name scene.files
    · rw [capture_of_ran hran, mapError_eq_ok, ProgramRun.answer_eq_ok] at h
      obtain ⟨rfl, hstatus, hholds⟩ := h
      exact ⟨rfl, made, run, hran, hstatus, hholds⟩
    · rw [capture_ofTool, hfailed] at h
      nomatch h
    · rw [capture_ofTool, hfailed] at h
      nomatch h
  · rintro ⟨rfl, made, run, hran, hstatus, hholds⟩
    rw [capture_of_ran hran, mapError_eq_ok, ProgramRun.answer_eq_ok]
    exact ⟨rfl, hstatus, hholds⟩

theorem shots_of_idle (h : ToolRan ps settings program dir name scene.files made run)
    (hidle : run.files = made) (n : Nat) :
    (ofTool ps id settings program).shots dir name (n + 1) scene =
      (List.replicate (n + 1)
        ((run.answer program (settings.outputPath dir name)).mapError CaptureError.toRobotError),
        { scene with files := made }) := by
  induction n generalizing scene with
  | zero =>
    rw [shots, shots, capture_of_ran h, hidle]
    rfl
  | succ n ih =>
    have hagain : ToolRan ps settings program dir name
        ({ scene with files := run.files } : Scene).files made run := h.again hidle
    rw [shots, capture_of_ran h]
    dsimp only
    rw [ih hagain]
    rfl

end

/-- What a capture with a tool comes to. -/
structure CapturesByTool (ps : Programs) (id : String) (settings : CameraSettings)
    (program : String) (dir : Path) (name : String) (scene : Scene) : Prop where
  /-- The tool has to succeed, and something has to be at the place of the picture behind it. -/
  ok_iff : ∀ path, ((ofTool ps id settings program).capture dir name scene).1 = .ok path ↔
    path = settings.outputPath dir name ∧ ∃ made run,
      ToolRan ps settings program dir name scene.files made run ∧ run.status = .code 0 ∧
        run.files.holds path = true
  error : ∀ e, ((ofTool ps id settings program).capture dir name scene).1 = .error e →
    ∃ cause : CaptureError, e = .capture cause.message
  unmade : ∀ e made, scene.files.makeDirectories dir = (some e, made) →
    (ofTool ps id settings program).capture dir name scene =
      (.error (.capture (CaptureError.cannotCreate dir e).message), { scene with files := made })
  failed : ∀ made run, ToolRan ps settings program dir name scene.files made run →
    run.status ≠ .code 0 →
    (ofTool ps id settings program).capture dir name scene =
      (.error (.capture (CaptureError.exited program run.status
        (Text.trim (Text.lossy run.complaint))).message), { scene with files := run.files })
  nothing : ∀ made run e, ToolRan ps settings program dir name scene.files made run →
    run.status = .code 0 → run.files.lookup (settings.outputPath dir name) = .error e →
    (ofTool ps id settings program).capture dir name scene =
      (.error (.capture (CaptureError.noImage (settings.outputPath dir name) e).message),
        { scene with files := run.files })
  /-- What is where nothing was before the tool ran comes from the tool. -/
  fresh : ∀ path made run, ToolRan ps settings program dir name scene.files made run →
    made.holds path = false →
    ((ofTool ps id settings program).capture dir name scene).1 = .ok path →
    run.files.holds path = true ∧ run.files ≠ made
  /-- A tool that does nothing and exits with zero is found out if nothing is at the place. If
  anything is there then every capture succeeds, and it stays as it is. -/
  idle : ∀ made run, ToolRan ps settings program dir name scene.files made run →
    run.status = .code 0 → run.files = made → ∀ n,
    (ofTool ps id settings program).shots dir name (n + 1) scene =
      (List.replicate (n + 1)
        (match made.lookup (settings.outputPath dir name) with
          | .ok _ => .ok (settings.outputPath dir name)
          | .error e =>
            .error (.capture (CaptureError.noImage (settings.outputPath dir name) e).message)),
        { scene with files := made })

theorem capturesByTool (ps : Programs) (id : String) (settings : CameraSettings)
    (program : String) (dir : Path) (name : String) (scene : Scene) :
    CapturesByTool ps id settings program dir name scene := by
  refine ⟨capture_eq_ok, ?_, ?_, ?_, ?_, ?_, ?_⟩
  · intro e he
    rw [capture_ofTool] at he
    cases hcapture : (captureWith ps settings program dir name scene.files).1 with
    | ok path => rw [hcapture] at he; nomatch he
    | error cause =>
      rw [hcapture] at he
      exact ⟨cause, (Except.error.inj he).symm⟩
  · intro e made hmade
    rw [capture_ofTool, captureWith, hmade]
    rfl
  · intro made run h hstatus
    rw [capture_of_ran h, ProgramRun.answer, if_neg hstatus]
    rfl
  · intro made run e h hstatus hlookup
    rw [capture_of_ran h, ProgramRun.answer, if_pos hstatus, hlookup]
    rfl
  · intro path made run h hempty hshot
    rw [capture_of_ran h, mapError_eq_ok, ProgramRun.answer_eq_ok] at hshot
    obtain ⟨rfl, -, hholds⟩ := hshot
    refine ⟨hholds, fun hsame => ?_⟩
    rw [hsame, hempty] at hholds
    nomatch hholds
  · intro made run h hstatus hidle n
    rw [shots_of_idle h hidle, ProgramRun.answer, if_pos hstatus, hidle]
    cases made.lookup (settings.outputPath dir name) <;> rfl

/-- The tool does nothing, and what is returned for its picture is an old file or a directory. -/
theorem stale_picture_returned :
    let idle : Program := fun _ files => { status := .code 0, files }
    let camera := ofTool { named := fun _ => some idle } "front" {} defaultCaptureProgram
    let old : FileTree := { nodes := [(["pictures"], .directory 0o755),
      (["pictures", "view.jpg"], .file (.ofText "stale") 0o644)] }
    let blocked : FileTree := { nodes := [(["pictures"], .directory 0o755),
      (["pictures", "view.jpg"], .directory 0o755)] }
    camera.capture "pictures" "view" { files := old } =
        (.ok "pictures/view.jpg", { files := old }) ∧
      camera.capture "pictures" "view" { files := blocked } =
        (.ok "pictures/view.jpg", { files := blocked }) := by
  intro idle camera old blocked
  refine ⟨?_, ?_⟩
  · rfl
  · rfl

end Camera

end Teleop
