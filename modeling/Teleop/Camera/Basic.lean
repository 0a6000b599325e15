import Teleop.Camera.Settings
import Teleop.Files.Tree
import Teleop.Session.State

/-!
# Cameras

A camera captures to a file. It is told a directory and a base name and answers with the path of
the picture.
-/

namespace Teleop

/-! ## Exits of a program -/

inductive ExitStatus where
  | code (n : Nat)
  | signal (n : Nat)
deriving DecidableEq, Repr

namespace ExitStatus

def isSuccess (s : ExitStatus) : Bool := s == code 0

/-- The names of the signals from 1 on. -/
def signalNames : List String :=
  ["SIGHUP", "SIGINT", "SIGQUIT", "SIGILL", "SIGTRAP", "SIGABRT", "SIGBUS", "SIGFPE", "SIGKILL",
   "SIGUSR1", "SIGSEGV", "SIGUSR2", "SIGPIPE", "SIGALRM", "SIGTERM", "SIGSTKFLT", "SIGCHLD",
   "SIGCONT", "SIGSTOP", "SIGTSTP", "SIGTTIN", "SIGTTOU", "SIGURG", "SIGXCPU", "SIGXFSZ",
   "SIGVTALRM", "SIGPROF", "SIGWINCH", "SIGIO", "SIGPWR", "SIGSYS"]

def text : ExitStatus → String
  | code n => "exit status: " ++ toString n
  | signal n =>
    "signal: " ++ toString n ++
      match if n = 0 then none else signalNames[n - 1]? with
      | some name => " (" ++ name ++ ")"
      | none => ""

end ExitStatus

/-! ## Failures -/

inductive CaptureError where
  | simulated (camera : String)
  | cannotCreate (dir : Path) (e : SystemError)
  | cannotWrite (path : Path) (e : SystemError)
  | cannotRun (program : String) (e : SystemError)
  | exited (program : String) (status : ExitStatus) (said : String)
  | noImage (path : Path) (e : SystemError)
deriving DecidableEq, Repr

namespace CaptureError

def message : CaptureError → String
  | simulated camera => "simulated failure on " ++ camera
  | cannotCreate dir e => "cannot create " ++ dir ++ ": " ++ e.message
  | cannotWrite path e => "cannot write " ++ path ++ ": " ++ e.message
  | cannotRun program e => "cannot run " ++ program ++ ": " ++ e.message
  | exited program status said => program ++ " exited with " ++ status.text ++ ": " ++ said
  | noImage path e => "no image at " ++ path ++ ": " ++ e.message

def toRobotError (e : CaptureError) : RobotError := .capture e.message

end CaptureError

/-! ## Cameras -/

/-- What a capture may look at and change. -/
structure Scene where
  files : FileTree
  session : SessionState := {}
deriving DecidableEq, Repr

structure Camera where
  id : String
  capture : Path → String → Scene → Except RobotError Path × Scene
  /-- The captures that were asked for. -/
  captures : Nat := 0

namespace Camera

/-- Asks for a picture. -/
def take (c : Camera) (dir : Path) (name : String) (scene : Scene) :
    Except RobotError Path × Scene × Camera :=
  let (result, scene) := c.capture dir name scene
  (result, scene, { c with captures := c.captures + 1 })

/-- A capture that works on the files alone. -/
def onFiles (capture : Path → String → FileTree → Except CaptureError Path × FileTree)
    (dir : Path) (name : String) (scene : Scene) : Except RobotError Path × Scene :=
  let (result, files) := capture dir name scene.files
  (result.mapError CaptureError.toRobotError, { scene with files := files })

/-- Writes the test picture of `size` bytes. -/
def capturePattern (size : Nat) (dir : Path) (name : String) (files : FileTree) :
    Except CaptureError Path × FileTree :=
  let path := CameraSettings.outputPath {} dir name
  match files.makeDirectories dir with
  | (some e, files) => (.error (.cannotCreate dir e), files)
  | (none, files) =>
    match files.write path (.pattern size) FileTree.plainMode with
    | .error e => (.error (.cannotWrite path e), files)
    | .ok files => (.ok path, files)

/-- A camera without a lens, which writes test pictures. -/
def simulated (id : String) (size : Nat) : Camera where
  id := id
  capture := onFiles (capturePattern size)

/-- A camera that never takes a picture. -/
def failing (id : String) : Camera where
  id := id
  capture _ _ scene := (.error (CaptureError.simulated id).toRobotError, scene)

end Camera

end Teleop
