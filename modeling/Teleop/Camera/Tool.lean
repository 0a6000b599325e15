import Teleop.Camera.Basic
import Teleop.Text.Blank
import Teleop.Text.Utf8

/-!
# Cameras run by a program

The program is told where to put the picture. Its exit status is checked first, then that there is
something at the place.
-/

namespace Teleop

/-- How a program ended and what it left behind. -/
structure ProgramRun where
  status : ExitStatus
  complaint : Bytes := []
  files : FileTree

/-- A program, as what it does when it is run with these words on these files. -/
abbrev Program := List String → FileTree → ProgramRun

/-- The programs of a machine: those that are found by name, and those in executable files. -/
structure Programs where
  named : String → Option Program := fun _ => none
  installed : Path → Option Program := fun _ => none

namespace Programs

/-- One of the three execute bits is set. -/
def isExecutable (mode : Nat) : Bool := mode % 2 == 1 || mode / 8 % 2 == 1 || mode / 64 % 2 == 1

/-- The program that a word names. A word with a slash is a path. -/
def find (ps : Programs) (files : FileTree) (name : String) : Except SystemError Program :=
  if name.toList.contains '\x00' then .error .nulInArgument
  else if name.toList.contains '/' then
    match files.lookup name with
    | .error e => .error e
    | .ok (.directory _) => .error .denied
    | .ok (.file _ access) =>
      if isExecutable access.mode then
        match ps.installed name with
        | some program => .ok program
        | none => .error .execFormat
      else .error .denied
  else
    match ps.named name with
    | some program => .ok program
    | none => .error (if FileTree.longestName < name.utf8ByteSize then .nameTooLong else .noEntry)

/-- Runs a program with some words. -/
def run (ps : Programs) (files : FileTree) (name : String) (words : List String) :
    Except SystemError ProgramRun :=
  match ps.find files name with
  | .error e => .error e
  | .ok program =>
    if words.any (·.toList.contains '\x00') then .error .nulInArgument
    else .ok (program words files)

end Programs

/-- The program that takes the pictures if no other is set. -/
def defaultCaptureProgram : String := "fswebcam"

/-- Captures with a program. -/
def captureWith (ps : Programs) (settings : CameraSettings) (program : String) (dir : Path)
    (name : String) (files : FileTree) : Except CaptureError Path × FileTree :=
  match files.makeDirectories dir with
  | (some e, files) => (.error (.cannotCreate dir e), files)
  | (none, files) =>
    let output := settings.outputPath dir name
    match ps.run files program (settings.arguments output) with
    | .error e => (.error (.cannotRun program e), files)
    | .ok result =>
      if result.status.isSuccess then
        match result.files.lookup output with
        | .error e => (.error (.noImage output e), result.files)
        | .ok _ => (.ok output, result.files)
      else
        let said := Text.trim (Text.lossy result.complaint)
        (.error (.exited program result.status said), result.files)

/-- A camera that is run by a program. -/
def Camera.ofTool (ps : Programs) (id : String) (settings : CameraSettings) (program : String) :
    Camera where
  id := id
  capture := onFiles (captureWith ps settings program)

end Teleop
