import Teleop.Vocabulary
import Teleop.Speed
import Teleop.Fault

/-!
# The drive

A drive keeps the list of the primitives it was told to run. Any of them may meet a fault; it is
on the list all the same.
-/

namespace Teleop

/-- One primitive of the drive base. -/
inductive DriveCall where
  | forward (speed : Speed)
  | backward (speed : Speed)
  | rotateLeft (speed : Speed)
  | rotateRight (speed : Speed)
  | turnLeftFront (speed : Speed)
  | turnRightFront (speed : Speed)
  | turnLeftBack (speed : Speed)
  | turnRightBack (speed : Speed)
  | idle
deriving DecidableEq, Repr

namespace DriveCall

def speed? : DriveCall → Option Speed
  | forward s | backward s | rotateLeft s | rotateRight s => some s
  | turnLeftFront s | turnRightFront s | turnLeftBack s | turnRightBack s => some s
  | idle => none

def name : DriveCall → String
  | forward _ => "Forward"
  | backward _ => "Backward"
  | rotateLeft _ => "RotateLeft"
  | rotateRight _ => "RotateRight"
  | turnLeftFront _ => "TurnLeftFront"
  | turnRightFront _ => "TurnRightFront"
  | turnLeftBack _ => "TurnLeftBack"
  | turnRightBack _ => "TurnRightBack"
  | idle => "Idle"

def text (c : DriveCall) : String :=
  match c.speed? with
  | some s => c.name ++ "(" ++ s.text ++ ")"
  | none => c.name

end DriveCall

/-- The primitive for a motion. A stop takes no speed. -/
def Motion.call (m : Motion) (speed : Speed) : DriveCall :=
  match m with
  | forward => .forward speed
  | backward => .backward speed
  | stop => .idle
  | rotateLeft => .rotateLeft speed
  | rotateRight => .rotateRight speed
  | frontLeft => .turnLeftFront speed
  | frontRight => .turnRightFront speed
  | backLeft => .turnLeftBack speed
  | backRight => .turnRightBack speed

structure Drive where
  id : String
  /-- The fault that a call meets after the calls before it, if it meets one. -/
  fault : List DriveCall → DriveCall → Option RobotError
  calls : List DriveCall := []

namespace Drive

/-- A drive without motors. A faulty one reports a fault on every call. -/
def simulated (id : String) (faulty : Bool) : Drive where
  id := id
  fault _ c := if faulty then some (.hardwareFault id ("simulated fault on " ++ c.text)) else none

/-- Runs one primitive. The answer is the fault it met. -/
def perform (d : Drive) (c : DriveCall) : Option RobotError × Drive :=
  (d.fault d.calls c, { d with calls := d.calls ++ [c] })

/-- Runs a motion at the nearest speed from zero to one. -/
def execute (d : Drive) (m : Motion) (speed : Speed) : Option RobotError × Drive :=
  d.perform (m.call speed.normalize)

@[simp] theorem calls_perform (d : Drive) (c : DriveCall) :
    (d.perform c).2.calls = d.calls ++ [c] := rfl

@[simp] theorem calls_execute (d : Drive) (m : Motion) (speed : Speed) :
    (d.execute m speed).2.calls = d.calls ++ [m.call speed.normalize] := rfl

end Drive

end Teleop
