import Teleop.Drive
import Teleop.Session.State

/-!
# Answering a command

The table of the command channel. Until the operator has connected, a `CONN` connects, a `DISCONN`
is refused, and anything else ends the session. After that a second `CONN` and a `DISCONN` end it.
-/

namespace Teleop

/-- What a command is answered, and whether the channel closes behind the answer. -/
structure Reply where
  response : Response
  close : Bool := false
  notices : List Notice := []
deriving DecidableEq, Repr

/-- The command side of a session: the flags, the drive and the speed of its motions. -/
structure Engine where
  session : SessionState := {}
  drive : Drive
  speed : Speed := .standard
  /-- The messages received so far. -/
  handled : Nat := 0

namespace Engine

def setConnected (e : Engine) (value : Bool) : Engine :=
  { e with session := e.session.setConnected value }

/-- Runs a motion. A fault of the drive goes to the log; the motion is acknowledged all the same. -/
def move (e : Engine) (m : Motion) : Reply × Engine :=
  match e.drive.execute m e.speed with
  | (some fault, drive) =>
    ({ response := .ack m, notices := [.motionFailed m.token fault] }, { e with drive := drive })
  | (none, drive) => ({ response := .ack m }, { e with drive := drive })

/-- Answers one message. -/
def dispatch (e : Engine) (word : Bytes) : Reply × Engine :=
  match e.session.connected, Command.parse? word with
  | false, some .conn => ({ response := .connOk }, e.setConnected true)
  | false, some .disconn => ({ response := .disconnErr }, e)
  | false, _ => ({ response := .cmdErr, close := true }, e)
  | true, some .conn => ({ response := .connErr, close := true }, e.setConnected false)
  | true, some .disconn => ({ response := .disconnOk, close := true }, e.setConnected false)
  | true, some .ping => ({ response := .ping }, e)
  | true, some .picture => ({ response := .pictureErr }, e)
  | true, some (.motion m) => e.move m
  | true, none => ({ response := .cmdErr }, e)

@[simp] theorem handled_dispatch (e : Engine) (word : Bytes) :
    (e.dispatch word).2.handled = e.handled := by
  unfold dispatch move
  split <;> try rfl
  split <;> rfl

end Engine

end Teleop
