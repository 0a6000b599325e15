import Teleop.Session.CommandRun
import Teleop.Picture.Service

/-!
# Tasks of a session

A task runs on its own until it is over. To abort it is only to ask: it goes on to its next wait and
is gone there, at some later time. Its owner knows that it is over only by waiting for it.
-/

namespace Teleop

inductive Task (α : Type) where
  | running (state : α) (aborted : Bool)
  | finished (state : α)
  /-- It was aborted or it failed, and left no result. -/
  | lost (state : α)

namespace Task

variable {α : Type}

def start (state : α) : Task α := running state false

def state : Task α → α
  | running a _ | finished a | lost a => a

/-- The task is not over. -/
def isLive : Task α → Bool
  | running .. => true
  | finished _ | lost _ => false

def isAborted : Task α → Bool
  | running _ aborted => aborted
  | finished _ | lost _ => false

def result? : Task α → Option α
  | finished a => some a
  | running .. | lost _ => none

def abort : Task α → Task α
  | running a _ => running a true
  | t => t

/-- The task at the next wait, where it now has the state `a`. -/
def arrive (aborted ended : Bool) (a : α) : Task α :=
  if ended then finished a else if aborted then lost a else running a false

/-- The task is dropped where it waits. This happens to aborted tasks only. -/
def vanish : Task α → Task α
  | running a true => lost a
  | t => t

/-- The task fails by itself. -/
def crash : Task α → Task α
  | running a _ => lost a
  | t => t

end Task

/-! ## Turning a client away -/

inductive RejectionPhase where
  | greeting (handshake : Handshake)
  | reading
  | answering
  | closing
  | gone
deriving DecidableEq, Repr

/-- A client that came while another has the robot. Its first line is answered `CONN_ERR`. -/
structure Rejection where
  id : Nat
  channel : Channel
  phase : RejectionPhase

namespace Rejection

def of (c : Connection) : Rejection where
  id := c.id
  channel := { stream := c.stream }
  phase := .greeting c.handshake

def isOver (r : Rejection) : Bool := r.phase == .gone

/-- The rejection up to its next wait. -/
def step (r : Rejection) : Rejection :=
  match r.phase with
  | .greeting .pending => r
  | .greeting (.refused _) => { r with phase := .gone }
  | .greeting .done => { r with phase := .reading }
  | .reading =>
    match r.channel.readMessage messageCapacity with
    | (.error _, c) => { r with channel := c, phase := .gone }
    | (.ok _, c) => { r with channel := c, phase := .answering }
  | .answering =>
    match r.channel.respond .connErr with
    | (.error _, c) => { r with channel := c, phase := .gone }
    | (.ok _, c) => { r with channel := c, phase := .closing }
  | .closing => { r with channel := r.channel.shutdown.2, phase := .gone }
  | .gone => r

end Rejection

/-! ## Sessions -/

/-- A session with its tasks. The two channels and nobody else share its flags. -/
structure LiveSession where
  connection : Nat
  state : SessionState := {}
  /-- The messages that its command channel received. -/
  handled : Nat := 0
  command : Task CommandRun
  image : Task Service := .start {}
  rejections : List (Task Rejection) := []

namespace LiveSession

/-- A session begins disconnected and open, whatever was before. -/
def start (c : Connection) : LiveSession where
  connection := c.id
  command := .start { channel := { stream := c.stream } }

/-- No task of the session is left. -/
def isQuiet (s : LiveSession) : Bool :=
  !s.command.isLive && !s.image.isLive && s.rejections.all (!·.isLive)

end LiveSession

end Teleop
