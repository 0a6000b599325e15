import Teleop.Picture.Request
import Teleop.Wire.Connection

/-!
# The image channel

The service takes one image connection after the other, each with a single request, until the
session has ended. It looks for the end before it takes a connection. A request that is being
served then is finished first.
-/

namespace Teleop

inductive ServicePhase where
  | waiting
  | greeting (c : Connection)
  | serving (id : Nat) (r : Request)
  | closing (id : Nat) (c : Channel)
  | finished

/-- Totals of the image channel. -/
structure ServiceReport where
  requests : Nat := 0
  pictures : Nat := 0
  bytes : Nat := 0
deriving DecidableEq, Repr

def ServiceReport.count (r : ServiceReport) : Except PictureError Transfer → ServiceReport
  | .ok (.sent bytes _) => { r with pictures := r.pictures + 1, bytes := r.bytes + bytes }
  | _ => r

/-- What the log says of a request that is over. -/
def resultNotices : Except PictureError Transfer → List Notice
  | .error e => [.transferAborted e.message]
  | .ok _ => []

structure Service where
  waiter : Waiter := .ended false
  phase : ServicePhase := .waiting
  report : ServiceReport := {}
  notices : List Notice := []

namespace Service

def isFinished (svc : Service) : Bool :=
  match svc.phase with
  | .finished => true
  | _ => false

/-- The connection that the service holds, if it holds one. -/
def held? (svc : Service) : Option Connection :=
  match svc.phase with
  | .greeting c => some c
  | .serving id r => some { id := id, stream := r.channel.stream }
  | .closing id c => some { id := id, stream := c.stream }
  | .waiting | .finished => none

/-- Takes the result of a request. The channel is shut down whatever the result is. -/
def conclude (svc : Service) (id : Nat) (c : Channel) (result : Except PictureError Transfer) :
    Service :=
  { svc with
    phase := .closing id c
    report := svc.report.count result
    notices := svc.notices ++ c.notices ++ resultNotices result }

/-- The service up to its next wait. -/
def step (svc : Service) (l : Listener) (s : SessionState) (studio : Studio) :
    Service × Listener × SessionState × Studio :=
  match svc.phase with
  | .waiting =>
    match svc.waiter.poll s, l.waiting with
    | (.pending, w), [] => ({ svc with waiter := w }, l, s, studio)
    | (.pending, w), c :: rest =>
      ({ svc with waiter := w, phase := .greeting c }, { l with waiting := rest }, s, studio)
    | (_, w), _ => ({ svc with waiter := w, phase := .finished }, l, s, studio)
  | .greeting c =>
    match c.handshake with
    | .pending => (svc, l, s, studio)
    | .refused e =>
      ({ svc with phase := .waiting, notices := svc.notices ++ [.imageHandshakeFailed e] },
        l.release c, s, studio)
    | .done =>
      ({ svc with
          phase := .serving c.id { channel := { stream := c.stream } }
          report := { svc.report with requests := svc.report.requests + 1 } }, l, s, studio)
  | .serving id r =>
    let (r, s, studio) := r.step s studio
    (match r.result? with
      | some result => svc.conclude id r.channel result
      | none => { svc with phase := .serving id r }, l, s, studio)
  | .closing id c =>
    ({ svc with phase := .waiting }, l.release { id := id, stream := c.shutdown.2.stream }, s, studio)
  | .finished => (svc, l, s, studio)

end Service

end Teleop
