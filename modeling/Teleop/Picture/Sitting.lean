import Teleop.Picture.Service
import Teleop.Wire.Readiness

/-!
# A sitting with the image channel

The image channel alone, with clients that fetch from it one after the other while the session
changes around it. The service runs whenever it does not have to wait.
-/

namespace Teleop

def Request.isReady (r : Request) : Bool :=
  match r.phase with
  | .reading => r.channel.canRead
  | _ => true

/-- The service does not have to wait. -/
def Service.isReady (svc : Service) (l : Listener) (s : SessionState) : Bool :=
  match svc.phase with
  | .waiting => !l.waiting.isEmpty || svc.waiter.poll s != (.pending, svc.waiter)
  | .greeting c => c.handshake != .pending
  | .serving _ r => r.isReady
  | .closing .. => true
  | .finished => false

structure Sitting where
  service : Service := {}
  listener : Listener := {}
  session : SessionState := {}
  studio : Studio
  /-- The connections made so far. -/
  connections : Nat := 0

namespace Sitting

/-- Runs the service until it has to wait. -/
def settle : (fuel : Nat) → Sitting → Sitting
  | 0, x => x
  | fuel + 1, x =>
    if x.service.isReady x.listener x.session then
      let (service, listener, session, studio) :=
        x.service.step x.listener x.session x.studio
      settle fuel { x with service, listener, session, studio }
    else x

/-- More steps than any sitting takes between two acts. -/
def patience : Nat := 10000000

def rest (x : Sitting) : Sitting := x.settle patience

/-- Sets the flag to one value after the other, faster than the service can look. -/
def setConnected (values : List Bool) (x : Sitting) : Sitting :=
  { x with session := values.foldl SessionState.setConnected x.session }.rest

def close (x : Sitting) : Sitting := { x with session := x.session.close }.rest

/-- Connects, sends a request and receives to the end. -/
def fetch (request : Bytes) (halfClose : Bool) (handshake : Handshake) (x : Sitting) :
    Bytes × Sitting :=
  let arrivals := [.chunk request].filter (· != Arrival.ending)
    ++ (if halfClose then [Arrival.ending] else [])
  let c : Connection := { id := x.connections, stream := { arrivals }, handshake }
  let y := { x with listener := x.listener.arrive c, connections := x.connections + 1 }.rest
  let received := ((y.listener.released.find? (·.id == c.id)).map (·.stream.received)).getD []
  (received, y)

end Sitting

end Teleop
