import Teleop.Coordinator.Schedule

/-!
# Rehearsals

Clients play their parts against a world: they connect, send, listen and leave. Between two acts the
world settles. A rehearsal shows what a client receives and when the stream behind it ends.
-/

namespace Teleop

/-! ## Connections in a world -/

namespace Task

def map {α : Type} (f : α → α) : Task α → Task α
  | running a aborted => running (f a) aborted
  | finished a => finished (f a)
  | lost a => lost (f a)

end Task

def Connection.on (id : Nat) (f : Stream → Stream) (c : Connection) : Connection :=
  if c.id = id then { c with stream := f c.stream } else c

def Listener.on (id : Nat) (f : Stream → Stream) (l : Listener) : Listener :=
  { l with waiting := l.waiting.map (·.on id f) }

def Channel.on (f : Stream → Stream) (c : Channel) : Channel := { c with stream := f c.stream }

def Service.on (id : Nat) (f : Stream → Stream) (svc : Service) : Service :=
  match svc.phase with
  | .greeting c => { svc with phase := .greeting (c.on id f) }
  | .serving n r =>
    if n = id then { svc with phase := .serving n { r with channel := r.channel.on f } } else svc
  | .closing n c => if n = id then { svc with phase := .closing n (c.on f) } else svc
  | .waiting | .finished => svc

namespace LiveSession

def on (id : Nat) (f : Stream → Stream) (s : LiveSession) : LiveSession :=
  { s with
    command := if s.connection = id then
      s.command.map fun r => { r with channel := r.channel.on f } else s.command
    image := s.image.map (·.on id f)
    rejections := s.rejections.map (·.map fun r =>
      if r.id = id then { r with channel := r.channel.on f } else r) }

/-- The connections that the tasks of a session hold. -/
def connections (s : LiveSession) : List Connection :=
  (if s.command.isLive then
    [{ id := s.connection, stream := s.command.state.channel.stream }] else [])
    ++ (if s.image.isLive then s.image.state.held?.toList else [])
    ++ (s.rejections.filter Task.isLive).map fun r =>
      { id := r.state.id, stream := r.state.channel.stream }

end LiveSession

namespace World

/-- Does something to the stream of a connection, wherever it is held. -/
def on (id : Nat) (f : Stream → Stream) (w : World) : World :=
  { w with
    control := w.control.on id f
    image := w.image.on id f
    phase := match w.phase with
      | .greeting c => .greeting (c.on id f)
      | p =>
        match p.session? with
        | some s => p.withSession (s.on id f)
        | none => p }

/-- The connections that the server holds. -/
def held (w : World) : List Connection :=
  (match w.phase with
    | .greeting c => [c]
    | p => (p.session?.map LiveSession.connections).getD [])
    ++ w.past.flatMap LiveSession.connections

def isWaiting (w : World) (id : Nat) : Bool :=
  (w.control.waiting ++ w.image.waiting).any (·.id == id)

/-- What a client has received, and whether that is all that it will receive. -/
def view (w : World) (id : Nat) : Bytes × Bool :=
  match w.held.find? (·.id == id), (w.control.released ++ w.image.released).find? (·.id == id) with
  | some c, _ => (c.stream.received, c.stream.isShut)
  | none, some c => (c.stream.received, true)
  | none, none => ([], w.isStopped)

end World

/-! ## Clients -/

structure Client where
  name : String
  connection : Nat
  /-- The bytes that it has listened to. -/
  heard : Nat := 0
deriving DecidableEq, Repr

structure Rehearsal where
  world : World
  clients : List Client := []
  /-- The connections made so far. -/
  connections : Nat := 0
  /-- The connections whose handshake fails, by number. -/
  refused : List Nat := []
  /-- The connections whose handshake never ends, by number. -/
  hanging : List Nat := []

inductive Act where
  | connect (who : String)
  | openImage (who : String)
  | send (who : String) (bytes : Bytes)
  /-- Sends, and listens for some lines. -/
  | ask (who : String) (bytes : Bytes) (lines : Nat)
  /-- Listens to the end of the stream. -/
  | hearOut (who : String)
  /-- Makes an image connection for one request. -/
  | picture (bytes : Bytes)
  | leave (who : String)
  /-- Waits until so many sessions are over. -/
  | awaitEnds (count : Nat)
  | shutdown
deriving Repr

inductive Outcome where
  | nothing
  | accepted
  | heard (bytes : Bytes) (ended : Bool)
  | ended (calls : List DriveCall)
  | stopped
  /-- What the act waits for does not happen. -/
  | stuck
deriving Repr

/-- The first lines of some bytes, with their terminators. If there are not so many, all of it. -/
def firstLines : (count : Nat) → Bytes → Bytes
  | 0, _ => []
  | count + 1, bytes =>
    match splitLine bytes with
    | (line, some rest) => line ++ terminator :: firstLines count rest
    | (line, none) => line

/-- The lines of some bytes that are complete. -/
def completeLines (bytes : Bytes) : Nat := bytes.count terminator

namespace Rehearsal

def client? (r : Rehearsal) (who : String) : Option Client := r.clients.find? (·.name == who)

/-- Puts a client in the place of the one with the same name. -/
def put (r : Rehearsal) (c : Client) : Rehearsal :=
  { r with clients := c :: r.clients.filter (·.name != c.name) }

def waitUntil (r : Rehearsal) (done : World → Bool) : Rehearsal :=
  { r with world := r.world.waitUntil done (r.connections + 1) }

/-- The next connection. -/
def dial (r : Rehearsal) (arrivals : List Arrival) : Connection where
  id := r.connections
  stream := { arrivals := arrivals }
  handshake :=
    if r.refused.contains r.connections then .refused ⟨.other, "refused"⟩
    else if r.hanging.contains r.connections then .pending
    else .done

/-- Makes a connection with an event and waits until the server has taken it. -/
def openConnection (r : Rehearsal) (who : String) (arrive : Connection → Event) : Outcome × Rehearsal :=
  let c := r.dial []
  let r := { r with world := r.world.step (arrive c), connections := r.connections + 1 }
  let r := (r.put { name := who, connection := c.id }).waitUntil fun w => !w.isWaiting c.id
  (if r.world.isWaiting c.id then .stuck else .accepted, r)

/-- Listens until `enough` of what was not yet heard is there, or nothing more comes. `take` is the
part that is heard. -/
def listen (r : Rehearsal) (c : Client) (enough : Bytes → Bool) (take : Bytes → Bytes) :
    Outcome × Rehearsal :=
  let news (w : World) : Bytes := (w.view c.connection).1.drop c.heard
  let r := r.waitUntil fun w => enough (news w) || (w.view c.connection).2
  let there := news r.world
  if enough there then
    (.heard (take there) false, r.put { c with heard := c.heard + (take there).length })
  else if (r.world.view c.connection).2 then
    (.heard there true, r.put { c with heard := c.heard + there.length })
  else (.stuck, r)

def deliver (r : Rehearsal) (c : Client) (a : Arrival) : Rehearsal :=
  { r with world := (r.world.on c.connection (Stream.deliver a)).rest }

/-- Sends bytes. No bytes at all are not sent. -/
def send (r : Rehearsal) (c : Client) (bytes : Bytes) : Rehearsal :=
  if bytes.isEmpty then r else r.deliver c (.chunk bytes)

/-- One act. -/
def act (r : Rehearsal) : Act → Outcome × Rehearsal
  | .connect who => r.openConnection who .controlArrives
  | .openImage who => r.openConnection who .imageArrives
  | .send who bytes =>
    match r.client? who with
    | some c => (.nothing, r.send c bytes)
    | none => (.stuck, r)
  | .ask who bytes lines =>
    match r.client? who with
    | some c =>
      (r.send c bytes).listen c (fun news => lines ≤ completeLines news) (firstLines lines)
    | none => (.stuck, r)
  | .hearOut who =>
    match r.client? who with
    | some c => r.listen c (fun _ => false) id
    | none => (.stuck, r)
  | .picture bytes =>
    let c := r.dial ([.chunk bytes].filter (· != Arrival.ending))
    let r := { r with
      world := r.world.step (.imageArrives c)
      connections := r.connections + 1 }
    r.listen { name := "", connection := c.id } (fun _ => false) id
  | .leave who =>
    match r.client? who with
    | some c => (.nothing, r.deliver c .ending)
    | none => (.nothing, r)
  | .awaitEnds count =>
    let r := r.waitUntil fun w => count ≤ w.reports.length
    (if count ≤ r.world.reports.length then .ended r.world.drive.calls else .stuck, r)
  | .shutdown =>
    let r := { r with world := r.world.step .shutdown }.waitUntil World.isStopped
    (if r.world.isStopped then .stopped else .stuck, r)

end Rehearsal

end Teleop
