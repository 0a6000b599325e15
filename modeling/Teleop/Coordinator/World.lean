import Teleop.Coordinator.Task

/-!
# One operator at a time

The coordinator takes a control connection, runs a session on it and goes back for the next. Other
clients are turned away meanwhile. A session ends when its command channel does: the clients that
are being turned away are dropped, the session is closed, the image channel gets some time to
finish, and the drive is idled.

`World.step` says what one event does. The events may come in any order: each of them is one stretch
of one task, from one wait to the next, or something that happens outside.
-/

namespace Teleop

/-- What one session did. -/
structure SessionReport where
  commands : Nat
  pictures : Nat
  pictureBytes : Nat
deriving DecidableEq, Repr

/-- What all sessions did. -/
structure Summary where
  sessions : Nat := 0
  busyRejections : Nat := 0
  commands : Nat := 0
  pictures : Nat := 0
deriving DecidableEq, Repr

def Summary.add (s : Summary) (r : SessionReport) : Summary :=
  { s with
    sessions := s.sessions + 1
    commands := s.commands + r.commands
    pictures := s.pictures + r.pictures }

/-- Where the coordinator waits. -/
inductive CoordinatorPhase where
  | accepting
  | greeting (c : Connection)
  /-- For the command channel, for more clients and for the shutdown signal. -/
  | serving (s : LiveSession)
  /-- For the command task, which was aborted. -/
  | joining (s : LiveSession)
  /-- For the clients that are being turned away. -/
  | dismissing (s : LiveSession)
  /-- For the image channel. -/
  | draining (s : LiveSession)
  | stopped

namespace CoordinatorPhase

def session? : CoordinatorPhase → Option LiveSession
  | serving s | joining s | dismissing s | draining s => some s
  | accepting | greeting _ | stopped => none

def withSession (p : CoordinatorPhase) (s : LiveSession) : CoordinatorPhase :=
  match p with
  | serving _ => serving s
  | joining _ => joining s
  | dismissing _ => dismissing s
  | draining _ => draining s
  | p => p

end CoordinatorPhase

structure World where
  speed : Speed := .standard
  drive : Drive
  studio : Studio
  /-- The signal was given, or can be given no more. -/
  shutdown : Bool := false
  control : Listener := {}
  image : Listener := {}
  phase : CoordinatorPhase := .accepting
  /-- The sessions that are over, oldest first. -/
  past : List LiveSession := []
  reports : List SessionReport := []
  summary : Summary := {}

/-- The tasks of a session. -/
inductive TaskName where
  | command
  | image
  | rejection (i : Nat)
deriving DecidableEq, Repr

/-- What may happen to a task. -/
inductive TaskFate where
  /-- It runs to its next wait. -/
  | run
  /-- It was aborted and is dropped. -/
  | vanish
  | crash
deriving DecidableEq, Repr

inductive Event where
  | controlArrives (c : Connection)
  | imageArrives (c : Connection)
  | shutdown
  /-- The coordinator looks at what it waits for. -/
  | coordinator
  /-- The image channel has had its time. -/
  | graceExpires
  /-- Something happens to a task of the session with this number. Sessions count from zero. -/
  | task (session : Nat) (name : TaskName) (fate : TaskFate)
deriving DecidableEq, Repr

namespace World

/-! ## Tasks -/

/-- A session that is over, or the one that is on. -/
def session? (w : World) (n : Nat) : Option LiveSession :=
  if n < w.past.length then w.past[n]? else if n = w.past.length then w.phase.session? else none

def putSession (w : World) (n : Nat) (s : LiveSession) : World :=
  if n < w.past.length then { w with past := w.past.set n s }
  else { w with phase := w.phase.withSession s }

/-- The engine that a session's command channel works with. -/
def engineOf (w : World) (s : LiveSession) : Engine where
  session := s.state
  drive := w.drive
  speed := w.speed
  handled := s.handled

/-- Lets the control connection of a task go if the task is over. -/
def releaseControl (w : World) (ended : Bool) (id : Nat) (stream : Stream) : World :=
  if ended then { w with control := w.control.release { id := id, stream := stream } } else w

/-- Lets the image connection of a service go if its task was lost. -/
def releaseImage (w : World) (t : Task Service) : World :=
  match t with
  | .lost svc =>
    match svc.held? with
    | some c => { w with image := w.image.release c }
    | none => w
  | _ => w

def commandFate (w : World) (n : Nat) (s : LiveSession) (fate : TaskFate) : World :=
  match s.command with
  | .running run aborted =>
    let (command, e) :=
      match fate with
      | .run =>
        let (run, e) := run.step (w.engineOf s)
        (Task.arrive aborted run.ending?.isSome run, e)
      | .vanish => (s.command.vanish, w.engineOf s)
      | .crash => (s.command.crash, w.engineOf s)
    { w with drive := e.drive }.putSession n
        { s with state := e.session, handled := e.handled, command := command }
      |>.releaseControl (!command.isLive) s.connection command.state.channel.stream
  | _ => w

def imageFate (w : World) (n : Nat) (s : LiveSession) (fate : TaskFate) : World :=
  match s.image with
  | .running svc aborted =>
    match fate with
    | .run =>
      let (svc, image, state, studio) := svc.step w.image s.state w.studio
      let task := Task.arrive aborted svc.isFinished svc
      { w with image := image, studio := studio }.putSession n { s with state := state, image := task }
        |>.releaseImage task
    | .vanish => w.putSession n { s with image := s.image.vanish } |>.releaseImage s.image.vanish
    | .crash => w.putSession n { s with image := s.image.crash } |>.releaseImage s.image.crash
  | _ => w

def rejectionFate (w : World) (n : Nat) (s : LiveSession) (i : Nat) (fate : TaskFate) : World :=
  match s.rejections[i]? with
  | some (.running r aborted) =>
    let task :=
      match fate with
      | .run => Task.arrive aborted r.step.isOver r.step
      | .vanish => (Task.running r aborted).vanish
      | .crash => (Task.running r aborted).crash
    w.putSession n { s with rejections := s.rejections.set i task }
      |>.releaseControl (!task.isLive) r.id task.state.channel.stream
  | _ => w

/-! ## The coordinator -/

/-- Ends a session: the drive is idled and the report is made. -/
def conclude (w : World) (s : LiveSession) (image : ServiceReport) : World :=
  let report : SessionReport :=
    { commands := s.handled, pictures := image.pictures, pictureBytes := image.bytes }
  { w with
    drive := (w.drive.perform .idle).2
    phase := .accepting
    past := w.past ++ [s]
    reports := w.reports ++ [report]
    summary := w.summary.add report }

/-- Asks the clients that are being turned away to go. -/
def dismiss (s : LiveSession) : LiveSession :=
  { s with rejections := s.rejections.map Task.abort }

/-- The coordinator up to its next wait. Of the things that it waits for, shutdown comes first, then
the command task, then new clients, then the clients that were turned away. -/
def coordinate (w : World) : World :=
  match w.phase with
  | .accepting =>
    if w.shutdown then { w with phase := .stopped }
    else
      match w.control.waiting with
      | [] => w
      | c :: rest => { w with control := { w.control with waiting := rest }, phase := .greeting c }
  | .greeting c =>
    if w.shutdown then { w with control := w.control.release c, phase := .accepting }
    else
      match c.handshake with
      | .pending => w
      | .refused _ => { w with control := w.control.release c, phase := .accepting }
      | .done => { w with phase := .serving (.start c) }
  | .serving s =>
    if w.shutdown then { w with phase := .joining { s with command := s.command.abort } }
    else if !s.command.isLive then { w with phase := .dismissing (dismiss s) }
    else
      match w.control.waiting with
      | c :: rest =>
        { w with
          control := { w.control with waiting := rest }
          phase := .serving { s with rejections := s.rejections ++ [.start (.of c)] }
          summary := { w.summary with busyRejections := w.summary.busyRejections + 1 } }
      | [] => { w with phase := .serving { s with rejections := s.rejections.filter Task.isLive } }
  | .joining s => if s.command.isLive then w else { w with phase := .dismissing (dismiss s) }
  | .dismissing s =>
    if s.rejections.any Task.isLive then w
    else { w with phase := .draining { s with rejections := [], state := s.state.close } }
  | .draining s =>
    if s.image.isLive then w
    else w.conclude s ((s.image.result?.map Service.report).getD {})
  | .stopped => w

/-- The image channel is given up. What it did is not in the report. -/
def giveUpImage (w : World) : World :=
  match w.phase with
  | .draining s => if s.image.isLive then w.conclude { s with image := s.image.abort } {} else w
  | _ => w

/-! ## Events -/

def step (w : World) : Event → World
  | .controlArrives c => { w with control := w.control.arrive c }
  | .imageArrives c => { w with image := w.image.arrive c }
  | .shutdown => { w with shutdown := true }
  | .coordinator => w.coordinate
  | .graceExpires => w.giveUpImage
  | .task n name fate =>
    match w.session? n with
    | none => w
    | some s =>
      match name with
      | .command => w.commandFate n s fate
      | .image => w.imageFate n s fate
      | .rejection i => w.rejectionFate n s i fate

/-- The world after some events. -/
def run (w : World) (events : List Event) : World := events.foldl step w

theorem run_append (w : World) (es es' : List Event) : w.run (es ++ es') = (w.run es).run es' := by
  simp [run]

end World

end Teleop
