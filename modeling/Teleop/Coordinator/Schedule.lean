import Teleop.Coordinator.World
import Teleop.Picture.Sitting

/-!
# Who runs next

A world settles when everybody in it runs until they have to wait. The order is fixed here: first the
coordinator, then the tasks of the session that is on, then what is left of the sessions before.
-/

namespace Teleop

def CommandRun.isReady (r : CommandRun) : Bool :=
  match r.phase with
  | .reading => r.channel.canRead
  | .finished _ => false
  | _ => true

def Rejection.isReady (r : Rejection) : Bool :=
  match r.phase with
  | .greeting h => h != .pending
  | .reading => r.channel.canRead
  | .gone => false
  | _ => true

/-- What may happen to a task next. One that was aborted is dropped. -/
def Task.fate? {α : Type} (isReady : α → Bool) : Task α → Option TaskFate
  | running _ true => some .vanish
  | running a false => if isReady a then some .run else none
  | finished _ | lost _ => none

namespace World

def coordinatorIsReady (w : World) : Bool :=
  match w.phase with
  | .accepting => w.shutdown || !w.control.waiting.isEmpty
  | .greeting c => w.shutdown || c.handshake != .pending
  | .serving s => w.shutdown || !s.command.isLive || !w.control.waiting.isEmpty
  | .joining s => !s.command.isLive
  | .dismissing s => !s.rejections.any Task.isLive
  | .draining s => !s.image.isLive
  | .stopped => false

/-- The next event of a session's tasks. -/
def sessionEvent? (w : World) (n : Nat) (s : LiveSession) : Option Event :=
  let command := (s.command.fate? CommandRun.isReady).map (.task n .command)
  let image := (s.image.fate? fun svc => svc.isReady w.image s.state).map (.task n .image)
  let rejection := s.rejections.zipIdx.findSome? fun (r, i) =>
    (r.fate? Rejection.isReady).map (.task n (.rejection i))
  command <|> image <|> rejection

def nextEvent? (w : World) : Option Event :=
  if w.coordinatorIsReady then some .coordinator
  else
    (w.phase.session?.bind (w.sessionEvent? w.past.length)) <|>
      w.past.zipIdx.findSome? fun (s, n) => w.sessionEvent? n s

/-- Runs until nobody is ready. -/
def settle : (fuel : Nat) → World → World
  | 0, w => w
  | fuel + 1, w =>
    match w.nextEvent? with
    | some e => settle fuel (w.step e)
    | none => w

def rest (w : World) : World := w.settle Sitting.patience

/-- The image channel keeps the coordinator waiting. -/
def isDraining (w : World) : Bool :=
  match w.phase with
  | .draining s => s.image.isLive
  | _ => false

def isStopped (w : World) : Bool :=
  match w.phase with
  | .stopped => true
  | _ => false

/-- Lets time pass until `done`. If nobody is ready, the time of the image channel runs out; that can
happen once for each session. -/
def waitUntil (done : World → Bool) : (sessions : Nat) → World → World
  | 0, w => w.rest
  | sessions + 1, w =>
    let w := w.rest
    if done w || !w.isDraining then w else (w.step .graceExpires).waitUntil done sessions

end World

end Teleop
