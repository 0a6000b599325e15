/-!
# The state of a session

Two flags that a session's channels share: the operator is connected, and the session is closed.
Waiters look at the flags when they are polled and at no other time.
-/

namespace Teleop

structure SessionState where
  connected : Bool := false
  closed : Bool := false
deriving DecidableEq, Repr, Inhabited

namespace SessionState

def setConnected (s : SessionState) (value : Bool) : SessionState := { s with connected := value }

def close (s : SessionState) : SessionState := { s with closed := true }

def describe (s : SessionState) : String :=
  "SessionState \x7b connected: " ++ toString s.connected ++ ", closed: " ++ toString s.closed
    ++ " \x7d"

end SessionState

/-! ## Waiters -/

inductive Waiter where
  /-- Waits until the session is closed, or is disconnected after it was seen connected. -/
  | ended (sawConnected : Bool)
  /-- Waits until the session is closed. -/
  | closing
  | resolved
deriving DecidableEq, Repr

inductive Poll where
  | pending
  | ready
  /-- The waiter was ready at an earlier poll. -/
  | done
deriving DecidableEq, Repr

/-- One look at the flags. -/
def Waiter.poll (s : SessionState) : Waiter → Poll × Waiter
  | ended sawConnected =>
    if s.closed || (sawConnected && !s.connected) then (.ready, resolved)
    else (.pending, ended (sawConnected || s.connected))
  | closing => if s.closed then (.ready, resolved) else (.pending, closing)
  | resolved => (.done, resolved)

/-! ## Handles -/

/-- One session state, the handles on it and the waiters made from them, in order. -/
structure Board where
  state : SessionState := {}
  handles : Nat := 1
  waiters : List Waiter := []
deriving DecidableEq, Repr

inductive Board.Action where
  | setConnected (handle : Nat) (value : Bool)
  | close (handle : Nat)
  /-- Makes one more handle on the same state. -/
  | clone (handle : Nat)
  | awaitEnd (handle : Nat)
  | awaitClose (handle : Nat)
  | poll (waiter : Nat)
deriving DecidableEq, Repr

namespace Board

/-- What a handle reports. Handles that were never made report nothing. -/
def report? (b : Board) (handle : Nat) : Option SessionState :=
  if handle < b.handles then some b.state else none

/-- One action and, if it is a poll, its answer. Handles and waiters that were never made do
nothing. -/
def act (b : Board) : Action → Option Poll × Board
  | .setConnected h value =>
    (none, if h < b.handles then { b with state := b.state.setConnected value } else b)
  | .close h => (none, if h < b.handles then { b with state := b.state.close } else b)
  | .clone h => (none, if h < b.handles then { b with handles := b.handles + 1 } else b)
  | .awaitEnd h =>
    (none, if h < b.handles then { b with waiters := b.waiters ++ [.ended false] } else b)
  | .awaitClose h =>
    (none, if h < b.handles then { b with waiters := b.waiters ++ [.closing] } else b)
  | .poll i =>
    match b.waiters[i]? with
    | none => (none, b)
    | some w =>
      let (answer, w) := w.poll b.state
      (some answer, { b with waiters := b.waiters.set i w })

end Board

end Teleop
