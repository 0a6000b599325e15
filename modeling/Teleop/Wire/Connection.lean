import Teleop.Wire.Channel

/-!
# Connections

A connection that reached a listener: what its peer will do, and how the handshake goes.
-/

namespace Teleop

inductive Handshake where
  /-- It is not over, and may never be. -/
  | pending
  | done
  | refused (e : StreamError)
deriving DecidableEq, Repr

structure Connection where
  id : Nat
  stream : Stream := {}
  handshake : Handshake := .done
deriving DecidableEq, Repr

/-- A place where connections arrive. They wait until they are taken, in order. -/
structure Listener where
  waiting : List Connection := []
  /-- The connections that the server has let go, with all that they saw. -/
  released : List Connection := []
deriving DecidableEq, Repr

namespace Listener

def arrive (l : Listener) (c : Connection) : Listener := { l with waiting := l.waiting ++ [c] }

def release (l : Listener) (c : Connection) : Listener := { l with released := l.released ++ [c] }

end Listener

end Teleop
