import Teleop.Address
import Teleop.Coordinator.World

/-!
# Endpoints

The coordinator listens at two endpoints, the one of the control channel and the one of the image
channel. They are bound in this order before anything else happens.
-/

namespace Teleop

structure Endpoint where
  address : Address
  port : UInt16
deriving DecidableEq, Repr

def Endpoint.text (e : Endpoint) : String :=
  let host := match e.address with
    | .v4 _ => e.address.text
    | .v6 _ => "[" ++ e.address.text ++ "]"
  host ++ ":" ++ toString e.port.toNat

namespace Address

/-- All addresses of the machine at once. -/
def isUnspecified : Address → Bool
  | .v4 octets => octets.toList.all (· == 0)
  | .v6 groups => groups.toList.all (· == 0)

/-- An address of the machine to itself, mapped ones included. -/
def isLoopback : Address → Bool
  | .v4 octets => octets.toList.head? == some 127
  | .v6 groups =>
    match mapped? groups.toList with
    | some octets => octets.head? == some 127
    | none => groups.toList == [0, 0, 0, 0, 0, 0, 0, 1]

/-- A machine without a network has these addresses. -/
def isLocal (a : Address) : Bool :=
  a.isUnspecified || a.isLoopback || a == .v6 #v[0, 0, 0, 0, 0, 0xFFFF, 0, 0]

end Address

/-- A machine with the endpoints that are in use. -/
structure Host where
  taken : List Endpoint := []
deriving DecidableEq, Repr

namespace Host

/-- Two endpoints that cannot be in use at once. Port zero stands for any free one. -/
def clash (a b : Endpoint) : Bool :=
  a.port == b.port && a.port != 0
    && (a.address == b.address || a.address.isUnspecified || b.address.isUnspecified)

def bind (h : Host) (e : Endpoint) : Except SystemError Host :=
  if !e.address.isLocal then .error .addressUnavailable
  else if h.taken.any (clash e) then .error .addressInUse
  else .ok { taken := e :: h.taken }

def bindError (e : Endpoint) (error : SystemError) : RobotError :=
  .transport ("bind error on " ++ e.text ++ ": " ++ error.message)

/-- Binds the control endpoint and then the image endpoint. -/
def listen (h : Host) (control image : Endpoint) : Except RobotError Host :=
  match h.bind control with
  | .error e => .error (bindError control e)
  | .ok h =>
    match h.bind image with
    | .error e => .error (bindError image e)
    | .ok h => .ok h

end Host

end Teleop
