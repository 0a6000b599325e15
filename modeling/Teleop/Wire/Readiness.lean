import Teleop.Wire.Connection

/-!
# When a channel has to wait

A script says what arrives, and no more than that. When peers act while a session runs, a read that
finds nothing waits for the peer's next act. The end of the stream then is an arrival of its own: a
chunk of no bytes.
-/

namespace Teleop

/-- With this arrival a message ends, well or badly. -/
def Arrival.endsMessage : Arrival → Bool
  | .failure _ => true
  | .chunk bytes => bytes.isEmpty || bytes.contains terminator

/-- A message can be read without waiting. -/
def Channel.canRead (c : Channel) : Bool :=
  c.buffer.contains terminator || c.stream.arrivals.any Arrival.endsMessage

namespace Stream

def deliver (a : Arrival) (s : Stream) : Stream := { s with arrivals := s.arrivals ++ [a] }

/-- What the peer has received. -/
def received (s : Stream) : Bytes :=
  s.seen.flatMap fun
    | .wrote bytes => bytes
    | _ => []

/-- The peer will receive nothing more. -/
def isShut (s : Stream) : Bool := s.seen.contains .shut

end Stream

/-- The arrival that stands for the end of a stream. -/
def Arrival.ending : Arrival := .chunk []

end Teleop
