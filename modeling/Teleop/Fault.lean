import Teleop.Text.Utf8

/-!
# What can go wrong

Errors of a stream have a kind and a text. Errors of the operating system have a fixed text each.
Both end up inside the error that the rest of the robot sees.
-/

namespace Teleop

/-! ## Streams -/

inductive StreamErrorKind where
  | connectionReset
  | connectionAborted
  | connectionRefused
  | brokenPipe
  | unexpectedEof
  | timedOut
  | notConnected
  | interrupted
  | other
  | invalidData
  | permissionDenied
  | writeZero
deriving DecidableEq, Repr

structure StreamError where
  kind : StreamErrorKind
  text : String
deriving DecidableEq, Repr

/-- A write that took no byte of a frame. -/
def StreamError.writeZero : StreamError := ⟨.writeZero, "write zero"⟩

/-! ## The operating system -/

inductive SystemError where
  | notPermitted
  | noEntry
  | execFormat
  | denied
  | alreadyExists
  | notDirectory
  | isDirectory
  | nameTooLong
  | addressInUse
  | addressUnavailable
  | notUtf8
  | nulInName
  | nulInArgument
deriving DecidableEq, Repr

def SystemError.message : SystemError → String
  | notPermitted => "Operation not permitted (os error 1)"
  | noEntry => "No such file or directory (os error 2)"
  | execFormat => "Exec format error (os error 8)"
  | denied => "Permission denied (os error 13)"
  | alreadyExists => "File exists (os error 17)"
  | notDirectory => "Not a directory (os error 20)"
  | isDirectory => "Is a directory (os error 21)"
  | nameTooLong => "File name too long (os error 36)"
  | addressInUse => "Address already in use (os error 98)"
  | addressUnavailable => "Cannot assign requested address (os error 99)"
  | notUtf8 => "stream did not contain valid UTF-8"
  | nulInName => "file name contained an unexpected NUL byte"
  | nulInArgument => "nul byte found in provided data"

/-! ## The robot -/

inductive RobotError where
  | hardwareFault (component details : String)
  | capture (detail : String)
  | transport (detail : String)
  | tls (detail : String)
  | config (detail : String)
deriving DecidableEq, Repr

def RobotError.message : RobotError → String
  | hardwareFault component details => "Hardware Fault on " ++ component ++ ": " ++ details
  | capture detail => "Capture failed: " ++ detail
  | transport detail => "Transport error: " ++ detail
  | tls detail => "TLS setup error: " ++ detail
  | config detail => "Configuration error: " ++ detail

/-! ## Warnings

Events that go to the log and to nobody else. -/

inductive Notice where
  | messageTooLong (capacity dropped : Nat)
  | shortWrite (expected written : Nat)
  | motionFailed (motion : String) (error : RobotError)
  | commandTransportFailed (error : StreamError)
  | invalidPictureRequest (request : Bytes)
  | imageHandshakeFailed (error : StreamError)
  | transferAborted (reason : String)
deriving DecidableEq, Repr

namespace Notice

inductive Level where
  | warn
  | error
deriving DecidableEq, Repr

def level : Notice → Level
  | shortWrite .. | commandTransportFailed _ => .error
  | _ => .warn

def message : Notice → String
  | messageTooLong .. => "message too long, truncating"
  | shortWrite .. => "short write"
  | motionFailed .. => "motion command failed"
  | commandTransportFailed _ => "command channel transport error"
  | invalidPictureRequest _ => "invalid picture request"
  | imageHandshakeFailed _ => "image channel handshake failed"
  | transferAborted _ => "picture transfer aborted"

/-- A value that a notice carries. -/
inductive Field where
  | number (n : Nat)
  | text (s : String)
deriving DecidableEq, Repr

/-- The values that a notice carries, by name. -/
def fields : Notice → List (String × Field)
  | messageTooLong capacity dropped => [("capacity", .number capacity), ("dropped", .number dropped)]
  | shortWrite expected written => [("expected", .number expected), ("written", .number written)]
  | motionFailed motion e => [("motion", .text motion), ("error", .text e.message)]
  | commandTransportFailed e => [("error", .text e.text)]
  | invalidPictureRequest request => [("request", .text (Text.lossy request))]
  | imageHandshakeFailed e => [("error", .text e.text)]
  | transferAborted reason => [("error", .text reason)]

end Notice

end Teleop
