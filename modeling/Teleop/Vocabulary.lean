import Teleop.Bytes

/-!
# What operator and robot say to each other

The operator sends commands, the robot answers with responses, one line each. A word is a command
only if it is one of the thirteen tokens, byte for byte.
-/

namespace Teleop

/-! ## The shape of the wire -/

/-- A message keeps at most this many bytes. -/
def messageCapacity : Nat := 16

/-- The size of a read and of a picture frame. -/
def frameSize : Nat := 32

/-- The byte that ends a line. -/
def terminator : UInt8 := 10

def defaultControlPort : UInt16 := 2025
def defaultImagePort : UInt16 := 2026

/-! ## Motions -/

inductive Motion where
  | forward
  | backward
  | stop
  | rotateLeft
  | rotateRight
  | frontLeft
  | frontRight
  | backLeft
  | backRight
deriving DecidableEq, Repr

namespace Motion

def all : List Motion :=
  [forward, backward, stop, rotateLeft, rotateRight, frontLeft, frontRight, backLeft, backRight]

theorem mem_all (m : Motion) : m ∈ all := by cases m <;> decide

def token : Motion → String
  | forward => "FWD"
  | backward => "BKWD"
  | stop => "STOP"
  | rotateLeft => "ROTATE_LEFT"
  | rotateRight => "ROTATE_RIGHT"
  | frontLeft => "FRONT_L"
  | frontRight => "FRONT_R"
  | backLeft => "BCK_L"
  | backRight => "BCK_R"

end Motion

/-! ## Commands -/

inductive Command where
  | conn
  | disconn
  | ping
  | picture
  | motion (m : Motion)
deriving DecidableEq, Repr

namespace Command

def all : List Command := [conn, disconn, ping, picture] ++ Motion.all.map motion

theorem mem_all (c : Command) : c ∈ all := by
  cases c with
  | motion m => simp [all, Motion.mem_all]
  | _ => decide

def token : Command → String
  | conn => "CONN"
  | disconn => "DISCONN"
  | ping => "PING"
  | picture => "PICTURE"
  | motion m => m.token

def bytes (c : Command) : Bytes := .ofText c.token

/-- The command that `word` is the token of. -/
def parse? (word : Bytes) : Option Command := all.find? fun c => c.bytes == word

theorem parse?_bytes (c : Command) : parse? c.bytes = some c := by
  cases c with
  | motion m => cases m <;> decide
  | _ => decide

theorem bytes_of_parse? {word : Bytes} {c : Command} (h : parse? word = some c) :
    c.bytes = word := by
  simpa using List.find?_some h

theorem parse?_eq_some_iff {word : Bytes} {c : Command} :
    parse? word = some c ↔ word = c.bytes := by
  constructor
  · intro h
    exact (bytes_of_parse? h).symm
  · rintro rfl
    exact parse?_bytes c

end Command

/-! ## Responses -/

inductive Response where
  | connOk
  | connErr
  | disconnOk
  | disconnErr
  /-- The motion was taken on. -/
  | ack (m : Motion)
  | ping
  | pictureOk
  | pictureErr
  | cmdErr
deriving DecidableEq, Repr

namespace Response

def all : List Response :=
  [connOk, connErr, disconnOk, disconnErr] ++ Motion.all.map ack
    ++ [ping, pictureOk, pictureErr, cmdErr]

theorem mem_all (r : Response) : r ∈ all := by
  cases r with
  | ack m => simp [all, Motion.mem_all]
  | _ => decide

def mnemonic : Response → String
  | connOk => "CONN_OK"
  | connErr => "CONN_ERR"
  | disconnOk => "DISCONN_OK"
  | disconnErr => "DISCONN_ERR"
  | ack m => m.token ++ "_OK"
  | ping => "PING"
  | pictureOk => "PICTURE_OK"
  | pictureErr => "PICTURE_ERR"
  | cmdErr => "CMD_ERR"

end Response

/-- A text as a line: its bytes and the terminator. -/
def line (text : String) : Bytes := .ofText text ++ [terminator]

def Response.framed (r : Response) : Bytes := line r.mnemonic

end Teleop
