import Teleop.Config.Basic
import Teleop.Toml.Value

/-!
# The configuration as a table

A key that is missing means the standard value, and a key that means nothing is passed over. A key
with a value of the wrong kind makes the whole table wrong.
-/

namespace Teleop

open Toml

namespace Toml

/-! ## Reading single values -/

def Value.text? : Value → Option String
  | .string s => some s
  | _ => none

def Value.boolean? : Value → Option Bool
  | .boolean b => some b
  | _ => none

/-- An integer from zero to below `bound`. -/
def Value.below? (bound : Nat) : Value → Option Nat
  | .integer i => if 0 ≤ i ∧ i < bound then some i.toNat else none
  | _ => none

def Value.address? (v : Value) : Option Address := v.text?.bind Address.parse?

def Value.portNumber? (v : Value) : Option UInt16 := (v.below? UInt16.size).map UInt16.ofNat

def Value.pixels? (v : Value) : Option UInt32 := (v.below? UInt32.size).map UInt32.ofNat

/-- A number with or without a point. -/
def Value.speed? : Value → Option Speed
  | .integer i => some (.ofInt i)
  | .float bits => some (.ofDouble bits)
  | _ => none

/-- What may stand behind the name of a choice. -/
def Value.isEmptyTable : Value → Bool
  | .table [] => true
  | _ => false

def Value.isEmptyList : Value → Bool
  | .array [] => true
  | _ => false

/-- A choice: its name, or a table with its name as the only key and nothing in it. -/
def Value.choice? {α : Type} (choose? : String → Option α) (nothing : Value → Bool) :
    Value → Option α
  | .string s => choose? s
  | .table [(name, v)] => if nothing v then choose? name else none
  | _ => none

/-- The value of a key, or `standard` if it is missing. -/
def Table.field? {α : Type} (t : Table) (key : String) (standard : α) (read : Value → Option α) :
    Option α :=
  match t.get? key with
  | none => some standard
  | some v => read v

end Toml

/-! ## Reading the configuration -/

/-- What may stand for nothing behind the name of a choice. -/
def isNothing (v : Value) : Bool := v.isEmptyTable || v.isEmptyList

def CameraSettings.ofTable? (t : Table) : Option CameraSettings := do
  let standard : CameraSettings := {}
  let width ← t.field? "width" standard.width Value.pixels?
  let height ← t.field? "height" standard.height Value.pixels?
  let format ← t.field? "format" standard.format
    (Value.choice? (choose? ImageFormat.all ImageFormat.extension) Value.isEmptyTable)
  let banner ← t.field? "banner" standard.banner Value.boolean?
  some { width, height, format, banner }

def readCameraBackend? : Value → Option CameraBackend :=
  Value.choice? (choose? CameraBackend.all CameraBackend.name) isNothing

/-- A date stands for a table in which no key means anything. -/
def CameraConfig.ofValue? : Value → Option CameraConfig
  | .table t => do
    let backend ← Table.field? t "backend" CameraBackend.fswebcam readCameraBackend?
    let settings ← CameraSettings.ofTable? t
    some { backend, settings }
  | .datetime _ => some {}
  | _ => none

def readMotorBackend? : Value → Option MotorBackend :=
  Value.choice? (choose? MotorBackend.all MotorBackend.name) isNothing

/-- The motor is a table, or a list that begins with the backend. -/
def readMotor? : Value → Option MotorBackend
  | .table t => Table.field? t "backend" .sim readMotorBackend?
  | .array [] => some .sim
  | .array (v :: _) => readMotorBackend? v
  | .datetime _ => some .sim
  | _ => none

/-- The configuration that a table stands for, with `standard` where it says nothing. -/
def Config.ofTable? (standard : Config) (t : Table) : Option Config := do
  let bindAddress ← t.field? "bind_address" standard.bindAddress Value.address?
  let controlPort ← t.field? "control_port" standard.controlPort Value.portNumber?
  let imagePort ← t.field? "image_port" standard.imagePort Value.portNumber?
  let tlsCert ← t.field? "tls_cert" standard.tlsCert Value.text?
  let tlsKey ← t.field? "tls_key" standard.tlsKey Value.text?
  let insecurePlaintext ← t.field? "insecure_plaintext" standard.insecurePlaintext Value.boolean?
  let defaultSpeed ← t.field? "default_speed" standard.defaultSpeed Value.speed?
  let pictureDir ← t.field? "picture_dir" standard.pictureDir Value.text?
  let pictureName ← t.field? "picture_name" standard.pictureName Value.text?
  let logFormat ← t.field? "log_format" standard.logFormat
    (Value.choice? (choose? LogFormat.all LogFormat.name) isNothing)
  let camera ← t.field? "camera" standard.camera CameraConfig.ofValue?
  let motor ← t.field? "motor" standard.motor readMotor?
  some { bindAddress, controlPort, imagePort, tlsCert, tlsKey, insecurePlaintext, defaultSpeed,
         pictureDir, pictureName, logFormat, camera, motor }

/-! ## Writing the configuration -/

def CameraConfig.toTable (c : CameraConfig) : Table :=
  [("backend", .string c.backend.name), ("width", .integer c.settings.width.toNat),
   ("height", .integer c.settings.height.toNat), ("format", .string c.settings.format.extension),
   ("banner", .boolean c.settings.banner)]

def Config.toTable (c : Config) : Table :=
  [("bind_address", .string c.bindAddress.text), ("control_port", .integer c.controlPort.toNat),
   ("image_port", .integer c.imagePort.toNat), ("tls_cert", .string c.tlsCert),
   ("tls_key", .string c.tlsKey), ("insecure_plaintext", .boolean c.insecurePlaintext),
   ("default_speed", .float c.defaultSpeed.toDouble), ("picture_dir", .string c.pictureDir),
   ("picture_name", .string c.pictureName), ("log_format", .string c.logFormat.name),
   ("camera", .table c.camera.toTable), ("motor", .table [("backend", .string c.motor.name)])]

end Teleop
