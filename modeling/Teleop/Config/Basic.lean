import Teleop.Address
import Teleop.Camera.Settings
import Teleop.Environment
import Teleop.Speed
import Teleop.Text.Quoted
import Teleop.Vocabulary

/-!
# The configuration of the server
-/

namespace Teleop

/-! ## Names of choices -/

inductive LogFormat where
  | compact
  | json
deriving DecidableEq, Repr, Inhabited

def LogFormat.all : List LogFormat := [.compact, .json]

def LogFormat.name : LogFormat → String
  | compact => "compact"
  | json => "json"

inductive CameraBackend where
  /-- The camera that a program runs. -/
  | fswebcam
  | sim
deriving DecidableEq, Repr, Inhabited

def CameraBackend.all : List CameraBackend := [.fswebcam, .sim]

def CameraBackend.name : CameraBackend → String
  | fswebcam => "fswebcam"
  | sim => "sim"

inductive MotorBackend where
  | sim
deriving DecidableEq, Repr, Inhabited

def MotorBackend.all : List MotorBackend := [.sim]

def MotorBackend.name : MotorBackend → String
  | sim => "sim"

def ImageFormat.all : List ImageFormat := [.jpg, .png]

/-- A word that names none of the choices. -/
structure UnknownName where
  kind : String
  word : String
deriving DecidableEq, Repr

def UnknownName.message (u : UnknownName) : String :=
  "unknown " ++ u.kind ++ " " ++ Text.quoted u.word

/-- The choice that a word names. -/
def choose? {α : Type} (all : List α) (name : α → String) (word : String) : Option α :=
  all.find? fun a => name a == word

def choose {α : Type} (kind : String) (all : List α) (name : α → String) (word : String) :
    Except UnknownName α :=
  match choose? all name word with
  | some a => .ok a
  | none => .error ⟨kind, word⟩

def LogFormat.parse (word : String) : Except UnknownName LogFormat :=
  choose "log format" all name word

def CameraBackend.parse (word : String) : Except UnknownName CameraBackend :=
  choose "camera backend" all name word

/-! ## The configuration -/

structure CameraConfig where
  backend : CameraBackend := .fswebcam
  settings : CameraSettings := {}
deriving DecidableEq, Repr

structure Config where
  bindAddress : Address
  controlPort : UInt16
  imagePort : UInt16
  tlsCert : Path
  tlsKey : Path
  /-- Both channels run without TLS. -/
  insecurePlaintext : Bool
  defaultSpeed : Speed
  pictureDir : Path
  pictureName : String
  logFormat : LogFormat
  camera : CameraConfig
  motor : MotorBackend
deriving DecidableEq, Repr

/-! ## Places -/

/-- The directory of the server below a home directory. -/
def serverDirectory (home : Path) : Path := Path.join home ".robopi"

def configPathBelow (home : Path) : Path := Path.join (serverDirectory home) "config.toml"

namespace Environment

/-- The file of the configuration: `ROBOPI_CONFIG`, or the one below the home directory. -/
def configPath (env : Environment) : Path :=
  (env.nonempty? "ROBOPI_CONFIG").getD (configPathBelow env.home)

end Environment

def standardPictureName : String := "snapshot"

/-- Where captures go if nothing is configured. -/
def standardCaptureDir (env : Environment) : Path := Path.join env.temporaryDirectory "robopi"

/-- The configuration of a server that was never configured. -/
def Config.standard (env : Environment) : Config where
  bindAddress := .unspecified
  controlPort := defaultControlPort
  imagePort := defaultImagePort
  tlsCert := Path.join (serverDirectory env.home) "cert.pem"
  tlsKey := Path.join (serverDirectory env.home) "key.pem"
  insecurePlaintext := false
  defaultSpeed := .standard
  pictureDir := "/tmp/robopi"
  pictureName := standardPictureName
  logFormat := .compact
  camera := {}
  motor := .sim

end Teleop
