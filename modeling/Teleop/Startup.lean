import Teleop.Camera.Tool
import Teleop.Config.Store
import Teleop.Coordinator.Endpoints
import Teleop.Coordinator.Schedule
import Teleop.Identity.Basic
import Teleop.Telemetry

/-!
# The server from start to stop

The server loads its configuration, says who it is, loads its identity, binds its endpoints and
listens until it is told to stop. What goes wrong with the configuration is said and passed over;
what goes wrong behind that ends the server.
-/

namespace Teleop

/-! ## Starting -/

/-- The server when it has its configuration. -/
structure Startup where
  config : Config
  path : Path
  /-- The file of the configuration was not there before. -/
  created : Bool
  /-- What went wrong so far. -/
  complaints : List String
  files : FileTree

/-- Loads the configuration. If that fails the standard one is used, with its overrides. -/
def Startup.load (env : Environment) (files : FileTree) : Startup :=
  let path := env.configPath
  match Config.loadOrCreate env files path with
  | (.ok l, files) =>
    { config := l.config, path := path, created := l.created, complaints := [], files := files }
  | (.error e, files) =>
    { config := (Config.standard env).override env
      path := path
      created := false
      complaints :=
        ["Config error: " ++ e.toRobotError.message, "  Using default configuration."]
      files := files }

def telemetryComplaint : String := "[robopi] OTLP exporter init"

/-- The complaints of a start, those of the span collector last. -/
def Startup.allComplaints (s : Startup) (env : Environment) : List String :=
  s.complaints ++ if Telemetry.hasBadEndpoint env then [telemetryComplaint] else []

/-! ## What the server says -/

def logo : List String :=
  ["   ___       __        ___  _ ",
   "  / _ \\___  / /  ___  / _ \\(_)",
   " / , _/ _ \\/ _ \\/ _ \\/ ___/ / ",
   "/_/|_|\\___/_.__/\\___/_/  /_/  "]

def serverName : String := "RoboPi robot server"

def serverVersion : String := "0.1.0"

def Config.banner (c : Config) : List String :=
  [""] ++ logo ++
    ["", "  " ++ serverName ++ " v" ++ serverVersion,
     "  control " ++ toString c.controlPort.toNat ++ "  image " ++ toString c.imagePort.toNat
       ++ "  tls " ++ (if c.insecurePlaintext then "off" else "on"),
     ""]

/-- The lines before the server listens. -/
def Startup.greeting (s : Startup) : List String :=
  s.config.banner ++
    [(if s.created then "  Default configuration written to " else "  Config loaded from ") ++ s.path,
     ""]

def stopLines : List String :=
  ["", "⚠  Ctrl-C received – stopping the robot server …"]

def Summary.farewell (s : Summary) : String :=
  "  ✓ Served " ++ toString s.sessions ++ " session(s), turned away "
    ++ toString s.busyRejections ++ " client(s)."

/-! ## Serving -/

/-- The size of the pictures of the simulated camera. -/
def simulatedPictureSize : Nat := 4096

namespace Config

def makeDrive (c : Config) : Drive :=
  match c.motor with
  | .sim => .simulated "drive_base" false

def makeCamera (c : Config) (programs : Programs) : Camera :=
  match c.camera.backend with
  | .fswebcam => .ofTool programs "front" c.camera.settings defaultCaptureProgram
  | .sim => .simulated "front" simulatedPictureSize

def world (c : Config) (programs : Programs) (files : FileTree) : World where
  speed := c.defaultSpeed.normalize
  drive := c.makeDrive
  studio :=
    { camera := c.makeCamera programs
      target := { dir := c.pictureDir, name := c.pictureName }
      files := files }

/-- Loads the identity, if one is needed, and binds both endpoints. The answer is the error that ends
the server. -/
def open? (c : Config) (host : Host) (files : FileTree) : Option RobotError :=
  let identity := if c.insecurePlaintext then none
    else match Identity.load files c.tlsCert c.tlsKey with
      | .error e => some e.toRobotError
      | .ok _ => none
  match identity with
  | some e => some e
  | none =>
    match host.listen ⟨c.bindAddress, c.controlPort⟩ ⟨c.bindAddress, c.imagePort⟩ with
    | .error e => some e
    | .ok _ => none

end Config

/-! ## A whole run -/

structure ProgramRunReport where
  output : List String
  complaints : List String
  exitCode : Nat
  /-- Both endpoints were bound. -/
  listening : Bool
  logFormat : LogFormat
  files : FileTree

/-- A run of the server that is told to stop as soon as it listens. -/
def runServer (env : Environment) (host : Host) (programs : Programs) (files : FileTree) :
    ProgramRunReport :=
  let s := Startup.load env files
  let report : ProgramRunReport :=
    { output := s.greeting
      complaints := s.allComplaints env
      exitCode := 1
      listening := false
      logFormat := s.config.logFormat
      files := s.files }
  match s.config.open? host s.files with
  | some _ => report
  | none =>
    let w := ((s.config.world programs s.files).step .shutdown).rest
    { report with
      output := report.output ++ stopLines ++ [w.summary.farewell]
      exitCode := 0
      listening := true }

/-! ## Binding alone -/

/-- The coordinator at two endpoints, told to stop before it begins. -/
def World.serveStopped (w : World) (host : Host) (control image : Endpoint) :
    Except RobotError Summary :=
  match host.listen control image with
  | .error e => .error e
  | .ok _ => .ok (w.step .shutdown).rest.summary

end Teleop
