import Teleop.Coordinator.Rehearsal
import Teleop.Startup

/-!
# The program

The server with its control channel on the terminal: every line of input is sent by the operator,
and what comes back is printed. The end of the input stops the server. Everything is decided in the
modules below; here are only reading, printing and the files of the machine.
-/

namespace Teleop

/-! ## The machine -/

def variableNames : List String :=
  ["HOME", "USERPROFILE", "TMPDIR", "ROBOPI_CONFIG", "ROBOPI_BIND_ADDRESS", "ROBOPI_CONTROL_PORT",
   "ROBOPI_IMAGE_PORT", "ROBOPI_TLS_CERT", "ROBOPI_TLS_KEY", "ROBOPI_CAMERA_BACKEND",
   "ROBOPI_LOG_FORMAT", Telemetry.endpointVariable]

def readEnvironment : IO Environment :=
  variableNames.foldlM (fun env name => do return env.set name (← IO.getEnv name)) {}

/-- Takes one path of the machine into the tree. -/
def takePath (t : FileTree) (p : Path) : IO FileTree := do
  let place := (← IO.currentDir) / p
  let location := (if Path.isAbsolute p then [] else t.workingDirectory) ++ Path.components p
  if ← place.isDir then return t.put location (.directory 0o755)
  else if ← place.pathExists then
    return t.put location (.file (← IO.FS.readBinFile place).toList { mode := FileTree.plainMode })
  else return t

/-- Takes a path and the directories above it into the tree. -/
def takeFile (t : FileTree) (p : Path) : IO FileTree :=
  (Path.selfAndAbove p).foldlM (fun t p => if p = "" then pure t else takePath t p) t

def readMachine : IO FileTree := do
  let here := Path.components (← IO.currentDir).toString
  let ancestors := (List.range here.length).map fun n => here.take (n + 1)
  return { workingDirectory := here, nodes := ancestors.map fun l => (l, .directory 0o755) }

def ownerOnly (execution : Bool) : IO.FileRight := { user := ⟨true, true, execution⟩ }

/-- Writes a new configuration file to the machine. -/
def putConfig (s : Startup) : IO Unit := do
  let here ← IO.currentDir
  match Path.parent? s.path, s.files.read s.path with
  | some dir, .ok content =>
    IO.FS.createDirAll (here / dir)
    IO.setAccessRights (here / dir) (ownerOnly true)
    IO.FS.writeBinFile (here / s.path) (ByteArray.mk content.toArray)
    IO.setAccessRights (here / s.path) (ownerOnly false)
  | _, _ => return

/-! ## The terminal -/

def operator : String := "operator"

/-- The operator connects when there is something to say and no connection to say it on. -/
def Rehearsal.say (r : Rehearsal) (bytes : Bytes) : Bytes × Rehearsal :=
  let isOpen := (r.client? operator).any fun c => !(r.world.view c.connection).2
  let r := if isOpen then r else (r.act (.connect operator)).2
  match r.act (.ask operator bytes (completeLines bytes)) with
  | (.heard answer _, r) => (answer, r)
  | (_, r) => ([], r)

partial def converse (input output : IO.FS.Stream) (r : Rehearsal) : IO Rehearsal := do
  let line ← input.getLine
  if line.isEmpty then return r
  let (answer, r) := r.say (Bytes.ofText line)
  output.putStr (Text.lossy answer)
  output.flush
  converse input output r

def serve (s : Startup) : IO UInt32 := do
  match s.config.open? {} s.files with
  | some e =>
    IO.eprintln e.message
    return 1
  | none =>
    let r ← converse (← IO.getStdin) (← IO.getStdout) { world := s.config.world {} s.files }
    stopLines.forM IO.println
    IO.println (r.act .shutdown).2.world.summary.farewell
    return 0

end Teleop

def main : IO UInt32 := do
  let env ← Teleop.readEnvironment
  let files ← Teleop.takeFile (← Teleop.readMachine) env.configPath
  let config := (Teleop.Startup.load env files).config
  let files ← [config.tlsCert, config.tlsKey].foldlM Teleop.takeFile files
  let s := Teleop.Startup.load env files
  if s.created then Teleop.putConfig s
  (s.allComplaints env).forM IO.eprintln
  s.greeting.forM IO.println
  Teleop.serve s
