import Teleop.Config.Overrides
import Teleop.Config.Table
import Teleop.Files.Tree
import Teleop.Toml.Writing

/-!
# The configuration file

The file is read if it is there and written with the standard configuration if it is not. Only its
owner may look into it and into its directory. What a user may not see counts as missing for him.
-/

namespace Teleop

inductive ConfigError where
  | cannotRead (path : Path) (e : SystemError)
  /-- The file is no configuration. -/
  | malformed (path : Path)
  | cannotCreate (dir : Path) (e : SystemError)
  | cannotRestrict (dir : Path) (e : SystemError)
  | cannotWrite (path : Path) (e : SystemError)
deriving DecidableEq, Repr

def ConfigError.message : ConfigError → String
  | cannotRead path e => "failed to read config at " ++ path ++ ": " ++ e.message
  | malformed path => "failed to parse " ++ path
  | cannotCreate dir e => "failed to create " ++ dir ++ ": " ++ e.message
  | cannotRestrict dir e => "failed to restrict " ++ dir ++ ": " ++ e.message
  | cannotWrite path e => "failed to write config at " ++ path ++ ": " ++ e.message

def ConfigError.toRobotError (e : ConfigError) : RobotError := .config e.message

namespace Config

/-- The mode of the directory of the file. -/
def directoryMode : Nat := 0o700

/-- The mode of a new file. -/
def fileMode : Nat := 0o600

def render (c : Config) : String := Toml.write c.toTable

def parse? (env : Environment) (text : String) : Option Config :=
  (Toml.read? text).bind (ofTable? (standard env))

/-- The configuration in a file, or `none` if the user sees nothing at the path. -/
def load (env : Environment) (files : FileTree) (path : Path) (user : User := .root) :
    Except ConfigError (Option Config) :=
  if !files.holds path user then .ok none
  else
    match files.read path user with
    | .error e => .error (.cannotRead path e)
    | .ok content =>
      match Text.decode? content with
      | none => .error (.cannotRead path .notUtf8)
      | some text =>
        match parse? env text with
        | none => .error (.malformed path)
        | some c => .ok (some c)

/-- Makes the directory of a file and keeps others out of it. -/
def prepareDirectory (files : FileTree) (path : Path) (user : User := .root) :
    Option ConfigError × FileTree :=
  match Path.parent? path with
  | none => (none, files)
  | some dir =>
    match files.makeDirectories dir user with
    | (some e, files) => (some (.cannotCreate dir e), files)
    | (none, files) =>
      match files.setMode dir directoryMode user with
      | .error e => (some (.cannotRestrict dir e), files)
      | .ok files => (none, files)

/-- Writes the configuration to a file. -/
def save (c : Config) (files : FileTree) (path : Path) (user : User := .root) :
    Option ConfigError × FileTree :=
  match prepareDirectory files path user with
  | (some e, files) => (some e, files)
  | (none, files) =>
    match files.write path (.ofText c.render) fileMode user with
    | .error e => (some (.cannotWrite path e), files)
    | .ok files => (none, files)

/-- A configuration as it was found. -/
structure Loaded where
  config : Config
  /-- No file was seen before. -/
  created : Bool
deriving DecidableEq, Repr

/-- Loads the configuration, or writes the standard one first if the file is not there. The overrides
are not written. -/
def loadOrCreate (env : Environment) (files : FileTree) (path : Path) (user : User := .root) :
    Except ConfigError Loaded × FileTree :=
  match load env files path user with
  | .error e => (.error e, files)
  | .ok (some c) => (.ok { config := c.override env, created := false }, files)
  | .ok none =>
    match save (standard env) files path user with
    | (some e, files) => (.error e, files)
    | (none, files) =>
      (.ok { config := (standard env).override env, created := true }, files)

end Config

end Teleop
