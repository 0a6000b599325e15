import Teleop.Files.Path

/-!
# The environment of the process

Its variables, and the places that follow from them.
-/

namespace Teleop

structure Environment where
  entries : List (String × String) := []
deriving DecidableEq, Repr

namespace Environment

def get? (env : Environment) (name : String) : Option String := env.entries.lookup name

/-- Sets a variable, or removes it. -/
def set (env : Environment) (name : String) (value : Option String) : Environment :=
  let others := env.entries.filter (·.1 != name)
  { entries := match value with
      | some v => (name, v) :: others
      | none => others }

/-- The value of a variable that is there and not empty. -/
def nonempty? (env : Environment) (name : String) : Option String :=
  (env.get? name).filter (· ≠ "")

def home (env : Environment) : Path :=
  ((env.get? "HOME").or (env.get? "USERPROFILE")).getD "."

def temporaryDirectory (env : Environment) : Path := (env.get? "TMPDIR").getD "/tmp"

end Environment

end Teleop
