import Teleop.Config.Basic

/-!
# Overrides from the environment

Seven variables change one field each. A value that does not fit its field is ignored.
-/

namespace Teleop

/-- A number of 16 bits: decimal digits, and maybe a plus in front. -/
def portNumber? (s : String) : Option UInt16 :=
  let digits := match s.toList with
    | '+' :: cs => cs
    | cs => cs
  if digits.isEmpty || !digits.all Char.isDigit then none
  else
    let n := Number.digitsValue digits
    if n < UInt16.size then some (UInt16.ofNat n) else none

/-- A path that is not empty. -/
def namedPath? (s : String) : Option Path := if s = "" then none else some s

/-- What a variable says, if it fits. -/
def Environment.read? {α : Type} (env : Environment) (name : String) (parse? : String → Option α) :
    Option α :=
  (env.get? name).bind parse?

/-- The configuration with the overrides of the environment. -/
def Config.override (env : Environment) (c : Config) : Config :=
  { c with
    bindAddress := (env.read? "ROBOPI_BIND_ADDRESS" Address.parse?).getD c.bindAddress
    controlPort := (env.read? "ROBOPI_CONTROL_PORT" portNumber?).getD c.controlPort
    imagePort := (env.read? "ROBOPI_IMAGE_PORT" portNumber?).getD c.imagePort
    tlsCert := (env.read? "ROBOPI_TLS_CERT" namedPath?).getD c.tlsCert
    tlsKey := (env.read? "ROBOPI_TLS_KEY" namedPath?).getD c.tlsKey
    logFormat := (env.read? "ROBOPI_LOG_FORMAT"
      (choose? LogFormat.all LogFormat.name)).getD c.logFormat
    camera := { c.camera with
      backend := (env.read? "ROBOPI_CAMERA_BACKEND"
        (choose? CameraBackend.all CameraBackend.name)).getD c.camera.backend } }

end Teleop
