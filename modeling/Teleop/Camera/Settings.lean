import Teleop.Files.Path

/-!
# Camera settings
-/

namespace Teleop

inductive ImageFormat where
  | jpg
  | png
deriving DecidableEq, Repr

def ImageFormat.extension : ImageFormat → String
  | jpg => "jpg"
  | png => "png"

structure CameraSettings where
  width : UInt32 := 512
  height : UInt32 := 512
  format : ImageFormat := .jpg
  /-- The capture tool draws its text banner onto the picture. -/
  banner : Bool := false
deriving DecidableEq, Repr

namespace CameraSettings

/-- The file of a capture under `name`. -/
def outputPath (s : CameraSettings) (dir : Path) (name : String) : Path :=
  Path.join dir (name ++ "." ++ s.format.extension)

/-- The words after the name of the capture tool. -/
def arguments (s : CameraSettings) (output : Path) : List String :=
  ["-r", toString s.width.toNat ++ "x" ++ toString s.height.toNat]
    ++ (if s.banner then [] else ["--no-banner"]) ++ [output]

end CameraSettings

end Teleop
