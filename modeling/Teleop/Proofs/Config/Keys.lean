import Mathlib.Data.Finset.Defs
import Teleop.Config.Basic

/-!
# The keys of a configuration

A configuration is the values of its sixteen keys, ten on the top and six in the tables of the camera
and the motor.
-/

namespace Teleop

inductive Key where
  | bindAddress
  | controlPort
  | imagePort
  | tlsCert
  | tlsKey
  | insecurePlaintext
  | defaultSpeed
  | pictureDir
  | pictureName
  | logFormat
  | cameraBackend
  | width
  | height
  | format
  | banner
  | motorBackend
deriving DecidableEq, Repr

namespace Key

abbrev Kind : Key → Type
  | bindAddress => Address
  | controlPort | imagePort => UInt16
  | tlsCert | tlsKey | pictureDir => Path
  | insecurePlaintext | banner => Bool
  | defaultSpeed => Speed
  | pictureName => String
  | logFormat => LogFormat
  | cameraBackend => CameraBackend
  | width | height => UInt32
  | format => ImageFormat
  | motorBackend => MotorBackend

/-- The value of a key. -/
def get (c : Config) : (k : Key) → k.Kind
  | bindAddress => c.bindAddress
  | controlPort => c.controlPort
  | imagePort => c.imagePort
  | tlsCert => c.tlsCert
  | tlsKey => c.tlsKey
  | insecurePlaintext => c.insecurePlaintext
  | defaultSpeed => c.defaultSpeed
  | pictureDir => c.pictureDir
  | pictureName => c.pictureName
  | logFormat => c.logFormat
  | cameraBackend => c.camera.backend
  | width => c.camera.settings.width
  | height => c.camera.settings.height
  | format => c.camera.settings.format
  | banner => c.camera.settings.banner
  | motorBackend => c.motor

end Key

/-- The configuration with these values. -/
def Config.ofValues (value : (k : Key) → k.Kind) : Config where
  bindAddress := value .bindAddress
  controlPort := value .controlPort
  imagePort := value .imagePort
  tlsCert := value .tlsCert
  tlsKey := value .tlsKey
  insecurePlaintext := value .insecurePlaintext
  defaultSpeed := value .defaultSpeed
  pictureDir := value .pictureDir
  pictureName := value .pictureName
  logFormat := value .logFormat
  camera :=
    { backend := value .cameraBackend
      settings :=
        { width := value .width
          height := value .height
          format := value .format
          banner := value .banner } }
  motor := value .motorBackend

@[simp] theorem Key.get_ofValues (value : (k : Key) → k.Kind) (k : Key) :
    k.get (Config.ofValues value) = value k := by
  cases k <;> rfl

theorem Config.ofValues_get (c : Config) : Config.ofValues (Key.get c) = c := rfl

theorem Config.eq_of_get {c d : Config} (h : ∀ k : Key, k.get c = k.get d) : c = d := by
  have hvalues : Key.get c = Key.get d := funext h
  rw [← ofValues_get c, ← ofValues_get d, hvalues]

/-! ## Names of choices -/

theorem choose?_eq_some {α : Type} {all : List α} {name : α → String} (hall : ∀ a, a ∈ all)
    (hname : Function.Injective name) {word : String} {a : α} :
    choose? all name word = some a ↔ word = name a := by
  unfold choose?
  constructor
  · intro h
    have hsame := List.find?_some h
    rw [beq_iff_eq] at hsame
    exact hsame.symm
  · rintro rfl
    have hfound : (all.find? fun b => name b == name a).isSome :=
      List.find?_isSome.mpr ⟨a, hall a, by simp⟩
    obtain ⟨b, hb⟩ := Option.isSome_iff_exists.mp hfound
    have hsame := List.find?_some hb
    rw [beq_iff_eq] at hsame
    rw [hb, hname hsame]

theorem choose?_logFormat {word : String} {f : LogFormat} :
    choose? LogFormat.all LogFormat.name word = some f ↔ word = f.name := by
  apply choose?_eq_some
  · intro f
    cases f <;> decide
  · intro f g h
    cases f <;> cases g <;> first | rfl | exact absurd h (by decide)

theorem choose?_cameraBackend {word : String} {b : CameraBackend} :
    choose? CameraBackend.all CameraBackend.name word = some b ↔ word = b.name := by
  apply choose?_eq_some
  · intro b
    cases b <;> decide
  · intro b c h
    cases b <;> cases c <;> first | rfl | exact absurd h (by decide)

end Teleop
