import Teleop.Config.Table
import Teleop.Proofs.Config.Keys
import Teleop.Proofs.Number.Widening
import Teleop.Proofs.Text.Addresses
import Teleop.Proofs.Toml.Documents

/-!
# What a table says of a configuration

A key has its own entry, on the top or in the table of the camera or of the motor. A table stands for
the configuration with the entries that are there, and with standard values for the others.
-/

namespace Teleop

open Toml

theorem choose?_imageFormat {word : String} {f : ImageFormat} :
    choose? ImageFormat.all ImageFormat.extension word = some f ↔ word = f.extension := by
  apply choose?_eq_some
  · intro f
    cases f <;> decide
  · intro f g h
    cases f <;> cases g <;> first | rfl | exact absurd h (by decide)

theorem choose?_motorBackend {word : String} {b : MotorBackend} :
    choose? MotorBackend.all MotorBackend.name word = some b ↔ word = b.name := by
  apply choose?_eq_some
  · intro b
    cases b
    decide
  · intro b c _
    cases b
    cases c
    rfl

namespace Key

/-- The table in which a key stands, if it does not stand on the top. -/
def table? : Key → Option String
  | bindAddress | controlPort | imagePort | tlsCert | tlsKey | insecurePlaintext | defaultSpeed
  | pictureDir | pictureName | logFormat => none
  | cameraBackend | width | height | format | banner => some "camera"
  | motorBackend => some "motor"

def name : Key → String
  | bindAddress => "bind_address"
  | controlPort => "control_port"
  | imagePort => "image_port"
  | tlsCert => "tls_cert"
  | tlsKey => "tls_key"
  | insecurePlaintext => "insecure_plaintext"
  | defaultSpeed => "default_speed"
  | pictureDir => "picture_dir"
  | pictureName => "picture_name"
  | logFormat => "log_format"
  | cameraBackend | motorBackend => "backend"
  | width => "width"
  | height => "height"
  | format => "format"
  | banner => "banner"

/-- The value in the entry of a key. -/
def entry (c : Config) : Key → Value
  | bindAddress => .string c.bindAddress.text
  | controlPort => .integer c.controlPort.toNat
  | imagePort => .integer c.imagePort.toNat
  | tlsCert => .string c.tlsCert
  | tlsKey => .string c.tlsKey
  | insecurePlaintext => .boolean c.insecurePlaintext
  | defaultSpeed => .float c.defaultSpeed.toDouble
  | pictureDir => .string c.pictureDir
  | pictureName => .string c.pictureName
  | logFormat => .string c.logFormat.name
  | cameraBackend => .string c.camera.backend.name
  | width => .integer c.camera.settings.width.toNat
  | height => .integer c.camera.settings.height.toNat
  | format => .string c.camera.settings.format.extension
  | banner => .boolean c.camera.settings.banner
  | motorBackend => .string c.motor.name

/-- How the value in an entry is read. -/
def ofEntry? : (k : Key) → Value → Option k.Kind
  | bindAddress => Value.address?
  | controlPort | imagePort => Value.portNumber?
  | tlsCert | tlsKey | pictureDir | pictureName => Value.text?
  | insecurePlaintext | banner => Value.boolean?
  | defaultSpeed => Value.speed?
  | logFormat => Value.choice? (choose? LogFormat.all LogFormat.name) isNothing
  | cameraBackend => readCameraBackend?
  | width | height => Value.pixels?
  | format => Value.choice? (choose? ImageFormat.all ImageFormat.extension) Value.isEmptyTable
  | motorBackend => readMotorBackend?

theorem portNumber?_integer (n : UInt16) : (Value.integer n.toNat).portNumber? = some n := by
  have hn : n.toNat < UInt16.size := n.toNat_lt
  unfold Value.portNumber? Value.below?
  simp only
  rw [if_pos ⟨by omega, by omega⟩]
  simp

theorem pixels?_integer (n : UInt32) : (Value.integer n.toNat).pixels? = some n := by
  have hn : n.toNat < UInt32.size := n.toNat_lt
  unfold Value.pixels? Value.below?
  simp only
  rw [if_pos ⟨by omega, by omega⟩]
  simp

theorem ofEntry?_entry {c : Config} (h : c.defaultSpeed.isNaN = false) (k : Key) :
    k.ofEntry? (k.entry c) = some (k.get c) := by
  cases k with
  | bindAddress => exact Address.parse?_text c.bindAddress
  | controlPort => exact portNumber?_integer c.controlPort
  | imagePort => exact portNumber?_integer c.imagePort
  | defaultSpeed => exact congrArg some (Speed.ofDouble_toDouble h)
  | logFormat => exact choose?_logFormat.mpr rfl
  | cameraBackend => exact choose?_cameraBackend.mpr rfl
  | width => exact pixels?_integer c.camera.settings.width
  | height => exact pixels?_integer c.camera.settings.height
  | format => exact choose?_imageFormat.mpr rfl
  | motorBackend => exact choose?_motorBackend.mpr rfl
  | tlsCert | tlsKey | insecurePlaintext | pictureDir | pictureName | banner => rfl

/-- The entry of a key in a document. -/
def find? (k : Key) (t : Table) : Option Value :=
  match k.table? with
  | none => t.get? k.name
  | some name =>
    match t.get? name with
    | some (.table inner) => Table.get? inner k.name
    | _ => none

end Key

/-- A table holds the entries of `keys` as the configuration has them, and no entry of another key.
What else it holds is open, but the tables of the camera and the motor are tables if they are there. -/
structure Shows (t : Table) (c : Config) (keys : Finset Key) : Prop where
  entries : ∀ k : Key, k.find? t = if k ∈ keys then some (k.entry c) else none
  tables : ∀ (k : Key) (name : String), k.table? = some name →
    t.get? name = none ∨ ∃ inner, t.get? name = some (.table inner)

/-- The configuration that has the values of one on `keys` and of another everywhere else. -/
def Config.mixed (keys : Finset Key) (c other : Config) : Config :=
  .ofValues fun k => if k ∈ keys then k.get c else k.get other

/-! ## Reading -/

variable {t inner : Table} {c : Config} {keys : Finset Key}

theorem field?_of_entry {α : Type} {name : String} {standard a : α} {read : Value → Option α} {v : Value}
    {shown : Prop} [Decidable shown] (h : t.get? name = if shown then some v else none)
    (hread : read v = some a) :
    t.field? name standard read = some (if shown then a else standard) := by
  unfold Table.field?
  rw [h]
  split_ifs
  · exact hread
  · rfl

theorem Shows.field?_top (h : Shows t c keys) (hspeed : c.defaultSpeed.isNaN = false) (k : Key)
    (hk : k.table? = none) (standard : k.Kind) :
    t.field? k.name standard k.ofEntry? = some (if k ∈ keys then k.get c else standard) := by
  have hentry := h.entries k
  rw [Key.find?, hk] at hentry
  exact field?_of_entry hentry (k.ofEntry?_entry hspeed)

theorem Shows.field?_inner (h : Shows t c keys) (hspeed : c.defaultSpeed.isNaN = false) (k : Key)
    {name : String} (hk : k.table? = some name) (ht : t.get? name = some (.table inner))
    (standard : k.Kind) :
    Table.field? inner k.name standard k.ofEntry? =
      some (if k ∈ keys then k.get c else standard) := by
  have hentry := h.entries k
  rw [Key.find?, hk] at hentry
  simp only [ht] at hentry
  exact field?_of_entry hentry (k.ofEntry?_entry hspeed)

theorem Shows.not_mem (h : Shows t c keys) (k : Key) {name : String} (hk : k.table? = some name)
    (ht : t.get? name = none) : k ∉ keys := by
  intro hmem
  have hentry := h.entries k
  rw [Key.find?, hk] at hentry
  simp [ht, hmem] at hentry

theorem Shows.camera (h : Shows t c keys) (hspeed : c.defaultSpeed.isNaN = false) (env : Environment) :
    t.field? "camera" (Config.standard env).camera CameraConfig.ofValue? =
      some (Config.mixed keys c (.standard env)).camera := by
  unfold Table.field?
  rcases h.tables .cameraBackend "camera" rfl with ht | ⟨inner, ht⟩
  · rw [ht]
    simp only [Config.mixed, Config.ofValues, if_neg (h.not_mem .cameraBackend rfl ht),
      if_neg (h.not_mem .width rfl ht), if_neg (h.not_mem .height rfl ht),
      if_neg (h.not_mem .format rfl ht), if_neg (h.not_mem .banner rfl ht)]
    rfl
  · have hbackend := h.field?_inner hspeed .cameraBackend rfl ht .fswebcam
    have hwidth := h.field?_inner hspeed .width rfl ht ({} : CameraSettings).width
    have hheight := h.field?_inner hspeed .height rfl ht ({} : CameraSettings).height
    have hformat := h.field?_inner hspeed .format rfl ht ({} : CameraSettings).format
    have hbanner := h.field?_inner hspeed .banner rfl ht ({} : CameraSettings).banner
    simp only [Key.name, Key.ofEntry?] at hbackend hwidth hheight hformat hbanner
    rw [ht]
    simp only [CameraConfig.ofValue?, CameraSettings.ofTable?, hbackend, hwidth, hheight, hformat,
      hbanner]
    rfl

theorem Shows.motor (h : Shows t c keys) (hspeed : c.defaultSpeed.isNaN = false) (env : Environment) :
    t.field? "motor" (Config.standard env).motor readMotor? =
      some (Config.mixed keys c (.standard env)).motor := by
  unfold Table.field?
  rcases h.tables .motorBackend "motor" rfl with ht | ⟨inner, ht⟩
  · simp only [ht, Config.mixed, Config.ofValues, if_neg (h.not_mem .motorBackend rfl ht), Key.get]
  · rw [ht]
    exact h.field?_inner hspeed .motorBackend rfl ht .sim

theorem Shows.ofTable? (h : Shows t c keys) (hspeed : c.defaultSpeed.isNaN = false)
    (env : Environment) :
    Config.ofTable? (.standard env) t = some (Config.mixed keys c (.standard env)) := by
  have htop (k : Key) (hk : k.table? = none) := h.field?_top hspeed k hk (k.get (.standard env))
  have hbind := htop .bindAddress rfl
  have hcontrol := htop .controlPort rfl
  have himage := htop .imagePort rfl
  have hcert := htop .tlsCert rfl
  have hkey := htop .tlsKey rfl
  have hplain := htop .insecurePlaintext rfl
  have hspeed' := htop .defaultSpeed rfl
  have hdir := htop .pictureDir rfl
  have hname := htop .pictureName rfl
  have hlog := htop .logFormat rfl
  simp only [Key.name, Key.ofEntry?, Key.get] at hbind hcontrol himage hcert hkey
  simp only [Key.name, Key.ofEntry?, Key.get] at hplain hspeed' hdir hname hlog
  unfold Config.ofTable?
  rw [hbind, hcontrol, himage, hcert, hkey, hplain, hspeed', hdir, hname, hlog, h.camera hspeed,
    h.motor hspeed]
  rfl

/-! ## Writing -/

namespace Key

/-- The keys on the top, in their order. -/
def top : List Key :=
  [bindAddress, controlPort, imagePort, tlsCert, tlsKey, insecurePlaintext, defaultSpeed, pictureDir,
    pictureName, logFormat]

def ofCamera : List Key := [cameraBackend, width, height, format, banner]

def ofMotor : List Key := [motorBackend]

def all : Finset Key := ⟨top ++ ofCamera ++ ofMotor, by decide⟩

theorem mem_all (k : Key) : k ∈ all := by
  cases k <;> decide

end Key

namespace Config

/-- The entries of some keys. -/
def entries (c : Config) (ks : List Key) : Table := ks.map fun k => (k.name, k.entry c)

/-- The tables of the camera and the motor with the entries of `keys`. -/
def sections (c : Config) (keys : Finset Key) : List (String × Table) :=
  [("camera", c.entries (Key.ofCamera.filter (· ∈ keys))),
    ("motor", c.entries (Key.ofMotor.filter (· ∈ keys)))]

/-- A table with the entries of `keys` and nothing else. -/
def tableOf (c : Config) (keys : Finset Key) : Table :=
  document (c.entries (Key.top.filter (· ∈ keys))) (c.sections keys)

theorem tableOf_all (c : Config) : c.tableOf Key.all = c.toTable := by
  have hall (ks : List Key) : ks.filter (· ∈ Key.all) = ks :=
    List.filter_eq_self.mpr fun k _ => decide_eq_true k.mem_all
  unfold tableOf sections
  simp only [hall]
  rfl

end Config

namespace Key

theorem isScalar_entry (h : c.defaultSpeed.isNaN = false) (k : Key) : (k.entry c).IsScalar := by
  have hport (n : UInt16) : (Value.integer n.toNat).IsScalar := by
    have hn : n.toNat < 65536 := n.toNat_lt
    exact ⟨by unfold leastInteger; omega, by unfold greatestInteger; omega⟩
  have hpixels (n : UInt32) : (Value.integer n.toNat).IsScalar := by
    have hn : n.toNat < 4294967296 := n.toNat_lt
    exact ⟨by unfold leastInteger; omega, by unfold greatestInteger; omega⟩
  cases k with
  | controlPort => exact hport c.controlPort
  | imagePort => exact hport c.imagePort
  | defaultSpeed => exact Speed.toDouble_isNumber h
  | width => exact hpixels c.camera.settings.width
  | height => exact hpixels c.camera.settings.height
  | _ => trivial

theorem isBareKey_name (k : Key) : IsBareKey k.name := by
  cases k <;> decide

theorem mem_top : ∀ k : Key, k.table? = none → k ∈ top := by
  rintro (_ | _) <;> decide

theorem mem_ofCamera : ∀ k : Key, k.table? = some "camera" → k ∈ ofCamera := by
  rintro (_ | _) <;> decide

theorem mem_ofMotor : ∀ k : Key, k.table? = some "motor" → k ∈ ofMotor := by
  rintro (_ | _) <;> decide

theorem table?_cases (k : Key) :
    k.table? = none ∨ k.table? = some "camera" ∨ k.table? = some "motor" := by
  cases k <;> decide

theorem eq_or_eq_of_table? {k : Key} {name : String} (h : k.table? = some name) :
    name = "camera" ∨ name = "motor" := by
  rcases k.table?_cases with hk | hk | hk
  · rw [hk] at h
    cases h
  · left
    exact Option.some.inj (h.symm.trans hk)
  · right
    exact Option.some.inj (h.symm.trans hk)

end Key

theorem keys_entries (c : Config) (ks : List Key) :
    (c.entries ks).map Prod.fst = ks.map Key.name := by
  simp [Config.entries]

theorem isPlainTable_entries (h : c.defaultSpeed.isNaN = false) {ks : List Key}
    (hks : (ks.map Key.name).Nodup) : IsPlainTable (c.entries ks) := by
  refine ⟨by rwa [keys_entries], ?_, ?_⟩
  · intro p hp
    obtain ⟨k, -, rfl⟩ := List.mem_map.mp hp
    exact k.isBareKey_name
  · intro p hp
    obtain ⟨k, -, rfl⟩ := List.mem_map.mp hp
    exact k.isScalar_entry h

theorem lookup_entries (c : Config) {ks : List Key} (hks : (ks.map Key.name).Nodup) {k : Key}
    (hk : k ∈ ks) (keys : Finset Key) :
    (c.entries (ks.filter (· ∈ keys))).lookup k.name = if k ∈ keys then some (k.entry c) else none := by
  induction ks with
  | nil => cases hk
  | cons k' ks ih =>
    rw [List.map_cons, List.nodup_cons] at hks
    rcases List.mem_cons.mp hk with rfl | hk
    · split_ifs with hmem
      · rw [List.filter_cons_of_pos (by simpa using hmem)]
        simp [Config.entries]
      · rw [List.filter_cons_of_neg (by simpa using hmem)]
        apply lookup_of_not_mem
        rw [keys_entries]
        exact fun hname => hks.1 ((List.filter_sublist.map _).subset hname)
    · have hne : k.name ≠ k'.name := by
        intro heq
        exact hks.1 (heq ▸ List.mem_map_of_mem hk)
      by_cases hmem : k' ∈ keys
      · rw [List.filter_cons_of_pos (by simpa using hmem), Config.entries, List.map_cons,
          List.lookup_cons, beq_false_of_ne hne]
        exact ih hks.2 hk
      · rw [List.filter_cons_of_neg (by simpa using hmem)]
        exact ih hks.2 hk

theorem isDocument_tableOf (h : c.defaultSpeed.isNaN = false) (keys : Finset Key) :
    IsDocument (c.entries (Key.top.filter (· ∈ keys))) (c.sections keys) := by
  have hsub (ks : List Key) : ((ks.filter (· ∈ keys)).map Key.name).Sublist (ks.map Key.name) :=
    List.filter_sublist.map _
  refine ⟨?_, isPlainTable_entries h ((hsub _).nodup (by decide)), ?_, ?_⟩
  · rw [keys_entries]
    exact ((hsub Key.top).append_right ["camera", "motor"]).nodup (by decide)
  · intro s hs
    simp only [Config.sections, List.mem_cons, List.not_mem_nil, or_false] at hs
    rcases hs with rfl | rfl
    · exact (by decide : IsBareKey "camera")
    · exact (by decide : IsBareKey "motor")
  · intro s hs
    simp only [Config.sections, List.mem_cons, List.not_mem_nil, or_false] at hs
    rcases hs with rfl | rfl
    · exact isPlainTable_entries h ((hsub _).nodup (by decide))
    · exact isPlainTable_entries h ((hsub _).nodup (by decide))

theorem name_ne_of_top : ∀ k ∈ Key.top, k.name ≠ "camera" ∧ k.name ≠ "motor" := by decide

theorem lookup_top_eq_none (c : Config) (keys : Finset Key) {name : String}
    (hname : ∀ k ∈ Key.top, k.name ≠ name) :
    (c.entries (Key.top.filter (· ∈ keys))).lookup name = none := by
  apply lookup_of_not_mem
  rw [keys_entries]
  intro hmem
  obtain ⟨k, hk, heq⟩ := List.mem_map.mp hmem
  exact hname k (List.mem_of_mem_filter hk) heq

theorem get?_camera (c : Config) (keys : Finset Key) :
    (c.tableOf keys).get? "camera" = some (.table (c.entries (Key.ofCamera.filter (· ∈ keys)))) := by
  unfold Table.get? Config.tableOf document
  rw [List.lookup_append, lookup_top_eq_none c keys fun k hk => (name_ne_of_top k hk).1]
  rfl

theorem get?_motor (c : Config) (keys : Finset Key) :
    (c.tableOf keys).get? "motor" = some (.table (c.entries (Key.ofMotor.filter (· ∈ keys)))) := by
  unfold Table.get? Config.tableOf document
  rw [List.lookup_append, lookup_top_eq_none c keys fun k hk => (name_ne_of_top k hk).2]
  rfl

theorem get?_top (c : Config) (keys : Finset Key) {k : Key} (hk : k ∈ Key.top) :
    (c.tableOf keys).get? k.name = if k ∈ keys then some (k.entry c) else none := by
  obtain ⟨hcamera, hmotor⟩ := name_ne_of_top k hk
  unfold Table.get? Config.tableOf document
  rw [List.lookup_append, lookup_entries c (by decide) hk keys]
  split_ifs
  · rfl
  · simp [Config.sections, List.lookup_cons, beq_false_of_ne hcamera, beq_false_of_ne hmotor]

theorem shows_tableOf (c : Config) (keys : Finset Key) : Shows (c.tableOf keys) c keys := by
  constructor
  · intro k
    unfold Key.find?
    rcases k.table?_cases with hk | hk | hk
    · rw [hk]
      exact get?_top c keys (k.mem_top hk)
    · rw [hk]
      simp only [get?_camera]
      exact lookup_entries c (by decide) (k.mem_ofCamera hk) keys
    · rw [hk]
      simp only [get?_motor]
      exact lookup_entries c (by decide) (k.mem_ofMotor hk) keys
  · intro k name hk
    right
    rcases Key.eq_or_eq_of_table? hk with rfl | rfl
    · exact ⟨_, get?_camera c keys⟩
    · exact ⟨_, get?_motor c keys⟩

theorem read?_tableOf (h : c.defaultSpeed.isNaN = false) (keys : Finset Key) :
    Toml.read? (Toml.write (c.tableOf keys)) = some (c.tableOf keys) :=
  read?_write (isDocument_tableOf h keys)

end Teleop
