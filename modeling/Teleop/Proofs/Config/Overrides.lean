import Teleop.Config.Overrides
import Teleop.Proofs.Config.Keys
import Teleop.Proofs.Text.Addresses

/-!
# What the environment changes

Seven keys have a variable. Each takes what its own variable says, if the whole text says something,
and keeps its value otherwise; no other key changes.
-/

namespace Teleop

open Number

/-! ## What a text may say -/

/-- A decimal number of 16 bits, and maybe a plus in front. -/
def IsPort (s : String) (n : UInt16) : Prop :=
  ∃ digits, Numeral 10 digits n.toNat ∧ (s.toList = digits ∨ s.toList = '+' :: digits)

theorem plus_not_mem {ds : List Char} {n : Nat} (h : Numeral 10 ds n) : '+' ∉ ds :=
  fun hmem => absurd (h.isDigit _ hmem) (by decide)

theorem digitsOfPort_eq_some {ds : List Char} {n : UInt16} :
    (if ds.isEmpty || !ds.all Char.isDigit then none
      else if digitsValue ds < UInt16.size then some (UInt16.ofNat (digitsValue ds)) else none) =
        some n ↔ Numeral 10 ds n.toNat := by
  have hn : n.toNat < UInt16.size := n.toNat_lt
  constructor
  · intro h
    split_ifs at h with h1 h2
    simp only [Bool.or_eq_true, List.isEmpty_iff, Bool.not_eq_true', not_or, Bool.not_eq_false,
      List.all_eq_true] at h1
    rw [← Option.some.inj h, UInt16.toNat_ofNat_of_lt' h2]
    exact numeral_digitsValue h1.1 h1.2
  · intro h
    obtain ⟨hne, hall, hvalue⟩ := numeral_ten_iff.mp h
    have hall' : ds.all Char.isDigit = true := List.all_eq_true.mpr hall
    rw [hall', hvalue, if_neg (by simpa using hne), if_pos hn]
    simp

theorem portNumber?_eq_some {s : String} {n : UInt16} : portNumber? s = some n ↔ IsPort s n := by
  unfold portNumber? IsPort
  split
  · rename_i cs hplus
    rw [digitsOfPort_eq_some, hplus]
    constructor
    · intro h
      exact ⟨cs, h, Or.inr rfl⟩
    · rintro ⟨ds, hds, h | h⟩
      · exact absurd (h ▸ List.mem_cons_self) (plus_not_mem hds)
      · rwa [(List.cons.inj h).2]
  · rename_i hplus
    rw [digitsOfPort_eq_some]
    constructor
    · intro h
      exact ⟨s.toList, h, Or.inl rfl⟩
    · rintro ⟨ds, hds, h | h⟩
      · rwa [h]
      · exact absurd h (hplus ds)

theorem namedPath?_eq_some {s : String} {p : Path} : namedPath? s = some p ↔ s ≠ "" ∧ p = s := by
  unfold namedPath?
  split_ifs with h
  · simp [h]
  · simp [h, eq_comm]

namespace Key

/-- The variable that can change a key. -/
def setBy? : Key → Option String
  | bindAddress => some "ROBOPI_BIND_ADDRESS"
  | controlPort => some "ROBOPI_CONTROL_PORT"
  | imagePort => some "ROBOPI_IMAGE_PORT"
  | tlsCert => some "ROBOPI_TLS_CERT"
  | tlsKey => some "ROBOPI_TLS_KEY"
  | cameraBackend => some "ROBOPI_CAMERA_BACKEND"
  | logFormat => some "ROBOPI_LOG_FORMAT"
  | insecurePlaintext | defaultSpeed | pictureDir | pictureName | width | height | format | banner
  | motorBackend => none

/-- The whole text of a variable stands for this value. -/
def Says : (k : Key) → String → k.Kind → Prop
  | bindAddress, s, a => Address.Spells s a
  | controlPort, s, n | imagePort, s, n => IsPort s n
  | tlsCert, s, p | tlsKey, s, p => s ≠ "" ∧ p = s
  | cameraBackend, s, b => s = b.name
  | logFormat, s, f => s = f.name
  | insecurePlaintext, _, _ | defaultSpeed, _, _ | pictureDir, _, _ | pictureName, _, _
  | width, _, _ | height, _, _ | format, _, _ | banner, _, _ | motorBackend, _, _ => False

/-- What is set for a key. -/
def setting? (k : Key) (env : Environment) : Option String := k.setBy?.bind env.get?

/-- How the text of a variable is read. -/
def read? : (k : Key) → String → Option k.Kind
  | bindAddress => Address.parse?
  | controlPort | imagePort => portNumber?
  | tlsCert | tlsKey => namedPath?
  | cameraBackend => choose? CameraBackend.all CameraBackend.name
  | logFormat => choose? LogFormat.all LogFormat.name
  | insecurePlaintext | defaultSpeed | pictureDir | pictureName | width | height | format | banner
  | motorBackend => fun _ => none

theorem read?_eq_some {k : Key} {s : String} {a : k.Kind} : k.read? s = some a ↔ k.Says s a := by
  cases k with
  | bindAddress => exact Address.parse?_iff
  | controlPort => exact portNumber?_eq_some
  | imagePort => exact portNumber?_eq_some
  | tlsCert => exact namedPath?_eq_some
  | tlsKey => exact namedPath?_eq_some
  | cameraBackend => exact choose?_cameraBackend
  | logFormat => exact choose?_logFormat
  | _ => simp [read?, Says]

theorem get_override (k : Key) (env : Environment) (c : Config) :
    k.get (c.override env) = ((k.setting? env).bind k.read?).getD (k.get c) := by
  cases k <;> rfl

end Key

/-! ## What follows from what is set -/

/-- The new value is what the text says, and the old one if there is no text or it says nothing. -/
def Follows {α : Type} (Says : String → α → Prop) (text : Option String) (old new : α) : Prop :=
  (∃ s, text = some s ∧ Says s new) ∨ (∀ s a, text = some s → ¬ Says s a) ∧ new = old

namespace Key

variable {k : Key} {text : Option String}

theorem says_iff {a : k.Kind} : (∃ s, text = some s ∧ k.Says s a) ↔ text.bind k.read? = some a := by
  simp only [Option.bind_eq_some_iff, read?_eq_some]

theorem says_nothing_iff :
    (∀ s a, text = some s → ¬ k.Says s a) ↔ text.bind k.read? = none := by
  rw [Option.eq_none_iff_forall_not_mem]
  constructor
  · intro h a ha
    obtain ⟨s, hs, hsays⟩ := says_iff.mpr ha
    exact h s a hs hsays
  · intro h s a hs hsays
    exact h a (says_iff.mp ⟨s, hs, hsays⟩)

theorem follows_iff {old new : k.Kind} :
    Follows k.Says text old new ↔ new = (text.bind k.read?).getD old := by
  unfold Follows
  rw [says_iff, says_nothing_iff]
  cases text.bind k.read? with
  | none => simp
  | some a => simp [eq_comm]

end Key

/-- Every key follows its own variable, and so does no other configuration. Twice is the same as once,
and a variable that says something decides its key whatever the configuration was. -/
theorem Config.follows_environment (env : Environment) (c : Config) :
    (∀ k : Key, Follows k.Says (k.setting? env) (k.get c) (k.get (c.override env))) ∧
      (∀ d : Config, (∀ k : Key, Follows k.Says (k.setting? env) (k.get c) (k.get d)) →
        d = c.override env) ∧
      (∀ k : Key, k.setBy? = none → k.get (c.override env) = k.get c) ∧
      (∀ (k : Key) (env' : Environment), k.setting? env' = k.setting? env →
        k.get (c.override env') = k.get (c.override env)) ∧
      (c.override env).override env = c.override env ∧
      ∀ (k : Key) (s : String) (a : k.Kind), k.setting? env = some s → k.Says s a →
        ∀ d : Config, k.get (d.override env) = a := by
  have hfollows : ∀ k : Key, Follows k.Says (k.setting? env) (k.get c) (k.get (c.override env)) :=
    fun k => Key.follows_iff.mpr (k.get_override env c)
  refine ⟨hfollows, ?_, ?_, ?_, ?_, ?_⟩
  · intro d hd
    apply Config.eq_of_get
    intro k
    rw [Key.follows_iff.mp (hd k), k.get_override]
  · intro k hk
    rw [k.get_override, Key.setting?, hk]
    rfl
  · intro k env' henv
    rw [k.get_override, k.get_override, henv]
  · apply Config.eq_of_get
    intro k
    rw [k.get_override, k.get_override]
    cases (k.setting? env).bind k.read? <;> rfl
  · intro k s a hs hsays d
    rw [k.get_override, hs, Option.bind_some, Key.read?_eq_some.mpr hsays]
    rfl

end Teleop
