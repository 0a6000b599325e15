import Teleop.Number.Decimal

/-!
# Speeds

A speed is a single-precision number, kept as its bits. Motions take speeds from zero to one.
-/

namespace Teleop

open Number

structure Speed where
  bits : UInt32
deriving DecidableEq, Repr, Inhabited

namespace Speed

def zero : Speed := ⟨0⟩
def one : Speed := ⟨0x3F800000⟩

/-- The speed of a motion when nothing else is set: one half. -/
def standard : Speed := ⟨0x3F000000⟩

def magnitude (s : Speed) : Nat := BinaryFormat.single.magnitude s.bits.toNat

def isNegative (s : Speed) : Bool := BinaryFormat.single.isNegative s.bits.toNat

def isNaN (s : Speed) : Bool := BinaryFormat.single.infinity < s.magnitude

/-- Numbers compare as their ranks do. Both zeros have rank zero. -/
def rank (s : Speed) : Int := if s.isNegative then -(s.magnitude : Int) else s.magnitude

/-- A number from zero to one. -/
def InUnit (s : Speed) : Prop := s.isNaN = false ∧ 0 ≤ s.rank ∧ s.rank ≤ one.rank

instance (s : Speed) : Decidable s.InUnit := inferInstanceAs (Decidable (_ ∧ _))

/-- The nearest speed from zero to one; zero for what is no number. -/
def normalize (s : Speed) : Speed :=
  if s.isNaN then zero
  else if s.rank < zero.rank then zero
  else if one.rank < s.rank then one
  else s

theorem normalize_inUnit (s : Speed) : s.normalize.InUnit := by
  rw [normalize]
  split
  · decide
  · split
    · decide
    · split
      · decide
      · rename_i hn hl hh
        exact ⟨by simpa using hn, by simpa [show zero.rank = 0 by decide] using hl, by omega⟩

theorem normalize_of_inUnit {s : Speed} (h : s.InUnit) : s.normalize = s := by
  obtain ⟨hn, hl, hh⟩ := h
  have hz : zero.rank = 0 := by decide
  rw [normalize, if_neg (by simp [hn]), if_neg (by omega), if_neg (by omega)]

/-! ## Text -/

def ofBits (n : Nat) : Speed := ⟨UInt32.ofNat n⟩

def value (s : Speed) : BinaryValue := BinaryFormat.single.read s.bits.toNat

/-- The shortest digits that read back, with a point, or with a power of ten if the number is
below `1e-4` or from `1e16` on. -/
def text (s : Speed) : String :=
  let sign := if s.isNegative then "-" else ""
  match s.value with
  | .nan => "NaN"
  | .infinite _ => sign ++ "inf"
  | .finite _ 0 _ => sign ++ "0.0"
  | .finite _ m e =>
    let d := (Basin.of .single m e).shortest
    sign ++ String.ofList
      (if -4 ≤ d.magnitude ∧ d.magnitude < 16 then d.positional else d.scientific)

/-- Reads a decimal, `inf`, `infinity` or `nan`, in any case and with an optional sign. -/
def parse? (s : String) : Option Speed :=
  let (negative, body) := takeSign s.toList
  let name := String.ofList (body.map Char.toLower)
  let single := BinaryFormat.single
  if name = "inf" ∨ name = "infinity" then some (ofBits (single.withSign negative single.infinity))
  else if name = "nan" then some (ofBits (single.withSign negative (single.ofValue .nan)))
  else (readDecimal? body).map fun d => ofBits (single.ofDecimal negative d)

/-- The speed nearest to a double-precision number. -/
def ofDouble (bits : Nat) : Speed := ofBits (BinaryFormat.single.ofValue (BinaryFormat.double.read bits))

def ofInt (i : Int) : Speed := ofBits (BinaryFormat.single.round (i < 0) i.natAbs 1)

/-- The same number in double precision. -/
def toDouble (s : Speed) : Nat := BinaryFormat.double.ofValue s.value

end Speed

end Teleop
