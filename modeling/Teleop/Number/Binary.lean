/-!
# Binary floating-point formats

A format is given by two widths, as in IEEE 754. Bit patterns are natural numbers and values are
exact fractions, so reading and rounding need no floating-point arithmetic.
-/

namespace Teleop.Number

structure BinaryFormat where
  fractionBits : Nat
  exponentBits : Nat
deriving DecidableEq, Repr

namespace BinaryFormat

def single : BinaryFormat := ⟨23, 8⟩
def double : BinaryFormat := ⟨52, 11⟩

/-- The least positive magnitude is two to this power. -/
def leastExponent (f : BinaryFormat) : Int := 2 - (Nat.pow 2 (f.exponentBits - 1) : Int) - f.fractionBits

/-- The magnitude that stands for infinity. Magnitudes above it are no numbers. -/
def infinity (f : BinaryFormat) : Nat := (Nat.pow 2 f.exponentBits - 1) * Nat.pow 2 f.fractionBits

/-- The sign bit alone. -/
def signBit (f : BinaryFormat) : Nat := Nat.pow 2 (f.fractionBits + f.exponentBits)

/-- A bit pattern without its sign. -/
def magnitude (f : BinaryFormat) (bits : Nat) : Nat := bits % f.signBit

def isNegative (f : BinaryFormat) (bits : Nat) : Bool := f.signBit ≤ bits

end BinaryFormat

/-- What a bit pattern stands for. A finite value is `±mantissa * 2 ^ exponent`. -/
inductive BinaryValue where
  | nan
  | infinite (negative : Bool)
  | finite (negative : Bool) (mantissa : Nat) (exponent : Int)
deriving DecidableEq, Repr

namespace BinaryFormat

def read (f : BinaryFormat) (bits : Nat) : BinaryValue :=
  let negative := f.isNegative bits
  let magnitude := f.magnitude bits
  if f.infinity < magnitude then .nan
  else if magnitude = f.infinity then .infinite negative
  else
    let fraction := magnitude % Nat.pow 2 f.fractionBits
    match magnitude / Nat.pow 2 f.fractionBits with
    | 0 => .finite negative fraction f.leastExponent
    | e + 1 => .finite negative (Nat.pow 2 f.fractionBits + fraction) (f.leastExponent + e)

end BinaryFormat

/-! ## Rounding -/

/-- `n / d` to the nearest natural number, a half to the even one. -/
def divNearest (n d : Nat) : Nat :=
  let q := n / d
  let r := n % d
  if 2 * r < d then q else if d < 2 * r then q + 1 else if q % 2 = 0 then q else q + 1

/-- A positive fraction scaled by two to a power. -/
def scale (num den : Nat) (e : Int) : Nat × Nat :=
  if 0 ≤ e then (num * Nat.pow 2 e.toNat, den) else (num, den * Nat.pow 2 (-e).toNat)

/-- The greatest `e` with `2 ^ e ≤ num / den`, for a positive fraction. -/
def floorLog2 (num den : Nat) : Int :=
  let e : Int := Nat.log2 num - Nat.log2 den
  let scaled := scale num den (-e)
  if scaled.2 ≤ scaled.1 then e else e - 1

namespace BinaryFormat

/-- The magnitude nearest to `num / den`, ties to the even one, infinity if it is too large. -/
def roundMagnitude (f : BinaryFormat) (num den : Nat) : Nat :=
  if num = 0 then 0
  else
    let unit := max (floorLog2 num den - f.fractionBits) f.leastExponent
    let scaled := scale num den (-unit)
    min f.infinity
      ((unit - f.leastExponent).toNat * Nat.pow 2 f.fractionBits + divNearest scaled.1 scaled.2)

def withSign (f : BinaryFormat) (negative : Bool) (magnitude : Nat) : Nat :=
  if negative then f.signBit + magnitude else magnitude

/-- The bits nearest to `±num / den`. -/
def round (f : BinaryFormat) (negative : Bool) (num den : Nat) : Nat :=
  f.withSign negative (f.roundMagnitude num den)

/-- The bits in `f` nearest to an exact value. A value that is no number stays none. -/
def ofValue (f : BinaryFormat) : BinaryValue → Nat
  | .nan => f.infinity + Nat.pow 2 (f.fractionBits - 1)
  | .infinite negative => f.withSign negative f.infinity
  | .finite negative m e =>
    let fraction := scale m 1 e
    f.round negative fraction.1 fraction.2

end BinaryFormat

end Teleop.Number
