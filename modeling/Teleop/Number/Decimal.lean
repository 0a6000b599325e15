import Teleop.Number.Binary

/-!
# Decimals and binary numbers

A decimal is written with the fewest digits that read back as the same binary number, and among
those with the digits nearest to it. A decimal is read by rounding its exact value once.
-/

namespace Teleop.Number

/-- The value `digits * 10 ^ exponent`. -/
structure Decimal where
  digits : Nat
  exponent : Int
deriving DecidableEq, Repr

/-! ## Writing -/

/-- The fractions that round to one positive number, and the number itself, over one denominator.
The two ends belong to it if `closed`. -/
structure Basin where
  low : Nat
  value : Nat
  high : Nat
  den : Nat
  closed : Bool

/-- The basin of `mantissa * 2 ^ exponent` in `f`. Below a power of two the numbers are twice as
dense, if there are any. -/
def Basin.of (f : BinaryFormat) (mantissa : Nat) (exponent : Int) : Basin :=
  let narrow := mantissa = Nat.pow 2 f.fractionBits ∧ f.leastExponent < exponent
  let unit := scale 1 1 (exponent - 2)
  { low := (4 * mantissa - if narrow then 1 else 2) * unit.1
    value := 4 * mantissa * unit.1
    high := (4 * mantissa + 2) * unit.1
    den := unit.2
    closed := mantissa % 2 = 0 }

/-- A decimal as a fraction over `den`, both multiplied so that they are whole. -/
def Decimal.onDenominator (d : Decimal) (den : Nat) : Nat × Nat :=
  if 0 ≤ d.exponent then (d.digits * Nat.pow 10 d.exponent.toNat * den, 1)
  else (d.digits * den, Nat.pow 10 (-d.exponent).toNat)

def Basin.contains (b : Basin) (d : Decimal) : Bool :=
  let (num, scale) := d.onDenominator b.den
  if b.closed then b.low * scale ≤ num && num ≤ b.high * scale
  else b.low * scale < num && num < b.high * scale

/-- The distance of `d` from the number, as a fraction. -/
def Basin.distance (b : Basin) (d : Decimal) : Nat × Nat :=
  let (num, scale) := d.onDenominator b.den
  (max num (b.value * scale) - min num (b.value * scale), scale)

/-- The greatest `k` with `10 ^ k ≤ num / den`, for a positive fraction. -/
def floorLog10 (num den : Nat) : Int :=
  let k : Int := (Nat.toDigits 10 num).length - (Nat.toDigits 10 den).length
  let holds := if 0 ≤ k then Nat.pow 10 k.toNat * den ≤ num else den ≤ num * Nat.pow 10 (-k).toNat
  if holds then k else k - 1

/-- The decimal of the grid `10 ^ exponent` just below the number. -/
def Basin.below (b : Basin) (exponent : Int) : Decimal :=
  if 0 ≤ exponent then ⟨b.value / (b.den * Nat.pow 10 exponent.toNat), exponent⟩
  else ⟨b.value * Nat.pow 10 (-exponent).toNat / b.den, exponent⟩

/-- The better of a number's two neighbours on the grid `10 ^ exponent`, if one of them reads back
as the number. Of two at the same distance it is the upper one. -/
def Basin.onGrid? (b : Basin) (exponent : Int) : Option Decimal :=
  let down := b.below exponent
  let up : Decimal := ⟨down.digits + 1, exponent⟩
  match b.contains down, b.contains up with
  | true, true =>
    if (b.distance down).1 < (b.distance up).1 then some down else some up
  | true, false => some down
  | false, true => some up
  | false, false => none

/-- Drops zeros at the end of the digits. -/
def Decimal.dropZeros : (fuel : Nat) → Decimal → Decimal
  | 0, d => d
  | fuel + 1, d =>
    if d.digits ≠ 0 ∧ d.digits % 10 = 0 then dropZeros fuel ⟨d.digits / 10, d.exponent + 1⟩ else d

/-- Seventeen digits are enough for every format of up to 64 bits. -/
def longestDecimal : Nat := 17

/-- The shortest decimal that reads back as the number, the nearest of those. -/
def Basin.shortest (b : Basin) : Decimal :=
  let top := floorLog10 b.value b.den
  let found := (List.range longestDecimal).findSome? fun (n : Nat) => b.onGrid? (top - n)
  (found.getD (b.below (top - longestDecimal))).dropZeros longestDecimal

/-- The digits of `n` in base ten. -/
def decimalDigits (n : Nat) : List Char := Nat.toDigits 10 n

/-- Digits with a point and at least one digit on each side of it. -/
def Decimal.positional (d : Decimal) : List Char :=
  let digits := decimalDigits d.digits
  let whole := digits.length + d.exponent
  if whole ≤ 0 then ['0', '.'] ++ List.replicate (-whole).toNat '0' ++ digits
  else if digits.length ≤ whole then
    digits ++ List.replicate (whole.toNat - digits.length) '0' ++ ['.', '0']
  else digits.take whole.toNat ++ ['.'] ++ digits.drop whole.toNat

/-- The power of ten of the first digit. -/
def Decimal.magnitude (d : Decimal) : Int := (decimalDigits d.digits).length + d.exponent - 1

/-- One digit, the rest behind a point if there is a rest, and the power of ten. -/
def Decimal.scientific (d : Decimal) : List Char :=
  let digits := decimalDigits d.digits
  let point := if digits.length = 1 then [] else '.' :: digits.drop 1
  let power := if d.magnitude < 0 then '-' :: decimalDigits (-d.magnitude).toNat
    else decimalDigits d.magnitude.toNat
  digits.take 1 ++ point ++ ['e'] ++ power

/-! ## Reading -/

/-- The bits nearest to a decimal. The two guards keep the powers of ten within reach of the
format; beyond them the answer is infinity or zero. -/
def BinaryFormat.ofDecimal (f : BinaryFormat) (negative : Bool) (d : Decimal) : Nat :=
  let reach : Int := Nat.pow 2 f.exponentBits + f.fractionBits
  if d.digits = 0 then f.withSign negative 0
  else if reach < d.magnitude then f.withSign negative f.infinity
  else if d.magnitude < -reach then f.withSign negative 0
  else if 0 ≤ d.exponent then f.round negative (d.digits * Nat.pow 10 d.exponent.toNat) 1
  else f.round negative d.digits (Nat.pow 10 (-d.exponent).toNat)

/-- The value of a digit string, which holds digits only. -/
def digitsValue (cs : List Char) : Nat :=
  cs.foldl (fun n c => 10 * n + (c.toNat - '0'.toNat)) 0

/-- The value of one digit in base sixteen. -/
def hexDigit? (c : Char) : Option Nat :=
  if '0' ≤ c ∧ c ≤ '9' then some (c.toNat - '0'.toNat)
  else if 'a' ≤ c ∧ c ≤ 'f' then some (c.toNat - 'a'.toNat + 10)
  else if 'A' ≤ c ∧ c ≤ 'F' then some (c.toNat - 'A'.toNat + 10)
  else none

/-- Reads a sign, if one is there. -/
def takeSign : List Char → Bool × List Char
  | '-' :: cs => (true, cs)
  | '+' :: cs => (false, cs)
  | cs => (false, cs)

/-- The exponent part of a decimal, which may be missing. -/
def readExponent? : List Char → Option Int
  | [] => some 0
  | c :: cs =>
    let (negative, digits) := takeSign cs
    if (c = 'e' || c = 'E') && !digits.isEmpty && digits.all Char.isDigit then
      some (if negative then -(digitsValue digits : Int) else digitsValue digits)
    else none

/-- A decimal without sign: digits, at most one point among them, and maybe an exponent. -/
def readDecimal? (cs : List Char) : Option Decimal :=
  let whole := cs.takeWhile Char.isDigit
  let rest := cs.dropWhile Char.isDigit
  let (fraction, rest) := match rest with
    | '.' :: rest => (rest.takeWhile Char.isDigit, rest.dropWhile Char.isDigit)
    | rest => ([], rest)
  if whole.isEmpty && fraction.isEmpty then none
  else (readExponent? rest).map fun e =>
    ⟨digitsValue (whole ++ fraction), e - fraction.length⟩

end Teleop.Number
