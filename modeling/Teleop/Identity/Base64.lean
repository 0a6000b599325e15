import Teleop.Bytes

/-!
# Base64

Four letters stand for three bytes. White space between them means nothing. One or two `=` at the end
fill up the last four.
-/

namespace Teleop.Base64

def isBlank (b : UInt8) : Bool := b == 0x20 || (0x09 ≤ b && b ≤ 0x0D)

def padding : UInt8 := 0x3D

/-- The value of a letter. -/
def value? (b : UInt8) : Option Nat :=
  let n := b.toNat
  if 0x41 ≤ n ∧ n ≤ 0x5A then some (n - 0x41)
  else if 0x61 ≤ n ∧ n ≤ 0x7A then some (n - 0x61 + 26)
  else if 0x30 ≤ n ∧ n ≤ 0x39 then some (n - 0x30 + 52)
  else if n = 0x2B then some 62
  else if n = 0x2F then some 63
  else none

/-- The bytes that letters stand for, four letters at a time. The last group may be short. -/
def group : List Nat → Bytes
  | a :: b :: c :: d :: rest =>
    UInt8.ofNat (4 * a + b / 16) :: UInt8.ofNat (16 * (b % 16) + c / 4)
      :: UInt8.ofNat (64 * (c % 4) + d) :: group rest
  | [a, b, c] => [UInt8.ofNat (4 * a + b / 16), UInt8.ofNat (16 * (b % 16) + c / 4)]
  | [a, b] => [UInt8.ofNat (4 * a + b / 16)]
  | _ => []

def decode? (bytes : Bytes) : Option Bytes :=
  let signs := bytes.filter (!isBlank ·)
  let letters := signs.takeWhile (· != padding)
  let tail := signs.drop letters.length
  if signs.length % 4 = 0 ∧ tail.length ≤ 2 ∧ tail.all (· == padding) then
    (letters.mapM value?).map group
  else none

end Teleop.Base64
