import Teleop.Bytes

/-!
# Reading bytes as text

UTF-8 in two ways. `decode?` refuses bytes that are no text. `lossy` never fails: it puts U+FFFD
for each maximal part that starts no character. Both look at the same table, which says what the
second byte of a sequence may be.
-/

namespace Teleop.Text

/-- How a first byte goes on: the bytes that follow it, and the bounds of the second. -/
structure Lead where
  follow : Nat
  low : Nat
  high : Nat

/-- `none` for a byte that starts no character. -/
def Lead.of? (b : Nat) : Option Lead :=
  if b < 0x80 then some ⟨0, 0x80, 0xBF⟩
  else if b < 0xC2 then none
  else if b < 0xE0 then some ⟨1, 0x80, 0xBF⟩
  else if b = 0xE0 then some ⟨2, 0xA0, 0xBF⟩
  else if b = 0xED then some ⟨2, 0x80, 0x9F⟩
  else if b < 0xF0 then some ⟨2, 0x80, 0xBF⟩
  else if b = 0xF0 then some ⟨3, 0x90, 0xBF⟩
  else if b < 0xF4 then some ⟨3, 0x80, 0xBF⟩
  else if b = 0xF4 then some ⟨3, 0x80, 0x8F⟩
  else none

/-- The bits that a first byte with `follow` bytes to come gives to its character. -/
def Lead.payload (b follow : Nat) : Nat :=
  match follow with
  | 0 => b
  | 1 => b % 0x20
  | 2 => b % 0x10
  | _ => b % 0x08

/-- A character, or the length of the part that starts none. -/
inductive Piece where
  | char (c : Char)
  | broken (length : Nat)

/-- Reads `follow` more bytes onto `code`. `taken` bytes are behind. -/
def Piece.continue (code taken : Nat) : (follow low high : Nat) → Bytes → Piece × Bytes
  | 0, _, _, rest => (.char (Char.ofNat code), rest)
  | _ + 1, _, _, [] => (.broken taken, [])
  | follow + 1, low, high, b :: rest =>
    if low ≤ b.toNat ∧ b.toNat ≤ high then
      Piece.continue (code * 0x40 + b.toNat % 0x40) (taken + 1) follow 0x80 0xBF rest
    else (.broken taken, b :: rest)

/-- The first piece of `b :: rest`, and the bytes behind it. -/
def Piece.next (b : UInt8) (rest : Bytes) : Piece × Bytes :=
  match Lead.of? b.toNat with
  | none => (.broken 1, rest)
  | some lead =>
    Piece.continue (Lead.payload b.toNat lead.follow) 1 lead.follow lead.low lead.high rest

theorem Piece.length_continue_le (code taken follow low high : Nat) (rest : Bytes) :
    (Piece.continue code taken follow low high rest).2.length ≤ rest.length := by
  induction follow generalizing code taken low high rest with
  | zero => simp [Piece.continue]
  | succ follow ih =>
    cases rest with
    | nil => simp [Piece.continue]
    | cons b rest =>
      rw [Piece.continue]
      split
      · exact Nat.le_succ_of_le (ih _ _ _ _ _)
      · simp

theorem Piece.length_next_le (b : UInt8) (rest : Bytes) :
    (Piece.next b rest).2.length ≤ rest.length := by
  rw [Piece.next]
  split
  · simp
  · exact Piece.length_continue_le ..

/-- The pieces of a byte string, in order. -/
def pieces : Bytes → List Piece
  | [] => []
  | b :: rest => (Piece.next b rest).1 :: pieces (Piece.next b rest).2
termination_by bs => bs.length
decreasing_by exact Nat.lt_succ_of_le (Piece.length_next_le b rest)

/-- U+FFFD, which stands for bytes that are no text. -/
def replacement : Char := Char.ofNat 0xFFFD

def Piece.char? : Piece → Option Char
  | .char c => some c
  | .broken _ => none

def lossy (bs : Bytes) : String :=
  String.ofList ((pieces bs).map fun p => p.char?.getD replacement)

/-- The text of `bs`, if they are UTF-8 throughout. -/
def decode? (bs : Bytes) : Option String :=
  ((pieces bs).mapM Piece.char?).map String.ofList

end Teleop.Text
