/-!
# Bytes

Everything on the wire and in a file is a list of bytes.
-/

namespace Teleop

abbrev Bytes := List UInt8

namespace Bytes

/-- The UTF-8 form of a text. -/
def ofText (s : String) : Bytes := s.toList.flatMap String.utf8EncodeChar

@[simp] theorem ofText_empty : ofText "" = [] := rfl

@[simp] theorem ofText_append (a b : String) : ofText (a ++ b) = ofText a ++ ofText b := by
  simp [ofText]

/-- The test picture of `n` bytes: byte `i` is `i % 251`. -/
def pattern (n : Nat) : Bytes := (List.range n).map fun i => UInt8.ofNat (i % 251)

@[simp] theorem length_pattern (n : Nat) : (pattern n).length = n := by simp [pattern]

end Bytes

end Teleop
