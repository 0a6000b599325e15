/-!
# Texts in parts

A mark cuts a text into parts, empty ones included, and the parts joined by the mark are the text.
-/

namespace Teleop.Text

/-- The parts of a text between its marks. -/
def parts (mark : Char) : List Char → List (List Char)
  | [] => [[]]
  | c :: cs =>
    match parts mark cs with
    | [] => [[c]]
    | part :: rest => if c = mark then [] :: part :: rest else (c :: part) :: rest

/-- Parts with a mark between each two. -/
def joined (mark : Char) : List (List Char) → List Char
  | [] => []
  | [part] => part
  | part :: rest => part ++ mark :: joined mark rest

theorem parts_ne_nil (mark : Char) (cs : List Char) : parts mark cs ≠ [] := by
  cases cs with
  | nil => simp [parts]
  | cons c cs => rw [parts]; split <;> (try split) <;> simp

theorem joined_parts (mark : Char) (cs : List Char) : joined mark (parts mark cs) = cs := by
  induction cs with
  | nil => rfl
  | cons c cs ih =>
    rw [parts]
    split
    · rename_i h; exact absurd h (parts_ne_nil mark cs)
    · rename_i part rest h
      rw [h] at ih
      split
      · rename_i hc; simp [joined, ih, hc]
      · cases rest with
        | nil => simpa [joined] using ih
        | cons p ps => simp only [joined, List.cons_append] at ih ⊢; rw [ih]

end Teleop.Text
