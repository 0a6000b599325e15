import Teleop.Toml.Layout
import Teleop.Number.Decimal

/-!
# Quoted strings

Between `"` a backslash starts an escape, between `'` it does not. Three quotes hold several lines:
a line end right behind them is dropped, and a backslash at the end of a line takes the white space
up to the next word with it.
-/

namespace Teleop.Toml

open Number

/-- The character with a number, if there is one. -/
def character? (n : Nat) : Option Char :=
  if n < 0x110000 ∧ ¬ (0xD800 ≤ n ∧ n < 0xE000) then some (Char.ofNat n) else none

def hexEscape? (value : Nat) : (digits : Nat) → Reader Char
  | 0, cs => (character? value).map (·, cs)
  | _ + 1, [] => none
  | digits + 1, c :: cs => (hexDigit? c).bind fun d => hexEscape? (16 * value + d) digits cs

def letterEscape? : Char → Option Char
  | 'b' => some '\x08'
  | 't' => some '\t'
  | 'n' => some '\n'
  | 'f' => some '\x0c'
  | 'r' => some '\r'
  | '"' => some '"'
  | '\\' => some '\\'
  | _ => none

/-- What follows a backslash. -/
def escape? : Reader Char
  | 'u' :: cs => hexEscape? 0 4 cs
  | 'U' :: cs => hexEscape? 0 8 cs
  | c :: cs => (letterEscape? c).map (·, cs)
  | [] => none

theorem length_of_hexEscape? {value digits : Nat} {cs rest : List Char} {c : Char}
    (h : hexEscape? value digits cs = some (c, rest)) : rest.length ≤ cs.length := by
  induction digits generalizing value cs with
  | zero =>
    simp only [hexEscape?, Option.map_eq_some_iff, Prod.mk.injEq] at h
    obtain ⟨_, _, _, rfl⟩ := h
    exact Nat.le_refl _
  | succ digits ih =>
    cases cs with
    | nil => simp [hexEscape?] at h
    | cons d cs =>
      simp only [hexEscape?, Option.bind_eq_some_iff] at h
      obtain ⟨_, _, h⟩ := h
      exact Nat.le_succ_of_le (ih h)

theorem length_of_escape? {cs rest : List Char} {c : Char} (h : escape? cs = some (c, rest)) :
    rest.length < cs.length := by
  unfold escape? at h
  split at h
  · exact Nat.lt_succ_of_le (length_of_hexEscape? h)
  · exact Nat.lt_succ_of_le (length_of_hexEscape? h)
  · simp only [Option.map_eq_some_iff, Prod.mk.injEq] at h
    obtain ⟨_, _, _, rfl⟩ := h
    simp
  · simp at h

/-- The quotes in front. -/
def quotesInFront (quote : Char) (cs : List Char) : Nat := (cs.takeWhile (· == quote)).length

/-- The rest of a string behind its opening quotes. `folding` is set behind a backslash at the end of
a line. Of more than three closing quotes, two can belong to the string. -/
def stringBody (quote : Char) (lines folding : Bool) (cs : List Char) :
    Option (List Char × List Char) :=
  match cs with
  | [] => none
  | c :: cs =>
    let more (first : List Char) (r : Option (List Char × List Char)) :=
      r.map fun (body, rest) => (first ++ body, rest)
    if c = quote then
      if !lines then some ([], cs)
      else
        let count := 1 + quotesInFront quote cs
        if 3 ≤ count then
          let extra := min 2 (count - 3)
          some (List.replicate extra quote, cs.drop (2 + extra))
        else more [c] (stringBody quote lines false cs)
    else if c = '\\' ∧ quote = '"' then
      if lines ∧ (lineEnd? (skipSpaces cs)).isSome then stringBody quote lines true (skipSpaces cs)
      else
        match _ : escape? cs with
        | none => none
        | some (e, rest) => more [e] (stringBody quote lines false rest)
    else if lines ∧ c = '\n' then
      more (if folding then [] else [c]) (stringBody quote lines folding cs)
    else if lines ∧ c = '\r' ∧ cs.head? = some '\n' then stringBody quote lines folding cs
    else if folding ∧ isSpace c then stringBody quote lines true cs
    else if isPlain c then more [c] (stringBody quote lines false cs)
    else none
termination_by cs.length
decreasing_by
  all_goals first
    | exact Nat.lt_succ_self _
    | exact Nat.lt_succ_of_le (length_skipSpaces_le _)
    | exact Nat.lt_succ_of_lt (length_of_escape? ‹_›)

/-- Drops a line end right behind three opening quotes. -/
def dropFirstLineEnd (cs : List Char) : List Char := (lineEnd? cs).getD cs

/-- A string of one line, behind its opening quote. -/
def lineString? (quote : Char) : Reader String := fun cs =>
  (stringBody quote false false cs).map fun (body, rest) => (String.ofList body, rest)

def string? : Reader String := fun cs =>
  let several (quote : Char) (cs : List Char) :=
    (stringBody quote true false (dropFirstLineEnd cs)).map fun (body, rest) =>
      (String.ofList body, rest)
  match cs with
  | '"' :: '"' :: '"' :: cs => several '"' cs
  | '\'' :: '\'' :: '\'' :: cs => several '\'' cs
  | '"' :: cs => lineString? '"' cs
  | '\'' :: cs => lineString? '\'' cs
  | _ => none

end Teleop.Toml
