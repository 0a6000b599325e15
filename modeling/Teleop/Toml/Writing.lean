import Teleop.Toml.Document

/-!
# Writing a document

A table is written with its plain values first and a section for each table in it. A string takes the
plainest form that can hold it.
-/

namespace Teleop.Toml

open Number

/-! ## Strings -/

/-- A control that only an escape can write. -/
def isControl (c : Char) : Bool := (c.toNat < 0x20 && c != '\t' && c != '\n') || c.toNat == 0x7F

/-- The most quotes that stand next to each other. -/
def longestRun (quote : Char) (cs : List Char) : Nat :=
  (cs.foldl (fun (best, run) c =>
    let run := if c = quote then run + 1 else 0
    (max best run, run)) (0, 0)).1

inductive StringForm where
  /-- Between `"` with escapes. -/
  | escaped
  /-- Between `'`. -/
  | literal
deriving DecidableEq, Repr

/-- How a string is written: its form, and whether it has three quotes on each side. -/
def stringStyle (cs : List Char) : StringForm × Bool :=
  let control := cs.any isControl
  let backslash := cs.contains '\\'
  let lines := cs.contains '\n'
  if !control && !backslash && !cs.contains '"' && !lines then (.escaped, false)
  else if !control && !cs.contains '\'' && !lines then (.literal, false)
  else if !control && !backslash && longestRun '"' cs ≤ 2 then (.escaped, true)
  else if !control && longestRun '\'' cs ≤ 2 then (.literal, true)
  else (.escaped, lines)

/-- A number with four upper-case hexadecimal digits. -/
def fourDigits (n : Nat) : List Char :=
  let digits := (Nat.toDigits 16 n).map Char.toUpper
  List.replicate (4 - digits.length) '0' ++ digits

def escapedChar (lines : Bool) (c : Char) : List Char :=
  if c = '\x08' then ['\\', 'b']
  else if c = '\t' then ['\\', 't']
  else if c = '\x0c' then ['\\', 'f']
  else if c = '\r' then ['\\', 'r']
  else if c = '\\' then ['\\', '\\']
  else if c = '\n' then (if lines then ['\n'] else ['\\', 'n'])
  else if isControl c then ['\\', 'u'] ++ fourDigits c.toNat
  else [c]

/-- The inside of a string with escapes. Between three quotes on each side every third quote in a row
is escaped, otherwise every one. -/
def escapedChars (lines : Bool) : (run : Nat) → List Char → List Char
  | _, [] => []
  | run, c :: cs =>
    if c = '"' then
      if lines ∧ run < 2 then c :: escapedChars lines (run + 1) cs
      else '\\' :: c :: escapedChars lines 0 cs
    else escapedChar lines c ++ escapedChars lines 0 cs

def stringText (s : String) : String :=
  let cs := s.toList
  let (form, triple) := stringStyle cs
  let quote := match form with | .escaped => '"' | .literal => '\''
  let fence := List.replicate (if triple then 3 else 1) quote
  let gap := if triple ∧ cs.contains '\n' then ['\n'] else []
  let body := match form with
    | .escaped => escapedChars triple 0 cs
    | .literal => cs
  String.ofList (fence ++ gap ++ body ++ fence)

/-! ## Other values -/

/-- The shortest digits that read back, always with a point and without a power of ten. -/
def floatText (bits : Nat) : String :=
  match BinaryFormat.double.read bits with
  | .nan => "nan"
  | .infinite negative => if negative then "-inf" else "inf"
  | .finite negative m e =>
    (if negative then "-" else "") ++
      if m = 0 then "0.0" else String.ofList (Basin.of .double m e).shortest.positional

def keyText (key : String) : String :=
  if key ≠ "" ∧ key.toList.all isBareKeyChar then key else stringText key

mutual

/-- A value on its line. -/
def Value.text : Value → String
  | .string s => stringText s
  | .integer i => toString i
  | .float bits => floatText bits
  | .boolean b => if b then "true" else "false"
  | .datetime text => text
  | .array items => "[" ++ ", ".intercalate (itemTexts items) ++ "]"
  | .table entries => "\x7b " ++ ", ".intercalate (pairTexts entries) ++ " \x7d"

def itemTexts : List Value → List String
  | [] => []
  | v :: rest => v.text :: itemTexts rest

def pairTexts : List (String × Value) → List String
  | [] => []
  | (key, v) :: rest => (keyText key ++ " = " ++ v.text) :: pairTexts rest

end

/-! ## Documents -/

def Value.table? : Value → Option Table
  | .table entries => some entries
  | _ => none

/-- The values of a table that are no tables, a line for each. -/
def plainLines (t : Table) : List String :=
  (t.filter fun (_, v) => v.table?.isNone).map fun (key, v) => keyText key ++ " = " ++ v.text ++ "\n"

/-- A header with the values of its table. -/
def sectionLines (key : String) (t : Table) : List String :=
  ("[" ++ keyText key ++ "]\n") :: plainLines t

/-- The document of a table whose tables hold plain values. There is a blank line before each
section. -/
def write (t : Table) : String :=
  let sections := t.filterMap fun (key, v) => v.table?.map (sectionLines key)
  "\n".intercalate (((plainLines t :: sections).filter (!·.isEmpty)).map String.join)

end Teleop.Toml
