/-!
# Between the words of a document

Spaces, comments and line ends.
-/

namespace Teleop.Toml

/-- Takes something off the front of a text, or refuses it. -/
abbrev Reader (α : Type) := List Char → Option (α × List Char)

def isSpace (c : Char) : Bool := c == ' ' || c == '\t'

/-- May stand in comments and strings: everything but controls. A tab is no control here. -/
def isPlain (c : Char) : Bool := c == '\t' || (0x20 ≤ c.toNat && c.toNat != 0x7F)

def skipSpaces (cs : List Char) : List Char := cs.dropWhile isSpace

theorem length_skipSpaces_le (cs : List Char) : (skipSpaces cs).length ≤ cs.length :=
  (List.dropWhile_suffix isSpace).length_le

/-- Takes one line end. -/
def lineEnd? : List Char → Option (List Char)
  | '\n' :: cs => some cs
  | '\r' :: '\n' :: cs => some cs
  | _ => none

def skipComment : List Char → List Char
  | '#' :: cs => cs.dropWhile isPlain
  | cs => cs

/-- The lines behind this one, of which only spaces and a comment may be left. -/
def nextLine? (cs : List Char) : Option (List Char) :=
  match skipComment (skipSpaces cs) with
  | [] => some []
  | cs => lineEnd? cs

/-- Skips spaces, line ends and comments. -/
def skipLayout : (inComment : Bool) → List Char → List Char
  | _, [] => []
  | inComment, c :: cs =>
    if inComment && isPlain c then skipLayout true cs
    else if isSpace c || c == '\n' then skipLayout false cs
    else if c == '\r' && cs.head? == some '\n' then skipLayout false cs
    else if c == '#' then skipLayout true cs
    else c :: cs

end Teleop.Toml
