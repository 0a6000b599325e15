import Teleop.Text.Parts

/-!
# Paths

A path is a text with slashes. Empty components and single points between slashes mean nothing,
except for a point in front.
-/

namespace Teleop

abbrev Path := String

namespace Path

def isAbsolute (p : Path) : Bool := p.toList.head? == some '/'

/-- `name` below `dir`. An absolute name stands for itself. -/
def join (dir name : Path) : Path :=
  if isAbsolute name then name
  else if dir = "" ∨ dir.toList.getLast? = some '/' then dir ++ name
  else dir ++ "/" ++ name

/-- The front of a path that is no component: a slash, or a point that stands alone. -/
def front (cs : List Char) : List Char :=
  match cs with
  | '/' :: _ => ['/']
  | ['.'] => ['.']
  | '.' :: '/' :: _ => ['.']
  | _ => []

/-- A part that names nothing. -/
def isVoid (part : List Char) : Bool := part == [] || part == ['.']

/-- The path without its last component. `none` for a path without components; a point in front is
the last component of its path. -/
def parent? (p : Path) : Option Path :=
  let cs := p.toList
  let front := front cs
  match ((Text.parts '/' (cs.drop front.length)).reverse).dropWhile isVoid with
  | [] => if front = ['.'] then some "" else none
  | _ :: parts =>
    some (String.ofList (front ++ Text.joined '/' (parts.dropWhile isVoid).reverse))

/-- The components that a look-up follows: all parts that are not empty. -/
def components (p : Path) : List String :=
  ((Text.parts '/' p.toList).filter (· ≠ [])).map String.ofList

/-- A path that ends in a slash can only name a directory. -/
def endsInSlash (p : Path) : Bool := p.toList.getLast? == some '/'

/-- The path and all paths above it, the nearest first. -/
def ancestors : (fuel : Nat) → Path → List Path
  | 0, _ => []
  | fuel + 1, p =>
    p :: match parent? p with
      | some q => ancestors fuel q
      | none => []

/-- The path and all paths above it. Each is shorter than the one before. -/
def selfAndAbove (p : Path) : List Path := ancestors (p.length + 1) p

end Path

end Teleop
