/-!
# TOML values

A document is a table: keys with values, each key once. The order of the keys means nothing to a
reader.
-/

namespace Teleop.Toml

inductive Value where
  | string (s : String)
  | integer (i : Int)
  /-- A double-precision number, as its bits. -/
  | float (bits : Nat)
  | boolean (b : Bool)
  /-- A date, a time or both, as written. -/
  | datetime (text : String)
  | array (items : List Value)
  | table (entries : List (String × Value))
deriving Repr, Inhabited

abbrev Table := List (String × Value)

def Table.get? (t : Table) (key : String) : Option Value := t.lookup key

def leastInteger : Int := -9223372036854775808
def greatestInteger : Int := 9223372036854775807

/-- Arrays and inline tables stand inside each other up to this depth, and no dotted key has more
parts. -/
def nestingLimit : Nat := 79

end Teleop.Toml
