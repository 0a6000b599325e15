import Teleop.Toml.Value

/-!
# Tables on the way

While a document is read, a table remembers how it came about: by a header of its own, by a longer
header, or by a dotted key. That decides who may still add to it. Every table is made once; a header
may take over what a longer header implied, and only dotted keys add to a table of dotted keys.
-/

namespace Teleop.Toml

inductive Origin where
  | header
  /-- A header named something inside it. -/
  | implied
  | dotted
deriving DecidableEq, Repr

inductive Item where
  | value (v : Value)
  | table (origin : Origin) (entries : List (String × Item))
  /-- An array of tables, oldest first. -/
  | tables (elements : List (List (String × Item)))

/-- The entries of a table. -/
abbrev Entries := List (String × Item)

namespace Entries

/-- Puts an item in the place of the one with the same key. -/
def replace (es : Entries) (key : String) (item : Item) : Entries :=
  es.map fun (k, old) => if k = key then (k, item) else (k, old)

/-- Changes the table at the end of `path`, and makes the tables on the way that are not there, with
the origin `made`. In an array of tables it is the last one that counts. A dotted key may not enter a
table that has a header. -/
def change (made : Origin) (act : Origin → Entries → Option Entries) :
    (path : List String) → Origin → Entries → Option Entries
  | [], origin, es => act origin es
  | key :: path, _, es =>
    match es.lookup key with
    | none => (change made act path made []).map fun inner => es ++ [(key, .table made inner)]
    | some (.value _) => none
    | some (.tables elements) =>
      (change made act path .header (elements.getLast?.getD [])).map fun inner =>
        es.replace key (.tables (elements.dropLast ++ [inner]))
    | some (.table origin inner) =>
      if made = .dotted ∧ origin = .header then none
      else (change made act path origin inner).map fun inner =>
        es.replace key (.table origin inner)

/-- Adds a value under a key that is not there. A dotted key adds to tables of dotted keys only. -/
def add (path : List String) (key : String) (v : Value) (es : Entries) : Option Entries :=
  es.change .dotted (fun origin inner =>
    if (origin == .dotted) == path.isEmpty then none
    else if (inner.lookup key).isSome then none
    else some (inner ++ [(key, .value v)])) path .header

/-- Opens the table of a header. -/
def openTable (path : List String) (key : String) (es : Entries) : Option Entries :=
  es.change .implied (fun _ inner =>
    match inner.lookup key with
    | none => some (inner ++ [(key, .table .header [])])
    | some (.table .implied entries) => some (inner.replace key (.table .header entries))
    | some _ => none) path .header

/-- Opens one more table of an array of tables. -/
def openElement (path : List String) (key : String) (es : Entries) : Option Entries :=
  es.change .implied (fun _ inner =>
    match inner.lookup key with
    | none => some (inner ++ [(key, .tables [[]])])
    | some (.tables elements) => some (inner.replace key (.tables (elements ++ [[]])))
    | some _ => none) path .header

/-- Adds a value to the table that the last header opened. -/
def addAt (opened path : List String) (key : String) (v : Value) (es : Entries) : Option Entries :=
  es.change .implied (fun _ inner => inner.add path key v) opened .header

end Entries

/-! ## The finished table -/

mutual

def Item.toValue : Item → Value
  | .value v => v
  | .table _ entries => .table (Entries.toTable entries)
  | .tables elements => .array (Entries.toTables elements)

def Entries.toTable : List (String × Item) → Table
  | [] => []
  | (key, item) :: rest => (key, item.toValue) :: Entries.toTable rest

def Entries.toTables : List (List (String × Item)) → List Value
  | [] => []
  | entries :: rest => .table (Entries.toTable entries) :: Entries.toTables rest

end

end Teleop.Toml
