import Teleop.Toml.Quoted
import Teleop.Toml.Scalar
import Teleop.Toml.Tree

/-!
# Reading a document

A document is a list of statements, one to a line: a key with a value, or a header. `read?` gives its
table, or nothing if it is not well formed.
-/

namespace Teleop.Toml

/-! ## Keys -/

def isBareKeyChar (c : Char) : Bool :=
  c.isAlphanum || c == '_' || c == '-'

def keyPart? : Reader String
  | '"' :: cs => lineString? '"' cs
  | '\'' :: cs => lineString? '\'' cs
  | cs =>
    let word := cs.takeWhile isBareKeyChar
    if word.isEmpty then none else some (String.ofList word, cs.drop word.length)

/-- Parts with points between them, and spaces around each. -/
def keyParts? : (fuel : Nat) → Reader (List String)
  | 0, _ => none
  | fuel + 1, cs => do
    let (part, cs) ← keyPart? (skipSpaces cs)
    match skipSpaces cs with
    | '.' :: cs =>
      let (parts, cs) ← keyParts? fuel cs
      some (part :: parts, cs)
    | cs => some ([part], cs)

/-- A key: the parts before the last, and the last. -/
def key? : Reader (List String × String) := fun cs => do
  let (parts, cs) ← keyParts? (cs.length + 1) cs
  if parts.length ≤ nestingLimit then some ((parts.dropLast, parts.getLast?.getD ""), cs) else none

/-! ## Values -/

/-- The values of an array behind its bracket. A comma may follow the last one. -/
def items? (item : Reader Value) : (fuel : Nat) → Reader (List Value)
  | 0, _ => none
  | fuel + 1, cs =>
    match skipLayout false cs with
    | ']' :: cs => some ([], cs)
    | cs => do
      let (v, cs) ← item cs
      match skipLayout false cs with
      | ',' :: cs =>
        let (vs, cs) ← items? item fuel cs
        some (v :: vs, cs)
      | ']' :: cs => some ([v], cs)
      | _ => none

/-- The pairs of an inline table behind its brace, which stand on one line. -/
def pairs? (item : Reader Value) : (fuel : Nat) → Entries → Reader Entries
  | 0, _, _ => none
  | fuel + 1, es, cs => do
    let ((path, key), cs) ← key? cs
    match cs with
    | '=' :: cs =>
      let (v, cs) ← item (skipSpaces cs)
      let es ← es.add path key v
      match skipSpaces cs with
      | ',' :: cs => pairs? item fuel es cs
      | '\x7d' :: cs => some (es, cs)
      | _ => none
    | _ => none

def inlineTable? (item : Reader Value) : Reader Table := fun cs =>
  match skipSpaces cs with
  | '\x7d' :: cs => some ([], cs)
  | cs => (pairs? item (cs.length + 1) [] cs).map fun (es, cs) => (Entries.toTable es, cs)

def scalar? : Reader Value := fun cs =>
  match cs with
  | '"' :: _ | '\'' :: _ => (string? cs).map fun (s, cs) => (.string s, cs)
  | _ => bare? cs

/-- A value with arrays and inline tables up to `depth`. -/
def value? : (depth : Nat) → Reader Value
  | 0, cs => scalar? cs
  | depth + 1, cs =>
    match cs with
    | '[' :: cs => (items? (value? depth) (cs.length + 1) cs).map fun (vs, cs) => (.array vs, cs)
    | '\x7b' :: cs => (inlineTable? (value? depth) cs).map fun (t, cs) => (.table t, cs)
    | cs => scalar? cs

/-! ## Statements -/

/-- What is read so far, and the table that the last header opened. -/
structure Draft where
  entries : Entries := []
  opened : List String := []

namespace Draft

/-- A header behind its first bracket. -/
def header? (d : Draft) : List Char → Option (Draft × List Char)
  | '[' :: cs => do
    let ((path, key), cs) ← key? cs
    match cs with
    | ']' :: ']' :: cs =>
      let es ← d.entries.openElement path key
      some ({ entries := es, opened := path ++ [key] }, cs)
    | _ => none
  | cs => do
    let ((path, key), cs) ← key? cs
    match cs with
    | ']' :: cs =>
      let es ← d.entries.openTable path key
      some ({ entries := es, opened := path ++ [key] }, cs)
    | _ => none

def pair? (d : Draft) (cs : List Char) : Option (Draft × List Char) := do
  let ((path, key), cs) ← key? cs
  match cs with
  | '=' :: cs =>
    let (v, cs) ← value? nestingLimit (skipSpaces cs)
    let es ← d.entries.addAt d.opened path key v
    some ({ d with entries := es }, cs)
  | _ => none

/-- One line, which may hold a statement. -/
def line? (d : Draft) (cs : List Char) : Option (Draft × List Char) := do
  let (d, cs) ← match skipSpaces cs with
    | [] => some (d, [])
    | '#' :: cs => some (d, '#' :: cs)
    | '\n' :: cs => some (d, '\n' :: cs)
    | '\r' :: cs => some (d, '\r' :: cs)
    | '[' :: cs => d.header? cs
    | cs => d.pair? cs
  (nextLine? cs).map (d, ·)

def lines? : (fuel : Nat) → Draft → List Char → Option Draft
  | _, d, [] => some d
  | 0, _, _ => none
  | fuel + 1, d, cs => do
    let (d, cs) ← d.line? cs
    lines? fuel d cs

end Draft

/-- Drops the mark of the byte order in front. -/
def dropByteOrderMark : List Char → List Char
  | '\ufeff' :: cs => cs
  | cs => cs

/-- The table of a document. -/
def read? (text : String) : Option Table :=
  let cs := dropByteOrderMark text.toList
  (Draft.lines? (cs.length + 1) {} cs).map fun d => Entries.toTable d.entries

end Teleop.Toml
