import Teleop.Number.Decimal
import Teleop.Text.Parts

/-!
# Network addresses

An address has one canonical text and is read strictly: no zone, no zeros in front of the numbers of
an IPv4 address, and at most one double colon in an IPv6 address, for at least one group.
-/

namespace Teleop

open Number

inductive Address where
  | v4 (octets : Vector UInt8 4)
  | v6 (groups : Vector UInt16 8)
deriving DecidableEq, Repr

namespace Address

/-- The IPv6 address of all interfaces. -/
def unspecified : Address := .v6 (.replicate 8 0)

/-- A list as a vector, if it has the right length. -/
def exactly? {α : Type} (n : Nat) (items : List α) : Option (Vector α n) :=
  if h : items.length = n then some ⟨items.toArray, by simpa using h⟩ else none

/-! ## Reading -/

def octet? (cs : List Char) : Option UInt8 :=
  if cs.isEmpty || 3 < cs.length || !cs.all Char.isDigit then none
  else if 1 < cs.length ∧ cs.head? = some '0' then none
  else if digitsValue cs ≤ 255 then some (UInt8.ofNat (digitsValue cs))
  else none

def octets? (cs : List Char) : Option (Vector UInt8 4) :=
  ((Text.parts '.' cs).mapM octet?).bind (exactly? 4)

def group? (cs : List Char) : Option UInt16 :=
  if cs.isEmpty || 4 < cs.length then none
  else (cs.mapM hexDigit?).map fun digits =>
    UInt16.ofNat (digits.foldl (fun n d => 16 * n + d) 0)

/-- Two octets as one group. -/
def pair (high low : UInt8) : UInt16 := UInt16.ofNat (256 * high.toNat + low.toNat)

/-- Groups from parts. The last part may be an IPv4 address, which is two groups. -/
def groupsOf? : List (List Char) → Option (List UInt16)
  | [] => some []
  | [part] =>
    match octets? part with
    | some o => some [pair o[0] o[1], pair o[2] o[3]]
    | none => (group? part).map ([·])
  | part :: parts => do
    let g ← group? part
    let gs ← groupsOf? parts
    some (g :: gs)

/-- The groups on one side of a double colon. -/
def side? (cs : List Char) : Option (List UInt16) :=
  if cs.isEmpty then some [] else groupsOf? (Text.parts ':' cs)

/-- The text before the first double colon and the text behind it. -/
def splitAtGap : List Char → Option (List Char × List Char)
  | ':' :: ':' :: cs => some ([], cs)
  | c :: cs => (splitAtGap cs).map fun (front, back) => (c :: front, back)
  | [] => none

def groups? (cs : List Char) : Option (Vector UInt16 8) :=
  match splitAtGap cs with
  | none => (side? cs).bind (exactly? 8)
  | some (front, back) => do
    let head ← if front.contains '.' then none else side? front
    let tail ← side? back
    if head.length + tail.length < 8 then
      exactly? 8 (head ++ List.replicate (8 - head.length - tail.length) 0 ++ tail)
    else none

def parse? (s : String) : Option Address :=
  match octets? s.toList with
  | some o => some (.v4 o)
  | none => (groups? s.toList).map .v6

/-! ## Writing -/

def octetsText (o : List UInt8) : String := ".".intercalate (o.map fun b => toString b.toNat)

def groupsText (gs : List UInt16) : String :=
  ":".intercalate (gs.map fun g => String.ofList (Nat.toDigits 16 g.toNat))

/-- The number of zero groups in front. -/
def zerosInFront (gs : List UInt16) : Nat := (gs.takeWhile (· == 0)).length

/-- Where the first of the longest runs of zero groups begins, and its length. -/
def longestGap (gs : List UInt16) : Nat × Nat :=
  (List.range gs.length).foldl (fun best i =>
    let run := zerosInFront (gs.drop i)
    if best.2 < run then (i, run) else best) (0, 0)

/-- The octets of an IPv4 address that is mapped into IPv6. -/
def mapped? (gs : List UInt16) : Option (List UInt8) :=
  match gs with
  | [0, 0, 0, 0, 0, 0xFFFF, a, b] =>
    some ([a, b].flatMap fun g => [UInt8.ofNat (g.toNat / 256), UInt8.ofNat (g.toNat % 256)])
  | _ => none

def text : Address → String
  | v4 octets => octetsText octets.toList
  | v6 groups =>
    let gs := groups.toList
    match mapped? gs with
    | some octets => "::ffff:" ++ octetsText octets
    | none =>
      let gap := longestGap gs
      if 1 < gap.2 then
        groupsText (gs.take gap.1) ++ "::" ++ groupsText (gs.drop (gap.1 + gap.2))
      else groupsText gs

end Address

end Teleop
