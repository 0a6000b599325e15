import Teleop.Bytes

/-!
# DER values

A value is a tag, a length and its content, which may be made of values again. Certificates and keys
are such values. They are looked into as far as their public key.
-/

namespace Teleop.Der

structure Element where
  tag : UInt8
  content : Bytes
deriving DecidableEq, Repr

def integerTag : UInt8 := 0x02
def bitsTag : UInt8 := 0x03
def octetsTag : UInt8 := 0x04
def sequenceTag : UInt8 := 0x30

/-- The tag of the part with this number. -/
def partTag (n : UInt8) : UInt8 := 0xA0 + n

/-- The length in front of a content, in the shortest form. -/
def length? : Bytes → Option (Nat × Bytes)
  | n :: rest =>
    if n < 0x80 then some (n.toNat, rest)
    else
      match n, rest with
      | 0x81, a :: rest => if 0x80 ≤ a then some (a.toNat, rest) else none
      | 0x82, a :: b :: rest => if a = 0 then none else some (256 * a.toNat + b.toNat, rest)
      | _, _ => none
  | [] => none

/-- The first element and what is behind it. -/
def next? : Bytes → Option (Element × Bytes)
  | [] => none
  | tag :: rest =>
    (length? rest).bind fun (n, rest) =>
      if n ≤ rest.length then some (⟨tag, rest.take n⟩, rest.drop n) else none

def elementsWithin : (fuel : Nat) → Bytes → Option (List Element)
  | _, [] => some []
  | 0, _ => none
  | fuel + 1, bytes => do
    let (e, rest) ← next? bytes
    let es ← elementsWithin fuel rest
    some (e :: es)

/-- The elements of a content. Each takes at least two bytes. -/
def elements? (content : Bytes) : Option (List Element) := elementsWithin content.length content

/-- The parts of an element, if it has the tag. -/
def Element.parts? (tag : UInt8) (e : Element) : Option (List Element) :=
  if e.tag = tag then elements? e.content else none

/-- The only element of a content, opened. -/
def open? (tag : UInt8) (content : Bytes) : Option (List Element) :=
  match elements? content with
  | some [e] => e.parts? tag
  | _ => none

/-- The tags of elements are the ones given. -/
def haveTags (es : List Element) (tags : List UInt8) : Bool := es.map Element.tag == tags

/-- The public key of a certificate. -/
def certificateKey? (certificate : Bytes) : Option Bytes := do
  let outer ← open? sequenceTag certificate
  if !haveTags outer [sequenceTag, sequenceTag, bitsTag] then none
  let inner ← (← outer.head?).parts? sequenceTag
  let fields := inner.take 7
  if !haveTags fields
      ([partTag 0, integerTag] ++ List.replicate 5 sequenceTag) then none
  match ← (← fields.getLast?).parts? sequenceTag with
  | [algorithm, key] =>
    if haveTags [algorithm, key] [sequenceTag, bitsTag] then some key.content else none
  | _ => none

/-- The public key that comes with a private key. -/
def privateKeyKey? (key : Bytes) : Option Bytes := do
  let outer ← open? sequenceTag key
  match outer with
  | version :: algorithm :: inner :: _ =>
    if version ≠ ⟨integerTag, [0]⟩ ∨ algorithm.tag ≠ sequenceTag ∨ inner.tag ≠ octetsTag then none
    match ← open? sequenceTag inner.content with
    | version :: scalar :: rest =>
      if version ≠ ⟨integerTag, [1]⟩ ∨ scalar.tag ≠ octetsTag then none
      match ← (← rest.find? (·.tag == partTag 1)).parts? (partTag 1) with
      | [bits] => if bits.tag = bitsTag then some bits.content else none
      | _ => none
    | _ => none
  | _ => none

end Teleop.Der
