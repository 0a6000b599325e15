import Teleop.Identity.Base64

/-!
# PEM files

A file is a list of sections with text between them that means nothing. A section stands between a
line with `BEGIN` and a line with `END`; inside is Base64. Sections with a label that is not known are
passed over.
-/

namespace Teleop.Pem

/-- The lines of a file. A line ends at a line feed and at a carriage return. -/
def lines : Bytes → List Bytes
  | [] => [[]]
  | b :: bs =>
    match lines bs with
    | [] => [[b]]
    | l :: ls => if b = 10 ∨ b = 13 then [] :: l :: ls else (b :: l) :: ls

def beginMark : Bytes := .ofText "-----BEGIN "

def endMark (label : Bytes) : Bytes := .ofText "-----END " ++ label ++ .ofText "-----"

def dash : UInt8 := 0x2D
def space : UInt8 := 0x20

/-- The label of a line that begins a section. Behind it there have to be exactly five dashes; spaces
between and behind them do not count. -/
def label? (line : Bytes) : Option Bytes :=
  let trailer := (line.reverse.takeWhile fun b => b == dash || b == space).reverse
  if trailer.count dash = 5 then
    let body := trailer.dropWhile (· == space)
    some ((line.take (line.length - body.length)).drop beginMark.length)
  else none

inductive Kind where
  | certificate
  | publicKey
  | rsaPrivateKey
  | privateKey
  | ecPrivateKey
  | revocationList
  | certificateRequest
deriving DecidableEq, Repr

def kinds : List (Bytes × Kind) :=
  [(.ofText "CERTIFICATE", .certificate), (.ofText "PUBLIC KEY", .publicKey),
   (.ofText "RSA PRIVATE KEY", .rsaPrivateKey), (.ofText "PRIVATE KEY", .privateKey),
   (.ofText "EC PRIVATE KEY", .ecPrivateKey), (.ofText "X509 CRL", .revocationList),
   (.ofText "CERTIFICATE REQUEST", .certificateRequest)]

def Kind.isPrivateKey : Kind → Bool
  | rsaPrivateKey | privateKey | ecPrivateKey => true
  | certificate | publicKey | revocationList | certificateRequest => false

structure Section where
  kind : Kind
  content : Bytes
deriving DecidableEq, Repr

/-- The sections of lines, when a section with the label `label?` is open and holds `body` so far.
`none` stands for a place that is not well formed; nothing is read behind it. A second beginning
inside a section changes its label and keeps its body. -/
def sectionsFrom (label : Option Bytes) (body : Bytes) : List Bytes → List (Option Section)
  | [] => if label.isSome then [none] else []
  | line :: rest =>
    if beginMark.isPrefixOf line then
      match label? line with
      | none => [none]
      | some l => sectionsFrom (some l) body rest
    else
      match label with
      | none => sectionsFrom none body rest
      | some l =>
        if (endMark l).isPrefixOf line then
          match kinds.lookup l with
          | none => sectionsFrom none [] rest
          | some kind =>
            match Base64.decode? body with
            | none => [none]
            | some content => some ⟨kind, content⟩ :: sectionsFrom none [] rest
        else sectionsFrom (some l) (body ++ line) rest

def sections (file : Bytes) : List (Option Section) := sectionsFrom none [] (lines file)

/-- The certificates of a file that is well formed throughout. -/
def certificates? (file : Bytes) : Option (List Bytes) :=
  ((sections file).mapM id).map fun all =>
    (all.filter (·.kind == .certificate)).map Section.content

/-- The first private key, if there is one. The file has to be well formed only up to there. -/
def privateKey? (file : Bytes) : Option (Option Section) :=
  match (sections file).find? fun s => s.all (·.kind.isPrivateKey) with
  | none => some none
  | some none => none
  | some (some key) => some (some key)

end Teleop.Pem
