import Teleop.Files.Tree
import Teleop.Identity.Der
import Teleop.Identity.Pem

/-!
# The identity of the server

A certificate with its private key. Both come from PEM files and have to belong together.
-/

namespace Teleop

inductive IdentityError where
  | cannotRead (path : Path) (e : SystemError)
  | invalidCertificateFile
  | noCertificate
  | invalidKeyFile
  | noPrivateKey
  /-- The certificate or the key is not usable, or they do not belong together. -/
  | rejected
deriving DecidableEq, Repr

def IdentityError.message : IdentityError → String
  | cannotRead path e => "cannot read " ++ path ++ ": " ++ e.message
  | invalidCertificateFile => "invalid certificate PEM"
  | noCertificate => "no certificate found in PEM"
  | invalidKeyFile => "invalid key PEM"
  | noPrivateKey => "no private key found in PEM"
  | rejected => "certificate rejected"

def IdentityError.toRobotError (e : IdentityError) : RobotError := .tls e.message

structure Identity where
  /-- The certificate of the server first, then those that vouch for it. -/
  chain : List Bytes
  key : Bytes
deriving DecidableEq, Repr

namespace Identity

/-- The key is the one that the certificate is for. -/
def matchesKey (certificate key : Bytes) : Bool :=
  match Der.certificateKey? certificate, Der.privateKeyKey? key with
  | some a, some b => a == b
  | _, _ => false

/-- The identity in the contents of two files. The certificates are looked at first. -/
def ofFiles (certificateFile keyFile : Bytes) : Except IdentityError Identity :=
  match Pem.certificates? certificateFile with
  | none => .error .invalidCertificateFile
  | some [] => .error .noCertificate
  | some (certificate :: rest) =>
    match Pem.privateKey? keyFile with
    | none => .error .invalidKeyFile
    | some none => .error .noPrivateKey
    | some (some key) =>
      if key.kind = .privateKey ∧ matchesKey certificate key.content then
        .ok { chain := certificate :: rest, key := key.content }
      else .error .rejected

/-- Loads the identity from two files. Both are read before either is looked at. -/
def load (files : FileTree) (certificatePath keyPath : Path) : Except IdentityError Identity :=
  match files.read certificatePath with
  | .error e => .error (.cannotRead certificatePath e)
  | .ok certificateFile =>
    match files.read keyPath with
    | .error e => .error (.cannotRead keyPath e)
    | .ok keyFile => ofFiles certificateFile keyFile

/-! ## Clients -/

/-- How a client begins. -/
inductive Opening where
  /-- It says what it has to say in the clear. -/
  | clear
  /-- It starts a TLS handshake and trusts the server. -/
  | tls
deriving DecidableEq, Repr

/-- Only a TLS handshake can end well. -/
def accepts (_ : Identity) : Opening → Bool
  | .clear => false
  | .tls => true

end Identity

end Teleop
