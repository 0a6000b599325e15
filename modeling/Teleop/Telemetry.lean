import Teleop.Environment

/-!
# The collector of spans

Spans go to the collector at the endpoint that the environment names. What matters here is whether
the endpoint is a URI at all.
-/

namespace Teleop.Telemetry

/-- A character that may stand in the authority of a URI. -/
def isAuthorityChar (c : Char) : Bool :=
  c.isAlphanum || "!$&'()*+,-.:;=@[]_~".toList.contains c

/-- The walk over an authority: what it has seen so far. -/
structure Authority where
  colons : Nat := 0
  opened : Bool := false
  closed : Bool := false
  percent : Bool := false
  /-- The last character was the one behind the user. -/
  atEnd : Bool := false

/-- One character more. At most eight colons may stand in one part, and there is one pair of
brackets. -/
def Authority.add? (a : Authority) (c : Char) : Option Authority :=
  let a := { a with atEnd := false }
  if c = ':' then if 8 ≤ a.colons then none else some { a with colons := a.colons + 1 }
  else if c = '[' then if a.percent || a.opened then none else some { a with opened := true }
  else if c = ']' then
    if !a.opened || a.closed then none
    else some { a with closed := true, colons := 0, percent := false }
  else if c = '@' then some { a with colons := 0, percent := false, atEnd := true }
  else if c = '%' then some { a with percent := true }
  else if isAuthorityChar c then some a
  else none

/-- Brackets come in a pair, a colon stands before the port only, percent signs belong to the user,
and something follows the user. -/
def Authority.isWhole (a : Authority) : Bool :=
  a.opened == a.closed && a.colons ≤ 1 && !a.percent && !a.atEnd

def endsAuthority (c : Char) : Bool := c == '/' || c == '?' || c == '#'

/-- An authority, which may be empty. -/
def isAuthority (cs : List Char) : Bool :=
  (cs.foldlM Authority.add? {}).any Authority.isWhole

/-- A character of a path, and of a query if `query`. -/
def isTailChar (query : Bool) (c : Char) : Bool :=
  let n := c.toNat
  if query then n = 0x21 || (0x24 ≤ n && n ≤ 0x3B) || n = 0x3D || 0x3F ≤ n
  else
    n = 0x21 || n = 0x22 || (0x24 ≤ n && n ≤ 0x3B) || n = 0x3D || (0x40 ≤ n && n ≤ 0x5F)
      || (0x61 ≤ n && n ≤ 0x7E) || 0x7F ≤ n

/-- What follows the authority: a path, a query and a fragment, of which all may be missing. -/
def isTail (cs : List Char) : Bool :=
  let cs := cs.takeWhile (· != '#')
  let path := cs.takeWhile (· != '?')
  path.all (isTailChar false) && ((cs.drop path.length).drop 1).all (isTailChar true)

def isSchemeChar (c : Char) : Bool := c.isAlphanum || c == '+' || c == '-' || c == '.'

def longestScheme : Nat := 64

/-- What is behind a scheme and its `://`. -/
def afterScheme? (cs : List Char) : Option (List Char) :=
  let scheme := cs.takeWhile isSchemeChar
  match cs.drop scheme.length with
  | ':' :: '/' :: '/' :: rest => some rest
  | _ => none

/-- An absolute URI, an authority alone, or a path. -/
def isUri (s : String) : Bool :=
  let cs := s.toList
  if cs = ['*'] ∨ cs = ['/'] then true
  else if cs.head? = some '/' then isTail cs
  else
    match afterScheme? cs with
    | none => !cs.isEmpty && isAuthority cs
    | some rest =>
      let authority := rest.takeWhile (!endsAuthority ·)
      (cs.takeWhile isSchemeChar).length ≤ longestScheme && !authority.isEmpty
        && isAuthority authority && isTail (rest.drop authority.length)

def endpointVariable : String := "OTEL_EXPORTER_OTLP_ENDPOINT"

/-- The environment names an endpoint that cannot be used. An empty one stands for the usual one. -/
def hasBadEndpoint (env : Environment) : Bool :=
  (env.nonempty? endpointVariable).any (!isUri ·)

end Teleop.Telemetry
