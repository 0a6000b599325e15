import Teleop.Toml.Value
import Teleop.Toml.Layout
import Teleop.Number.Decimal
import Teleop.Text.Parts

/-!
# Numbers, dates and the other bare words

A bare value is a run of letters, digits and the marks that numbers and dates have. It has to be
well formed as a whole.
-/

namespace Teleop.Toml

open Number

def isWordChar (c : Char) : Bool :=
  c.isAlphanum || c == '_' || c == '+' || c == '-' || c == '.' || c == ':'

/-! ## Numbers -/

/-- Digits in which single underscores may stand between two digits, without the underscores. -/
def digits? (isDigit : Char → Bool) (cs : List Char) : Option (List Char) :=
  let groups := Text.parts '_' cs
  if groups.all fun g => !g.isEmpty && g.all isDigit then some groups.flatten else none

/-- Digits without a zero in front, unless it is all there is. -/
def wholeDigits? (cs : List Char) : Option (List Char) :=
  (digits? Char.isDigit cs).bind fun ds =>
    if ds.length = 1 ∨ ds.head? ≠ some '0' then some ds else none

def based? (base : Nat) (cs : List Char) : Option Int :=
  (digits? (fun c => (hexDigit? c).any (· < base)) cs).map fun ds =>
    ((ds.filterMap hexDigit?).foldl (fun n d => base * n + d) 0 : Nat)

def integerValue? : List Char → Option Int
  | '0' :: 'x' :: cs => based? 16 cs
  | '0' :: 'o' :: cs => based? 8 cs
  | '0' :: 'b' :: cs => based? 2 cs
  | cs =>
    let (negative, cs) := takeSign cs
    (wholeDigits? cs).map fun ds => if negative then -(digitsValue ds : Int) else digitsValue ds

/-- An integer of 64 bits. -/
def integer? (cs : List Char) : Option Int :=
  (integerValue? cs).bind fun i => if leastInteger ≤ i ∧ i ≤ greatestInteger then some i else none

/-- A point with digits behind it, or nothing. -/
def fraction? : List Char → Option (List Char)
  | [] => some []
  | '.' :: cs => (digits? Char.isDigit cs).map ('.' :: ·)
  | _ => none

/-- A power of ten, or nothing. -/
def power? : List Char → Option (List Char)
  | [] => some []
  | _ :: cs =>
    let (negative, cs) := takeSign cs
    (digits? Char.isDigit cs).map fun ds => 'e' :: (if negative then '-' :: ds else ds)

def isPowerMark (c : Char) : Bool := c == 'e' || c == 'E'

/-- A number with a fraction or a power of ten. A number that is too large is refused, one that is
too far below zero is not. -/
def decimal? (cs : List Char) : Option Nat := do
  let (negative, cs) := takeSign cs
  let mantissa := cs.takeWhile (!isPowerMark ·)
  let whole := mantissa.takeWhile (· != '.')
  if whole.length = cs.length then none
  let whole ← wholeDigits? whole
  let fraction ← fraction? (mantissa.dropWhile (· != '.'))
  let power ← power? (cs.dropWhile (!isPowerMark ·))
  let d ← readDecimal? (whole ++ fraction ++ power)
  let bits := BinaryFormat.double.ofDecimal negative d
  if bits = BinaryFormat.double.infinity then none else some bits

def float? (cs : List Char) : Option Nat :=
  let (negative, word) := takeSign cs
  let double := BinaryFormat.double
  if word = ['i', 'n', 'f'] then some (double.withSign negative double.infinity)
  else if word = ['n', 'a', 'n'] then some (double.withSign negative (double.ofValue .nan))
  else decimal? cs

/-! ## Dates and times -/

/-- Exactly `count` digits that make a number from `least` to `greatest`. -/
def field? (count least greatest : Nat) (cs : List Char) : Option Nat :=
  if cs.length = count ∧ cs.all Char.isDigit then
    let n := digitsValue cs
    if least ≤ n ∧ n ≤ greatest then some n else none
  else none

def isLeapYear (year : Nat) : Bool := year % 4 == 0 && (year % 100 != 0 || year % 400 == 0)

def daysIn (year month : Nat) : Nat :=
  if month = 2 then (if isLeapYear year then 29 else 28)
  else if month = 4 ∨ month = 6 ∨ month = 9 ∨ month = 11 then 30
  else 31

def isDate (cs : List Char) : Bool :=
  match Text.parts '-' cs with
  | [y, m, d] =>
    match field? 4 0 9999 y, field? 2 1 12 m, field? 2 1 31 d with
    | some y, some m, some d => d ≤ daysIn y m
    | _, _, _ => false
  | _ => false

/-- Hours and minutes. -/
def isClock (cs : List Char) : Bool :=
  match Text.parts ':' cs with
  | [h, m] => (field? 2 0 23 h).isSome && (field? 2 0 59 m).isSome
  | _ => false

/-- Seconds, which may have a fraction. There are leap seconds. -/
def isSeconds (cs : List Char) : Bool :=
  match Text.parts '.' cs with
  | [s] => (field? 2 0 60 s).isSome
  | [s, fraction] => (field? 2 0 60 s).isSome && !fraction.isEmpty && fraction.all Char.isDigit
  | _ => false

/-- A time of day: hours, minutes and seconds. -/
def isTime (cs : List Char) : Bool :=
  isClock (cs.take 5) && (cs.drop 5).head? == some ':' && isSeconds (cs.drop 6)

/-- A time of day that may have an offset behind it. -/
def isZonedTime (cs : List Char) : Bool :=
  let time := cs.takeWhile fun c => c.isDigit || c == ':' || c == '.'
  isTime time &&
    match cs.drop time.length with
    | [] | ['Z'] | ['z'] => true
    | sign :: offset => (sign == '+' || sign == '-') && isClock offset

def isDatetime (cs : List Char) : Bool :=
  isDate (cs.take 10) &&
    match cs.drop 10 with
    | [] => true
    | mark :: time => (mark == 'T' || mark == 't') && isZonedTime time

/-! ## Bare values -/

/-- The value of a whole word. -/
def word? (cs : List Char) : Option Value :=
  if cs = ['t', 'r', 'u', 'e'] then some (.boolean true)
  else if cs = ['f', 'a', 'l', 's', 'e'] then some (.boolean false)
  else if isDatetime cs || isTime cs then some (.datetime (String.ofList cs))
  else
    match float? cs, integer? cs with
    | some bits, _ => some (.float bits)
    | none, some i => some (.integer i)
    | none, none => none

/-- A bare value. Between a date and a time there may be a space. -/
def bare? : Reader Value := fun cs =>
  let word := cs.takeWhile isWordChar
  let rest := cs.drop word.length
  let time := (rest.drop 1).takeWhile isWordChar
  if isDate word && rest.head? == some ' ' && isZonedTime time then
    some (.datetime (String.ofList (word ++ ' ' :: time)), rest.drop (1 + time.length))
  else (word? word).map (·, rest)

end Teleop.Toml
