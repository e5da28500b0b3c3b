import Quiesce.Toml.Reading

set_option autoImplicit false

namespace Quiesce.Toml

inductive Float where
  | decimal (negative : Bool) (digits : Nat) (exponent : Int)
  | infinity (negative : Bool)
  | nan
deriving DecidableEq, Repr

inductive Scalar where
  | text (s : String)
  | boolean (b : Bool)
  | integer (n : Int)
  | noNumber
  | float (x : Float)
  | moment
deriving DecidableEq, Repr

/-- The entries of a table come in any order, with distinct keys. -/
inductive Value where
  | scalar (s : Scalar)
  | array (items : List Value)
  | table (entries : List (String × Value))

def isDigit (c : Char) : Bool := '0' ≤ c && c ≤ '9'

def decimal? (s : List Char) : Option Nat :=
  if s.all isDigit && !s.isEmpty then
    some (s.foldl (fun n c => 10 * n + (c.toNat - '0'.toNat)) 0)
  else none

def isLeap (year : Nat) : Bool := year % 4 = 0 && (year % 100 ≠ 0 || year % 400 = 0)

def daysOf (year month : Nat) : Nat :=
  if month = 2 then (if isLeap year then 29 else 28)
  else if month = 4 || month = 6 || month = 9 || month = 11 then 30
  else 31

def isDate (s : List Char) : Bool :=
  match s with
  | [y, y', y'', y''', '-', m, m', '-', d, d'] =>
    match decimal? [y, y', y'', y'''], decimal? [m, m'], decimal? [d, d'] with
    | some year, some month, some day =>
      1 ≤ month && month ≤ 12 && 1 ≤ day && day ≤ daysOf year month
    | _, _, _ => false
  | _ => false

def isClock (s : List Char) : Bool :=
  match s with
  | [h, h', ':', m, m'] =>
    match decimal? [h, h'], decimal? [m, m'] with
    | some hour, some minute => hour ≤ 23 && minute ≤ 59
    | _, _ => false
  | _ => false

def isSeconds (s : List Char) : Bool :=
  match s with
  | [] => true
  | ':' :: a :: b :: fraction =>
    (decimal? [a, b]).any (· ≤ 60) &&
      match fraction with
      | [] => true
      | '.' :: digits => (decimal? digits).isSome
      | _ => false
  | _ => false

def isTime (s : List Char) : Bool := isClock (s.take 5) && isSeconds (s.drop 5)

def isOffset (s : List Char) : Bool :=
  match s with
  | ['Z'] => true
  | ['z'] => true
  | '+' :: clock => isClock clock
  | '-' :: clock => isClock clock
  | _ => false

def startsOffset (c : Char) : Bool := c = 'Z' || c = 'z' || c = '+' || c = '-'

def isTimeWithOffset (s : List Char) : Bool :=
  let time := s.takeWhile fun c => !startsOffset c
  let offset := s.dropWhile fun c => !startsOffset c
  isTime time && (offset.isEmpty || isOffset offset)

def isMoment (s : List Char) : Bool :=
  isTime s || (isDate (s.take 10) &&
    match s.drop 10 with
    | [] => true
    | mark :: time => (mark = 'T' || mark = 't' || mark = ' ') && isTimeWithOffset time)

def digitBelow? (base : Nat) (c : Char) : Option Nat :=
  (hexDigit? c).filter (· < base)

def digits? (base : Nat) : List Char → Option (List Nat)
  | [] => none
  | [c] => (digitBelow? base c).map ([·])
  | c :: '_' :: rest => do
    let d ← digitBelow? base c
    (digits? base rest).map (d :: ·)
  | c :: rest => do
    let d ← digitBelow? base c
    (digits? base rest).map (d :: ·)

def numberOf (base : Nat) (digits : List Nat) : Nat := digits.foldl (fun n d => base * n + d) 0

def wholeDigits? (s : List Char) : Option (List Nat) :=
  (digits? 10 s).filter fun ds => ds.head? ≠ some 0 || s.length = 1

def splitSign : List Char → Bool × List Char
  | '-' :: rest => (true, rest)
  | '+' :: rest => (false, rest)
  | s => (false, s)

def splitAt (p : Char → Bool) (s : List Char) : List Char × Option (List Char) :=
  match s.dropWhile fun c => !p c with
  | [] => (s, none)
  | _ :: rest => (s.takeWhile fun c => !p c, some rest)

def signed (negative : Bool) (n : Nat) : Int := if negative then -n else n

def integer? (s : List Char) : Option Int :=
  match s with
  | '0' :: 'x' :: rest => (digits? 16 rest).map fun ds => numberOf 16 ds
  | '0' :: 'o' :: rest => (digits? 8 rest).map fun ds => numberOf 8 ds
  | '0' :: 'b' :: rest => (digits? 2 rest).map fun ds => numberOf 2 ds
  | _ =>
    let (negative, rest) := splitSign s
    (wholeDigits? rest).map fun ds => signed negative (numberOf 10 ds)

def underscoresJoinDigits : List Char → Bool
  | [] => true
  | '_' :: _ => false
  | c :: '_' :: rest =>
    (hexDigit? c).isSome && (rest.head?.bind hexDigit?).isSome && underscoresJoinDigits rest
  | _ :: rest => underscoresJoinDigits rest

/-- Whether a text starts like a decimal integer up to an underscore, and holds nothing that would
make it a float or more than one text. Between the underscores other characters may stand. -/
def hasDecimalOutline (s : List Char) : Bool :=
  let (front, back) := splitAt (· = '_') (splitSign s).2
  back.isSome && (wholeDigits? front).any (fun ds => ds.head? ≠ some 0) &&
    underscoresJoinDigits s && !s.any fun c => c = ' ' || c = '.' || c = 'e' || c = 'E'

def hasIntegerOutline (s : List Char) : Bool :=
  s = ['0', 'x'] || s = ['0', 'o'] || s = ['0', 'b'] || hasDecimalOutline s

def part? : Option (List Char) → Option (List Nat)
  | none => some []
  | some s => digits? 10 s

def exponent? : Option (List Char) → Option Int
  | none => some 0
  | some s =>
    let (negative, rest) := splitSign s
    (digits? 10 rest).map fun ds => signed negative (numberOf 10 ds)

def float? (s : List Char) : Option Float :=
  let (negative, rest) := splitSign s
  if rest = "inf".toList then some (.infinity negative)
  else if rest = "nan".toList then some .nan
  else
    let (mantissa, power) := splitAt (fun c => c = 'e' || c = 'E') rest
    let (whole, fraction) := splitAt (· = '.') mantissa
    if fraction.isNone && power.isNone then none
    else do
      let wholeDigits ← wholeDigits? whole
      let fractionDigits ← part? fraction
      let power ← exponent? power
      some (.decimal negative (numberOf 10 (wholeDigits ++ fractionDigits))
        (power - fractionDigits.length))

end Quiesce.Toml
