set_option autoImplicit false

/-! Binary fractions with 53 significant bits, as far as an error message shows them: the value
nearest to a decimal, and the shortest decimal that reads back as the value. -/

namespace Quiesce

structure Binary64 where
  mantissa : Nat
  exponent : Int
deriving DecidableEq, Repr

namespace Binary64

def zero : Binary64 := ⟨0, 0⟩

def minExponent : Int := -1074
def maxExponent : Int := 971

structure Ratio where
  num : Nat
  den : Nat
deriving DecidableEq, Repr

namespace Ratio

def scale (r : Ratio) (b : Nat) : Int → Ratio
  | .ofNat e => ⟨r.num * Nat.pow b e, r.den⟩
  | .negSucc e => ⟨r.num, r.den * Nat.pow b (e + 1)⟩

def le (r s : Ratio) : Bool := r.num * s.den ≤ s.num * r.den

def floor (r : Ratio) : Nat := r.num / r.den

def round (r : Ratio) : Nat :=
  let rest := 2 * (r.num % r.den)
  if rest < r.den ∨ (rest = r.den ∧ r.floor % 2 = 0) then r.floor else r.floor + 1

/-- The greatest `k` with `2 ^ k ≤ r`, for a positive `r`. -/
def log2 (r : Ratio) : Int :=
  let k : Int := r.num.log2 - r.den.log2
  if le (scale ⟨1, 1⟩ 2 k) r then k else k - 1

end Ratio

def digitCount (n : Nat) : Nat := (Nat.toDigits 10 n).length

def ofRatio? (r : Ratio) : Option Binary64 :=
  let exponent := max (r.log2 - 52) minExponent
  let mantissa := (r.scale 2 (-exponent)).round
  let value : Binary64 :=
    if mantissa = Nat.pow 2 53 then ⟨Nat.pow 2 52, exponent + 1⟩ else ⟨mantissa, exponent⟩
  if value.exponent ≤ maxExponent then some value else none

/-- The value nearest to `digits * 10 ^ exponent`, unless it lies beyond the greatest one. Far
outside the range of the format the number of digits decides. -/
def nearest? (digits : Nat) (exponent : Int) : Option Binary64 :=
  if digits = 0 then some zero
  else
    let magnitude : Int := digitCount digits + exponent
    if 400 < magnitude then none
    else if magnitude < -400 then some zero
    else ofRatio? (.scale ⟨digits, 1⟩ 10 exponent)

end Binary64

end Quiesce

namespace Quiesce.Binary64

structure Decimal where
  digits : Nat
  exponent : Int
deriving DecidableEq, Repr

namespace Decimal

def ratio (d : Decimal) : Ratio := .scale ⟨d.digits, 1⟩ 10 d.exponent

end Decimal

def ratio (b : Binary64) : Ratio := .scale ⟨b.mantissa, 1⟩ 2 b.exponent

/-- The midpoint to the neighbour above. Counted in quarters of a unit, midpoints are whole
numbers. -/
def upper (b : Binary64) : Ratio := .scale ⟨4 * b.mantissa + 2, 4⟩ 2 b.exponent

def lower (b : Binary64) : Ratio :=
  let gap := if b.mantissa = Nat.pow 2 52 ∧ minExponent < b.exponent then 1 else 2
  .scale ⟨4 * b.mantissa - gap, 4⟩ 2 b.exponent

def readsBack (b : Binary64) (r : Ratio) : Bool :=
  if b.mantissa % 2 = 0 then b.lower.le r && r.le b.upper
  else !r.le b.lower && !b.upper.le r

def log10 (r : Ratio) : Int :=
  let k : Int := digitCount r.num - digitCount r.den
  if Ratio.le (.scale ⟨1, 1⟩ 10 k) r then k else k - 1

def isNearer (r s t : Ratio) : Bool :=
  2 * r.num * (s.den * t.den) ≥ r.den * (s.num * t.den + t.num * s.den)

def onGrid? (b : Binary64) (unit : Int) : Option Decimal :=
  let below : Decimal := ⟨(b.ratio.scale 10 (-unit)).floor, unit⟩
  let above : Decimal := ⟨below.digits + 1, unit⟩
  match b.readsBack below.ratio, b.readsBack above.ratio with
  | true, true => if isNearer b.ratio above.ratio below.ratio then some above else some below
  | true, false => some below
  | false, true => some above
  | false, false => none

/-- The shortest decimal of a positive value. -/
def shortest (b : Binary64) : Decimal :=
  let first := log10 b.ratio
  let found := (List.range 17).findSome? fun (n : Nat) => b.onGrid? (first - n)
  found.getD ⟨(b.ratio.scale 10 (16 - first)).floor, first - 16⟩

namespace Decimal

def text (d : Decimal) : List Char :=
  let digits := Nat.toDigits 10 d.digits
  match d.exponent with
  | .ofNat e => digits ++ List.replicate e '0' ++ ['.', '0']
  | .negSucc e =>
    let places := e + 1
    let padded := List.replicate (places + 1 - digits.length) '0' ++ digits
    let whole := padded.take (padded.length - places)
    let rest := ((padded.drop (padded.length - places)).reverse.dropWhile (· = '0')).reverse
    whole ++ '.' :: (if rest.isEmpty then ['0'] else rest)

end Decimal

def text (b : Binary64) : List Char :=
  if b.mantissa = 0 then ['0', '.', '0'] else b.shortest.text

end Quiesce.Binary64
