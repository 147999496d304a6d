import SourceRecipes.Decimal.Double

/-!
# The shortest decimal of a double

A finite double is written with the fewest digits that read back as that double, and of the decimals with so few
digits with the nearest one; of two that are equally near, with the one whose last digit is even. For 1, 2, … 17 digits the search looks at the two neighbours of the value on the grid of
decimals with that many digits: if any point of the grid reads back, one of the two does.
-/

namespace SourceRecipes

/-- A fraction that stands for a point of the real line, with a positive denominator. -/
structure Point where
  num : Nat
  den : Nat

def Point.lt (a b : Point) : Bool := a.num * b.den < b.num * a.den

def Point.le (a b : Point) : Bool := a.num * b.den ≤ b.num * a.den

/-- The decimal `digits * 10 ^ exponent`. -/
structure Decimal where
  digits : Nat
  exponent : Int
  deriving DecidableEq, Repr

namespace Decimal

def point (d : Decimal) : Point :=
  if 0 ≤ d.exponent then ⟨d.digits * Nat.pow 10 d.exponent.toNat, 1⟩ else ⟨d.digits, Nat.pow 10 (-d.exponent).toNat⟩

/-- The decimal without the zeros at its end; `fuel` bounds their number. -/
def trimmed (fuel : Nat) (d : Decimal) : Decimal :=
  match fuel with
  | 0 => d
  | fuel + 1 => if d.digits ≠ 0 ∧ d.digits % 10 = 0 then trimmed fuel ⟨d.digits / 10, d.exponent + 1⟩ else d

/-- Digits with the point after the first, as they stand before an exponent. -/
def pointAfterFirst : List Char → List Char
  | [] => []
  | [d] => [d]
  | d :: rest => d :: '.' :: rest

/-- A positive decimal is written out from `10 ^ (-5)` up to `10 ^ 16`, always with a point, and with a signed exponent beyond. -/
def text (d : Decimal) : List Char :=
  let digits := Nat.toDigits 10 d.digits
  let leading : Int := d.exponent + digits.length - 1
  if -5 ≤ leading ∧ leading ≤ 15 then
    if 0 ≤ d.exponent then digits ++ List.replicate d.exponent.toNat '0' ++ ['.', '0']
    else if 0 ≤ leading then
      let whole := leading.toNat + 1
      digits.take whole ++ '.' :: digits.drop whole
    else '0' :: '.' :: List.replicate (-leading - 1).toNat '0' ++ digits
  else
    pointAfterFirst digits ++ 'e' :: (if leading < 0 then '-' else '+') :: Nat.toDigits 10 leading.natAbs

end Decimal

namespace Double

/-- The reals that are read as the double `mantissa * 2 ^ exponent`, in quarters of the unit `2 ^ exponent`:
the lower end, the value and the upper end. -/
structure Interval where
  low : Nat
  value : Nat
  high : Nat
  endsIncluded : Bool

/-- Below the least mantissa the doubles lie twice as dense, so the lower end comes closer there. -/
def interval (mantissa : Nat) (exponent : Int) : Interval where
  low := if mantissa = Nat.pow 2 52 ∧ exponent > leastExponent then 4 * mantissa - 1 else 4 * mantissa - 2
  value := 4 * mantissa
  high := 4 * mantissa + 2
  endsIncluded := mantissa % 2 = 0

/-- So many quarters of `2 ^ exponent`. -/
def quarters (count : Nat) (exponent : Int) : Point :=
  let p := magnitude count (exponent - 2)
  ⟨p.1, p.2⟩

/-- Whether a point is read as the double with this interval. -/
def readsBack (i : Interval) (exponent : Int) (p : Point) : Bool :=
  let low := quarters i.low exponent
  let high := quarters i.high exponent
  if i.endsIncluded then low.le p && p.le high else low.lt p && p.lt high

/-- The number of places before the decimal point; zero and below for numbers under one tenth. -/
def places (p : Point) : Int :=
  if p.den ≤ p.num then decimalLength (p.num / p.den)
  else
    let zeros : Int := ((List.range 400).find? fun t => p.den ≤ p.num * Nat.pow 10 (t + 1)).getD 400
    0 - zeros

/-- The whole part of a point over `10 ^ exponent`. -/
def gridFloor (p : Point) (exponent : Int) : Nat :=
  if 0 ≤ exponent then p.num / (p.den * Nat.pow 10 exponent.toNat) else p.num * Nat.pow 10 (-exponent).toNat / p.den

def compareMiddle (p : Point) (below above : Point) : Ordering :=
  compare (2 * p.num * below.den * above.den) ((above.num * below.den + below.num * above.den) * p.den)

/-- The nearer of two neighbours on a grid to the point between them, the even one if it is their middle. -/
def nearest (p : Point) (below above : Decimal) : Decimal :=
  match compareMiddle p below.point above.point with
  | .lt => below
  | .gt => above
  | .eq => if below.digits % 2 = 0 then below else above

/-- The neighbour of the value on the grid of decimals with `count` digits that reads back. -/
def onGrid (i : Interval) (exponent : Int) (count : Nat) : Option Decimal :=
  let value := quarters i.value exponent
  let step := places value - count
  let below : Decimal := ⟨gridFloor value step, step⟩
  let above : Decimal := ⟨below.digits + 1, step⟩
  match readsBack i exponent below.point, readsBack i exponent above.point with
  | true, true => some (nearest value below above)
  | true, false => some below
  | false, true => some above
  | false, false => none

def shortest (mantissa : Nat) (exponent : Int) : Decimal :=
  let i := interval mantissa exponent
  let found := (List.range 17).findSome? fun n => onGrid i exponent (n + 1)
  (found.getD ⟨0, 0⟩).trimmed 20

def text : Double → String
  | .finite negative mantissa exponent =>
    let body := if mantissa = 0 then ['0', '.', '0'] else (shortest mantissa exponent).text
    String.ofList (if negative then '-' :: body else body)
  | .infinite negative => if negative then "-inf" else "inf"
  | .notANumber => "NaN"

end Double

end SourceRecipes
