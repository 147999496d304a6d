/-!
# Double-precision numbers

The numbers of JSON and YAML that are no whole numbers are doubles: a mantissa below `2 ^ 53` times a power of
two from `2 ^ (-1074)` to `2 ^ 971`. Everything is done in exact arithmetic on `Nat`; `ofRatio` is the only place where
a number is rounded, to the nearest double and to the even mantissa of two that are equally near.
-/

namespace SourceRecipes

/-- A finite double is `mantissa * 2 ^ exponent`, where the mantissa has 53 bits unless the exponent is the least one. -/
inductive Double where
  | finite (negative : Bool) (mantissa : Nat) (exponent : Int)
  | infinite (negative : Bool)
  | notANumber
  deriving DecidableEq, Repr

namespace Double

def leastExponent : Int := -1074

def greatestExponent : Int := 971

def zero (negative : Bool) : Double :=
  .finite negative 0 leastExponent

/-- The quotient as a whole number, a half going to the even neighbour. -/
def roundHalfEven (num den : Nat) : Nat :=
  let quotient := num / den
  let twice := 2 * (num % den)
  if twice < den then quotient
  else if twice = den then quotient + quotient % 2
  else quotient + 1

/-- The fraction `num / den * 2 ^ (-exponent)` as numerator and denominator. -/
def scaled (num den : Nat) (exponent : Int) : Nat × Nat :=
  if 0 ≤ exponent then (num, den * Nat.pow 2 exponent.toNat) else (num * Nat.pow 2 (-exponent).toNat, den)

/-- The double nearest to `num / den`. -/
def ofRatio (negative : Bool) (num den : Nat) : Double :=
  if num = 0 then zero negative
  else
    let guess : Int := (num.log2 : Int) - den.log2 - 52
    let atGuess := scaled num den guess
    let exact := if atGuess.1 / atGuess.2 < Nat.pow 2 52 then guess - 1 else guess
    let exponent := max exact leastExponent
    let fraction := scaled num den exponent
    let mantissa := roundHalfEven fraction.1 fraction.2
    let (mantissa, exponent) := if mantissa = Nat.pow 2 53 then (Nat.pow 2 52, exponent + 1) else (mantissa, exponent)
    if exponent > greatestExponent then .infinite negative else .finite negative mantissa exponent

def ofNat (n : Nat) : Double :=
  ofRatio false n 1

def decimalLength (n : Nat) : Nat :=
  (Nat.toDigits 10 n).length

/-- The double nearest to `digits * 10 ^ exponent`. Exponents far beyond the range are decided by their size alone. -/
def ofDecimal (negative : Bool) (digits : Nat) (exponent : Int) : Double :=
  if digits = 0 then zero negative
  else if exponent + decimalLength digits > 400 then .infinite negative
  else if exponent + decimalLength digits < -400 then zero negative
  else if 0 ≤ exponent then ofRatio negative (digits * Nat.pow 10 exponent.toNat) 1
  else ofRatio negative digits (Nat.pow 10 (-exponent).toNat)

def magnitude (mantissa : Nat) (exponent : Int) : Nat × Nat :=
  if 0 ≤ exponent then (mantissa * Nat.pow 2 exponent.toNat, 1) else (mantissa, Nat.pow 2 (-exponent).toNat)

def isInfinite : Double → Bool
  | .infinite _ => true
  | _ => false

def isFinite : Double → Bool
  | .finite .. => true
  | _ => false

def isZero : Double → Bool
  | .finite _ mantissa _ => mantissa == 0
  | _ => false

def negate : Double → Double
  | .finite negative mantissa exponent => .finite (!negative) mantissa exponent
  | .infinite negative => .infinite !negative
  | .notANumber => .notANumber

/-- The rounded product of two doubles of which the first is not negative and the second is a power of ten. -/
def timesPositive (x y : Double) : Double :=
  match x, y with
  | .finite negative m e, .finite _ m' e' =>
    let a := magnitude m e
    let b := magnitude m' e'
    ofRatio negative (a.1 * b.1) (a.2 * b.2)
  | x, _ => x

/-- The rounded quotient of a double by one that is positive and finite. -/
def overPositive (x y : Double) : Double :=
  match x, y with
  | .finite negative m e, .finite _ m' e' =>
    let a := magnitude m e
    let b := magnitude m' e'
    ofRatio negative (a.1 * b.2) (a.2 * b.1)
  | x, _ => x

end Double

end SourceRecipes
