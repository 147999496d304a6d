import SourceRecipes.Json.Basic

/-!
# JSON numbers

A number without point and exponent is a whole number if it lies between `-2 ^ 63` and `2 ^ 64`, and a double otherwise;
so is `-0`. The digits of a double are collected in 64 bits, with what does not fit going to the exponent, and then
scaled by a power of ten in one rounded step (or several, for exponents below `-308`). A number beyond the doubles is
malformed. Numbers that are skipped need only have the right form.
-/

namespace SourceRecipes.Json

inductive Number where
  | integer (n : Int)
  | real (x : Double)

def Number.value : Number → Value
  | integer n => .integer n
  | real x => .real x

def startsWithDigit : List Char → Bool
  | c :: _ => Text.isDigit c
  | [] => false

def dropDigits (text : List Char) : List Char :=
  text.dropWhile Text.isDigit

/-- Whether another digit still fits 64 bits. -/
def fits (significand digit : Nat) : Bool :=
  significand * 10 + digit < Nat.pow 2 64

/-- The digits before the point: the significand, the rest, and, when the digits did not fit, how many were left out. -/
def wholeDigits (significand : Nat) : List Char → Nat × Option Nat × List Char
  | [] => (significand, none, [])
  | c :: rest =>
    match Text.digitValue? 10 c with
    | none => (significand, none, c :: rest)
    | some digit =>
      if fits significand digit then wholeDigits (significand * 10 + digit) rest
      else (significand, some (c :: rest.takeWhile Text.isDigit).length, dropDigits rest)

/-- The digits after the point: the significand, how many digits went into it, and the rest. -/
def fractionDigits (significand count : Nat) : List Char → Nat × Nat × List Char
  | [] => (significand, count, [])
  | c :: rest =>
    match Text.digitValue? 10 c with
    | none => (significand, count, c :: rest)
    | some digit =>
      if fits significand digit then fractionDigits (significand * 10 + digit) (count + 1) rest
      else (significand, count, dropDigits rest)

/-- A power of ten up to `10 ^ 308`. -/
def powerOfTen (exponent : Nat) : Double :=
  Double.ofNat (Nat.pow 10 exponent)

/-- The significand scaled by a power of ten, `none` beyond the doubles; `fuel` bounds the steps that exponents
below `-308` take. -/
def scale (fuel : Nat) (x : Double) (exponent : Int) : Option Double :=
  if exponent.natAbs ≤ 308 then
    if 0 ≤ exponent then
      let scaled := x.timesPositive (powerOfTen exponent.natAbs)
      if scaled.isInfinite then none else some scaled
    else some (x.overPositive (powerOfTen exponent.natAbs))
  else if x.isZero then some x
  else if 0 ≤ exponent then none
  else
    match fuel with
    | 0 => some (Double.zero false)
    | fuel + 1 => scale fuel (x.overPositive (powerOfTen 308)) (exponent + 308)

def assemble (negative : Bool) (significand : Nat) (exponent : Int) : Except Error Double :=
  match scale 4 (Double.ofNat significand) exponent with
  | none => .error .malformed
  | some x => .ok (if negative then x.negate else x)

/-- The digits of an exponent, `none` once it no longer fits 31 bits. -/
def exponentDigits (exponent : Nat) : List Char → Option Nat × List Char
  | [] => (some exponent, [])
  | c :: rest =>
    match Text.digitValue? 10 c with
    | none => (some exponent, c :: rest)
    | some digit =>
      if exponent * 10 + digit < Nat.pow 2 31 then exponentDigits (exponent * 10 + digit) rest else (none, dropDigits rest)

/-- Reads an exponent from after its letter and assembles the number. -/
def readExponent (negative : Bool) (significand : Nat) (exponent : Int) (text : List Char) :
    Except Error (Double × List Char) :=
  let (down, text) :=
    match text with
    | '+' :: rest => (false, rest)
    | '-' :: rest => (true, rest)
    | text => (false, text)
  match text with
  | [] => .error .truncated
  | c :: rest =>
    match Text.digitValue? 10 c with
    | none => .error .malformed
    | some digit =>
      match exponentDigits digit rest with
      | (some read, rest) =>
        (assemble negative significand (if down then exponent - read else exponent + read)).map (·, rest)
      | (none, rest) => if significand ≠ 0 ∧ !down then .error .malformed else .ok (Double.zero negative, rest)

/-- Reads the digits after a point, and an exponent if there is one. -/
def readFraction (negative : Bool) (significand : Nat) (exponent : Int) (text : List Char) :
    Except Error (Double × List Char) :=
  let (significand, count, rest) := fractionDigits significand 0 text
  if startsWithDigit text then
    let exponent := exponent - count
    match rest with
    | 'e' :: rest | 'E' :: rest => readExponent negative significand exponent rest
    | rest => (assemble negative significand exponent).map (·, rest)
  else if text.isEmpty then .error .truncated
  else .error .malformed

def wholeNumber (negative : Bool) (significand : Nat) : Number :=
  if negative then
    if 1 ≤ significand ∧ significand ≤ Nat.pow 2 63 then .integer (-significand) else .real (Double.ofNat significand).negate
  else .integer significand

def readTail (negative : Bool) (significand : Nat) (leftOut : Option Nat) (text : List Char) :
    Except Error (Number × List Char) :=
  match text with
  | '.' :: rest => (readFraction negative significand (leftOut.getD 0) rest).map fun (x, rest) => (.real x, rest)
  | 'e' :: rest | 'E' :: rest =>
    (readExponent negative significand (leftOut.getD 0) rest).map fun (x, rest) => (.real x, rest)
  | text =>
    match leftOut with
    | none => .ok (wholeNumber negative significand, text)
    | some count => (assemble negative significand count).map fun x => (.real x, text)

def readUnsigned (negative : Bool) : List Char → Except Error (Number × List Char)
  | [] => .error .truncated
  | c :: rest =>
    match Text.digitValue? 10 c with
    | none => .error .malformed
    | some 0 => if startsWithDigit rest then .error .malformed else readTail negative 0 none rest
    | some digit =>
      let (significand, leftOut, rest) := wholeDigits digit rest
      readTail negative significand leftOut rest

def readNumber : List Char → Except Error (Number × List Char)
  | '-' :: rest => readUnsigned true rest
  | text => readUnsigned false text

/-! ### Skipping -/

def skipDigits (text : List Char) : Except Error (List Char) :=
  if startsWithDigit text then .ok (dropDigits text) else .error .malformed

def skipExponent (text : List Char) : Except Error (List Char) :=
  match text with
  | '+' :: rest | '-' :: rest => skipDigits rest
  | text => skipDigits text

def skipUnsigned (text : List Char) : Except Error (List Char) := do
  let rest ←
    match text with
    | '0' :: rest => if startsWithDigit rest then .error .malformed else .ok rest
    | text => skipDigits text
  match rest with
  | '.' :: rest =>
    match ← skipDigits rest with
    | 'e' :: rest | 'E' :: rest => skipExponent rest
    | rest => return rest
  | 'e' :: rest | 'E' :: rest => skipExponent rest
  | rest => return rest

def skipNumber : List Char → Except Error (List Char)
  | '-' :: rest => skipUnsigned rest
  | text => skipUnsigned text

end SourceRecipes.Json
