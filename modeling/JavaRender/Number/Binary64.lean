import JavaRender.Number.Decimal

/-!
Binary floating point with 53 significant bits. A value is kept as its exact significand and power
of two; reading rounds a decimal to the nearest value, ties going to the even significand.
-/
namespace JavaRender

/-- A double: not a number, an infinity, or `±significand * 2 ^ exponent`. -/
inductive Binary64 where
  | nan
  | infinity (negative : Bool)
  | finite (negative : Bool) (significand : Nat) (exponent : Int)
deriving DecidableEq, Repr

namespace Binary64

def minExponent : Int := -1074

def maxExponent : Int := 971

def zero : Binary64 := finite false 0 minExponent

/-- The quotient rounded to the nearest whole number, a tie to the even one. -/
def roundDiv (num den : Nat) : Nat :=
  let q := num / den
  let twice := 2 * (num % den)
  if den < twice || (twice = den && q % 2 = 1) then q + 1 else q

def scaled (num den : Nat) (e : Int) : Nat :=
  if 0 ≤ e then roundDiv num (den * pow2 e) else roundDiv (num * pow2 (-e)) den

def ofQuotient (negative : Bool) (num den : Nat) : Binary64 :=
  let guess := max minExponent ((Nat.log2 num : Int) - (Nat.log2 den : Int) - 53)
  let e := if pow2 53 ≤ scaled num den guess then guess + 1 else guess
  let m := scaled num den e
  let (m, e) := if pow2 53 ≤ m then (m / 2, e + 1) else (m, e)
  if maxExponent < e then .infinity negative else .finite negative m e

/-- The nearest double to a decimal number. Far outside the range of doubles the answer is known
from the leading digit alone. -/
def ofDecimal (d : Decimal) : Binary64 :=
  if d.coefficient = 0 || d.adjusted < -400 then .finite d.negative 0 minExponent
  else if 400 < d.adjusted then .infinity d.negative
  else if 0 ≤ d.exponent then ofQuotient d.negative (d.coefficient * pow10 d.exponent) 1
  else ofQuotient d.negative d.coefficient (pow10 (-d.exponent))

def read? (cs : List Char) : Option Binary64 :=
  let (negative, body) := Decimal.readSign cs
  let lower := body.map Char.toLower
  if lower = ['n', 'a', 'n'] then some .nan
  else if lower = ['i', 'n', 'f'] || lower = ['i', 'n', 'f', 'i', 'n', 'i', 't', 'y'] then
    some (.infinity negative)
  else (Decimal.readMagnitude? negative body).map ofDecimal

/-- The sign of a value, not-a-number counting as unsigned. -/
def negative : Binary64 → Bool
  | nan => false
  | infinity negative => negative
  | finite negative _ _ => negative

def magnitudeLe (m : Nat) (e : Int) (m' : Nat) (e' : Int) : Bool :=
  let low := min e e'
  m * pow2 (e - low) ≤ m' * pow2 (e' - low)

/-- The order of the doubles; not-a-number compares with nothing and both zeros are equal. -/
def le : Binary64 → Binary64 → Bool
  | nan, _ => false
  | _, nan => false
  | infinity negative, b => negative || b == infinity false
  | a, infinity negative => !negative || a == infinity true
  | finite false m e, finite false m' e' => magnitudeLe m e m' e'
  | finite true m e, finite true m' e' => magnitudeLe m' e' m e
  | finite true _ _, finite false _ _ => true
  | finite false m _, finite true m' _ => m = 0 && m' = 0

def equalsNat (x : Binary64) (n : Nat) : Bool :=
  match x with
  | finite false m e => m * pow2 e = n * pow2 (-e)
  | _ => false

/-- A value with a fixed number of digits behind the point, a tie going to the even digit. -/
def fixedText (places : Nat) : Binary64 → List Char
  | nan => ['n', 'a', 'n']
  | infinity negative => if negative then ['-', 'i', 'n', 'f'] else ['i', 'n', 'f']
  | finite negative m e =>
    let n := scaled (m * pow10 places) 1 (-e)
    let ds := Decimal.pointed (Digit.padded 10 1 n) places
    if negative then '-' :: ds else ds

end Binary64

end JavaRender
