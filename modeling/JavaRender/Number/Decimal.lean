import JavaRender.Number.Whole
import JavaRender.Text.Blank
import JavaRender.Text.Digit

/-!
Decimal numbers that keep their digits. A finite number is a sign, a coefficient and a power of ten,
so 1.5 and 1.50 differ; its text gives all three back. Numerals also name the infinities and
not-a-number, and an exponent has eighteen digits at most.
-/
namespace JavaRender

/-- The number `±coefficient * 10 ^ exponent`. -/
structure Decimal where
  negative : Bool
  coefficient : Nat
  exponent : Int
deriving DecidableEq, Repr

namespace Decimal

def maxExponent : Int := 999999999999999999

def invalidMessage : String := "[<class 'decimal.InvalidOperation'>]"

def minExponent : Int := -1999999999999999997

def digits (d : Decimal) : List Char := Nat.toDigits 10 d.coefficient

def adjusted (d : Decimal) : Int := d.exponent + (d.digits.length : Int) - 1

/-- Only a written point or exponent can take a number out of range, the digits alone cannot. -/
def inRange (d : Decimal) : Bool :=
  d.exponent == 0 || (minExponent ≤ d.exponent && d.adjusted ≤ maxExponent)

def ofInt (n : Int) : Decimal := ⟨n < 0, n.natAbs, 0⟩

/-- The whole number of a decimal with exponent zero. -/
def toInt (d : Decimal) : Int := if d.negative then -(d.coefficient : Int) else d.coefficient

/-- Whether a decimal equals a positive whole number. The exponent is looked at first, for powers of
ten beyond the digits of either need not be formed. -/
def equalsNat (d : Decimal) (n : Nat) : Bool :=
  if d.negative then false
  else if 0 ≤ d.exponent then d.exponent ≤ n && d.coefficient * pow10 d.exponent = n
  else d.exponent.natAbs < d.digits.length && d.coefficient = n * pow10 (-d.exponent)

def pointed (ds : List Char) (places : Nat) : List Char :=
  if places = 0 then ds
  else if places < ds.length then
    ds.take (ds.length - places) ++ '.' :: ds.drop (ds.length - places)
  else '0' :: '.' :: (List.replicate (places - ds.length) '0' ++ ds)

def exponentText (e : Int) : List Char :=
  (if e < 0 then '-' else '+') :: Nat.toDigits 10 e.natAbs

/-- The digits of a number without its sign: positional while that needs no zero behind the digits
and at most five between the point and the first digit, else scientific. -/
def magnitudeText (d : Decimal) : List Char :=
  if d.exponent ≤ 0 && -6 ≤ d.adjusted then pointed d.digits d.exponent.natAbs
  else
    (match d.digits with
      | [] => []
      | [c] => [c]
      | c :: rest => c :: '.' :: rest) ++ 'E' :: exponentText d.adjusted

def chars (d : Decimal) : List Char :=
  if d.negative then '-' :: d.magnitudeText else d.magnitudeText

def text (d : Decimal) : String := String.ofList d.chars

inductive Extended where
  | finite (d : Decimal)
  | infinity (negative : Bool)
  | nan (negative signaling : Bool) (payload : Nat)
deriving DecidableEq, Repr

namespace Extended

def text : Extended → String
  | finite d => d.text
  | infinity negative => (if negative then "-" else "") ++ "Infinity"
  | nan negative signaling payload =>
    (if negative then "-" else "") ++ (if signaling then "sNaN" else "NaN") ++
      (if payload = 0 then "" else toString payload)

end Extended

def readSign : List Char → Bool × List Char
  | '-' :: rest => (true, rest)
  | '+' :: rest => (false, rest)
  | cs => (false, cs)

def readExponent? : List Char → Option Int
  | [] => some 0
  | c :: rest =>
    if c = 'e' || c = 'E' then
      let (negative, ds) := readSign rest
      if ds.isEmpty || !ds.all Char.isDigit then none
      else
        let n := Nat.ofDigitChars 10 ds 0
        some (if negative then -(n : Int) else n)
    else none

def readMagnitude? (negative : Bool) (cs : List Char) : Option Decimal :=
  let whole := cs.takeWhile Char.isDigit
  let (places, rest) := match cs.dropWhile Char.isDigit with
    | '.' :: tail => (tail.takeWhile Char.isDigit, tail.dropWhile Char.isDigit)
    | tail => ([], tail)
  if whole.isEmpty && places.isEmpty then none
  else (readExponent? rest).map fun e =>
    ⟨negative, Nat.ofDigitChars 10 (whole ++ places) 0, e - places.length⟩

/-- The part of a not-a-number behind its name: digits, of which zeros at the front say nothing. -/
def readPayload? (cs : List Char) : Option Nat :=
  if cs.all Char.isDigit then some (Nat.ofDigitChars 10 cs 0) else none

def readAscii? (cs : List Char) : Option Extended :=
  let (negative, body) := readSign cs
  let lower := body.map Char.toLower
  if lower = ['i', 'n', 'f'] || lower = ['i', 'n', 'f', 'i', 'n', 'i', 't', 'y'] then
    some (.infinity negative)
  else if lower.take 3 = ['n', 'a', 'n'] then
    (readPayload? (body.drop 3)).map (.nan negative false ·)
  else if lower.take 4 = ['s', 'n', 'a', 'n'] then
    (readPayload? (body.drop 4)).map (.nan negative true ·)
  else
    match readMagnitude? negative body with
    | some d => if d.inRange then some (.finite d) else none
    | none => none

def asciiDigit (c : Char) : Char :=
  if c.toNat < 0x80 then c
  else match Digit.value? c with
    | some n => Nat.digitChar n
    | none => c

/-- A numeral given as text. White space around it is dropped, underscores are ignored, and digits
of every script count. `none` if it is no numeral or out of range. -/
def read? (cs : List Char) : Option Extended :=
  readAscii? (((Blank.trim cs).filter (· ≠ '_')).map asciiDigit)

end Decimal

end JavaRender
