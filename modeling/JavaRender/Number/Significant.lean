import JavaRender.Number.Shortest

/-!
Doubles with a given number of significant digits. A value is rounded to the nearest point of the
decimal grid, a tie going to the even digit; its text has an exponent always, or only where the
digits do not reach the point.
-/
namespace JavaRender.Significant

def roundAt (m : Nat) (e ten : Int) : Nat :=
  Binary64.roundDiv (m * pow2 e * pow10 (-ten)) (pow2 (-e) * pow10 ten)

/-- The first `count` digits of `m * 2 ^ e` and the exponent of the first of them. Rounding may
give one digit more, which is a zero at the end. -/
def digits (count m : Nat) (e : Int) : List Char × Int :=
  if m = 0 then (List.replicate count '0', 0)
  else
    let leading := Shortest.leadingExponent m e
    let ds := Nat.toDigits 10 (roundAt m e (leading - count + 1))
    (ds.take count, if count < ds.length then leading + 1 else leading)

/-- Digits around a point behind the first `whole` of them. Without digits behind it the point is
left out unless it is asked for. -/
def pointed (ds : List Char) (whole : Nat) (always : Bool) : List Char :=
  match ds.drop whole with
  | [] => ds ++ if always then ['.'] else []
  | places => ds.take whole ++ '.' :: places

def exponentText (e : Int) : List Char :=
  'e' :: (if e < 0 then '-' else '+') :: Digit.padded 10 2 e.natAbs

def scientific (places m : Nat) (e : Int) (always : Bool) : List Char :=
  let (ds, leading) := digits (places + 1) m e
  pointed ds 1 always ++ exponentText leading

/-- A magnitude with `count` digits: positional from 0.0001 up to the last digit, else with an
exponent. Zeros at the end are dropped unless they are asked for, the point with them. -/
def general (count m : Nat) (e : Int) (always : Bool) : List Char :=
  let (ds, leading) := digits (max 1 count) m e
  let kept := fun whole =>
    if always then ds else ds.take whole ++ Shortest.stripZeros (ds.drop whole)
  if -4 ≤ leading && leading < max 1 count then
    if leading < 0 then
      '0' :: '.' :: (List.replicate (leading.natAbs - 1) '0' ++ kept 1)
    else pointed (kept (leading.toNat + 1)) (leading.toNat + 1) always
  else pointed (kept 1) 1 always ++ exponentText leading

end JavaRender.Significant
