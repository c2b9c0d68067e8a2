/-!
Bounds of whole numbers as text, and powers as factors. Beyond 4300 digits a whole number is neither
shown nor read, unless its digits are kept as they are.
-/
namespace JavaRender

namespace Whole

def maxDigits : Nat := 4300

def isLong (n : Int) : Bool := Nat.pow 10 maxDigits ≤ n.natAbs

def longMessage : String :=
  "Exceeds the limit (4300 digits) for integer string conversion; " ++
    "use sys.set_int_max_str_digits() to increase the limit"

def longNumeralMessage (count : Nat) : String :=
  "Exceeds the limit (4300 digits) for integer string conversion: value has " ++
    toString count ++ " digits; use sys.set_int_max_str_digits() to increase the limit"

end Whole

def pow2 (e : Int) : Nat := Nat.pow 2 e.toNat

def pow10 (e : Int) : Nat := Nat.pow 10 e.toNat

end JavaRender
