import JavaRender.Number.Binary64

/-!
Values of the interchange format. Numbers keep their decimal digits; a reader may instead hand over
whole numbers and doubles, and the three constants that are no decimal numbers are doubles always.
-/
namespace JavaRender

inductive Json where
  | null
  | boolean (b : Bool)
  | number (d : Decimal)
  | whole (n : Int)
  | double (x : Binary64)
  | string (s : String)
  | array (items : List Json)
  | object (members : List (String × Json))

namespace Json

def kindName : Json → String
  | null => "NoneType"
  | boolean _ => "bool"
  | number _ => "Decimal"
  | whole _ => "int"
  | double _ => "float"
  | string _ => "str"
  | array _ => "list"
  | object _ => "dict"

def lastMember? {α : Type} (key : String) : List (String × α) → Option α
  | [] => none
  | (k, v) :: rest => (lastMember? key rest).or (if k = key then some v else none)

end Json

end JavaRender
