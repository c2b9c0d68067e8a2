import JavaRender.Text.Quoted
import JavaRender.Tree.Basic

/-!
What can go wrong with a tree. A malformed tree lacks something that its maker promised; the other
faults are operations that a value in the wrong place does not support, and those of the sink.
-/
namespace JavaRender.Tree

inductive Problem where
  | missing
  | notSequence
  | invalidValue (tag : LiteralKind)
  | parameterMismatch
deriving DecidableEq, Repr

def Problem.text : Problem → String
  | missing => "is missing"
  | notSequence => "is not a sequence"
  | invalidValue tag => "is not a valid " ++ tag.name ++ " value"
  | parameterMismatch => "do not match the function parameter types"

inductive Fault where
  /-- A value of class `owner` breaks the contract of trees, in a slot or as a whole. -/
  | malformed (owner : String) (slot : Option String) (problem : Problem)
  | noSlot (owner slot : String)
  | notIterable (owner : String)
  | notHashable (owner : String)
  | signalingNan
  /-- A number that may not even be compared was compared. -/
  | notComparable
  | notJoinable (index : Nat) (owner : String)
  | notWritable (owner : String)
  | tooManyDigits
  | noLiteralKind (shown : String)
  | sinkFull
  | interrupted (reason : String)
deriving DecidableEq, Repr

def Fault.message : Fault → String
  | malformed owner none _ => "Unsupported node type: " ++ owner
  | malformed owner (some slot) problem =>
    "Malformed tree: " ++ owner ++ "." ++ slot ++ " " ++ problem.text
  | noSlot owner slot => "'" ++ owner ++ "' object has no attribute '" ++ slot ++ "'"
  | notIterable owner => "'" ++ owner ++ "' object is not iterable"
  | notHashable owner => "unhashable type: '" ++ owner ++ "'"
  | signalingNan => "Cannot hash a signaling NaN value"
  | notComparable => Decimal.invalidMessage
  | notJoinable index owner =>
    "sequence item " ++ toString index ++ ": expected str instance, " ++ owner ++ " found"
  | notWritable owner => "string argument expected, got '" ++ owner ++ "'"
  | tooManyDigits => Whole.longMessage
  | noLiteralKind shown => "Unsupported literal value: " ++ shown
  | sinkFull => "disk full"
  | interrupted reason => Quoted.text reason

end JavaRender.Tree
