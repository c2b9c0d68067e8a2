import JavaRender.Tree.Display

/-!
Operators of binary expressions. A tag in the table has its Java spelling; any other tag stands for
itself, and rendering notes it. Notices are collected in the order in which they arise.
-/
namespace JavaRender

inductive Notice where
  | unmappedOperator (shown : String)
  | rendered (fields methods : Nat)
deriving DecidableEq, Repr

def mainClass : String := "Main"

def Notice.message : Notice → String
  | unmappedOperator shown => "Operator " ++ shown ++ " has no mapping, emitting as is"
  | rendered fields methods =>
    "Rendered class " ++ mainClass ++ ": " ++ toString fields ++ " field(s), " ++
      toString methods ++ " method(s)"

/-- A computation on trees that collects notices, also those before a fault. -/
abbrev Noting := ExceptT Tree.Fault (StateM (List Notice))

namespace Operator

def spellings : List (String × String) := [
  ("AND", "&&"),
  ("OR", "||"),
  ("<", "<"),
  (">", ">"),
  ("<=", "<="),
  (">=", ">="),
  ("==", "=="),
  ("!=", "!="),
  ("ADD", "+"),
  ("+", "+"),
  ("SUBTRACT", "-"),
  ("-", "-"),
  ("MULTIPLY", "*"),
  ("*", "*"),
  ("DIVIDE", "/"),
  ("/", "/"),
  ("EXPONENT", "^")]

def spelling? (tag : String) : Option String := spellings.lookup tag

def render (tag : Tree) : Noting Tree := do
  tag.checkKey
  let known := match tag with
    | .text s => spelling? s
    | _ => none
  match known with
  | some spelling => pure (.text spelling)
  | none => do
    let shown ← tag.display?
    modify (· ++ [.unmappedOperator shown])
    pure tag

end Operator

end JavaRender
