import JavaRender.Expression.Literal
import JavaRender.Expression.Operator
import JavaRender.Tree.Slot

/-!
Expressions in Java. The text of an expression is made before anything of its statement is written,
so rendering one only collects notices. The arguments of a call come before its receiver; an access
without a receiver gives the name as it is, which in a faulty tree need not be a text.
-/
namespace JavaRender.Expression

open JavaRender.Tree

def joined (parts : List Tree) : Except Fault String := do
  let words ← parts.zipIdx.mapM fun (t, i) =>
    match t with
    | .text s => .ok s
    | t => .error (.notJoinable i t.qualifiedClassName)
  .ok (", ".intercalate words)

def qualify (receiver name : Tree) (rendered : Noting Tree) : Noting Tree := do
  if receiver.isAbsent then pure name
  else
    let front ← (← rendered).spelling?
    let back ← name.spelling?
    pure (.text (front ++ "." ++ back))

mutual

def render : Tree → Noting Tree
  | .literal value tag => do
    let s ← Literal.render value tag
    pure (.text s)
  | .group expression => do
    need "Group" "expression" expression
    let s ← (← render expression).spelling?
    pure (.text ("(" ++ s ++ ")"))
  | .binary operator left right => do
    need "Binary" "operator" operator
    let op ← Operator.render operator
    need "Binary" "left" left
    let l ← render left
    need "Binary" "right" right
    let r ← render right
    pure (.text ((← l.spelling?) ++ " " ++ (← op.spelling?) ++ " " ++ (← r.spelling?)))
  | .access var receiver => do
    need "Access" "variable" var
    let name ← var.jvmName
    qualify receiver name (render receiver)
  | .call function arguments receiver => do
    need "Call" "function" function
    let _ ← needItems "Call" "arguments" arguments
    let args ← joined (← renderItems arguments)
    let name ← function.jvmSpelling
    qualify receiver (.text (name ++ "(" ++ args ++ ")")) (render receiver)
  | t => throw t.unsupported

def renderItems : Tree → Noting (List Tree)
  | .sequence _ items => renderAll items
  | _ => pure []

def renderAll : List Tree → Noting (List Tree)
  | [] => pure []
  | t :: rest => do
    let first ← render t
    let others ← renderAll rest
    pure (first :: others)

end

end JavaRender.Expression
