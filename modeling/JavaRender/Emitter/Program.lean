import JavaRender.Emitter.Basic

/-!
Programs in Java. A source becomes one class with its fields, an entry point and its methods. A
declaration and a conditional leave their line open and the list that they stand in ends it; every
other statement ends its own. All checks of a node come before its first fragment.
-/
namespace JavaRender.Emitter

open JavaRender.Tree

def declarationText (var value : Tree) : Noting String := do
  let type ← var.require "type"
  let typeName ← type.jvmSpelling
  let name ← var.jvmSpelling
  if value.isAbsent then pure (typeName ++ " " ++ name ++ ";")
  else
    let start ← (← Expression.render value).spelling?
    pure (typeName ++ " " ++ name ++ " = " ++ start ++ ";")

/-- A field on a line of its own. Any value with a variable and a value passes for a field. -/
def field (t : Tree) : Render Unit := do
  let var ← t.require "variable"
  let value ← t.slotOf "value"
  let text ← noting (declarationText var value)
  line (.ok text)
  newline

def fields : List Tree → Render Unit
  | [] => pure ()
  | t :: rest => do
    field t
    fields rest

structure Header where
  returnType : Tree
  function : Tree
  parameters : String

def parameterTexts : List Tree → List Tree → Except Fault (List String)
  | type :: types, name :: names => do
    let typeName ← type.jvmSpelling
    let shown ← name.spelling?
    let others ← parameterTexts types names
    .ok ((typeName ++ " " ++ shown) :: others)
  | _, _ => .ok []

def header (t : Tree) : Except Fault Header := do
  let function ← t.require "function"
  let returnType ← function.require "return_type"
  let types ← function.requireItems "parameter_types"
  let names ← t.requireItems "parameters"
  let _ ← t.requireItems "statements"
  if types.length ≠ names.length then
    .error (.malformed t.className (some "parameters") .parameterMismatch)
  else
    let texts ← parameterTexts types names
    .ok ⟨returnType, function, ", ".intercalate texts⟩

def Header.text (h : Header) : Except Fault String := do
  let typeName ← h.returnType.jvmSpelling
  let name ← h.function.jvmSpelling
  .ok (typeName ++ " " ++ name ++ "(" ++ h.parameters ++ ") \x7b")

def closeLine : Render Unit := do
  line (.ok "\x7d")
  newline

def entryPoint : Render Unit := do
  line (.ok "public static void main(String[] args) \x7b")
  newline
  block do
    line (.ok ("System.exit(new " ++ mainClass ++ "().main());"))
    newline
  closeLine

def methodAround (t : Tree) (body : Render Unit) : Render Unit := do
  let h ← header t
  line h.text
  newline
  block body
  closeLine

def leavesLineOpen : Tree → Bool
  | .declaration _ _ => true
  | .ifElse _ _ _ => true
  | _ => false

mutual

def visit : Tree → Render Unit
  | .source fieldSlot methodSlot => do
    let fieldItems ← needItems "Source" "fields" fieldSlot
    let methodItems ← needItems "Source" "methods" methodSlot
    write ("public class " ++ mainClass ++ " \x7b")
    newline
    block do
      if fieldItems.isEmpty then pure ()
      else
        newline
        fields fieldItems
        newline
      entryPoint
      if methodItems.isEmpty then pure ()
      else
        newline
        methodsOf methodSlot
    line (.ok "\x7d")
  | .field var value => field (.field var value)
  | .method function parameters statements =>
    methodAround (.method function parameters statements) (statementsOf statements)
  | .expressionStmt expression => do
    need "ExpressionStmt" "expression" expression
    let text ← noting (Expression.render expression)
    line do .ok ((← text.spelling?) ++ ";")
    newline
  | .declaration var value => do
    need "Declaration" "variable" var
    let text ← noting (declarationText var value)
    line (.ok text)
  | .assignment receiver value => do
    need "Assignment" "receiver" receiver
    let target ← noting (Expression.render receiver)
    need "Assignment" "value" value
    let text ← noting (Expression.render value)
    line do .ok ((← target.spelling?) ++ " = " ++ (← text.spelling?) ++ ";")
    newline
  | .ifElse condition thenStatements elseStatements => do
    need "If" "condition" condition
    let text ← noting (Expression.render condition)
    let _ ← needItems "If" "then_statements" thenStatements
    let others ← needItems "If" "else_statements" elseStatements
    line do .ok ("if (" ++ (← text.spelling?) ++ ")")
    bodyOf thenStatements
    if others.isEmpty then pure ()
    else
      write " else"
      bodyOf elseStatements
  | .forEach name value statements => do
    need "For" "name" name
    need "For" "value" value
    let text ← noting (Expression.render value)
    let _ ← needItems "For" "statements" statements
    line do .ok ("for (var " ++ (← name.spelling?) ++ " : " ++ (← text.spelling?) ++ ")")
    bodyOf statements
    newline
  | .whileLoop condition statements => do
    need "While" "condition" condition
    let text ← noting (Expression.render condition)
    let _ ← needItems "While" "statements" statements
    line do .ok ("while (" ++ (← text.spelling?) ++ ")")
    bodyOf statements
    newline
  | .returnStmt value => do
    need "Return" "value" value
    let text ← noting (Expression.render value)
    line do .ok ("return " ++ (← text.spelling?) ++ ";")
    newline
  | t => do
    let text ← noting (Expression.render t)
    writeValue text
termination_by structural t => t

def statementsOf : Tree → Render Unit
  | .sequence _ items => statements items
  | _ => pure ()

def statements : List Tree → Render Unit
  | [] => pure ()
  | t :: rest => do
    visit t
    if leavesLineOpen t then newline
    statements rest

/-- A body behind the head of its statement; an empty one stays on that line. -/
def bodyOf : Tree → Render Unit
  | .sequence _ [] => write " \x7b\x7d"
  | .sequence _ items => do
    write " \x7b"
    newline
    block (statements items)
    line (.ok "\x7d")
  | _ => pure ()

def methodsOf : Tree → Render Unit
  | .sequence _ items => methods true items
  | _ => pure ()

def methods (first : Bool) : List Tree → Render Unit
  | [] => pure ()
  | t :: rest => do
    if first then pure () else newline
    method t
    methods false rest

def method : Tree → Render Unit
  | .method function parameters statements =>
    methodAround (.method function parameters statements) (statementsOf statements)
  | t => do
    let _ ← header t
    pure ()

end

def emit (t : Tree) : Render Unit := do
  modify fun e => { e with level := 0 }
  visit t
  match t with
  | .source fieldSlot methodSlot =>
    let count := fun (slot : Tree) => (slot.items?.getD []).length
    modify fun e =>
      { e with notices := e.notices ++ [.rendered (count fieldSlot) (count methodSlot)] }
  | _ => pure ()

def generate (t : Tree) (terminator : String) : Except Fault String × List Notice :=
  let (outcome, e) := (emit t).run { terminator }
  (outcome.map fun _ => e.sink.text, e.notices)

end JavaRender.Emitter
