import JavaRender.Proofs.Layout.Outline

/-!
Trees of well-sorted programs in which one slot is empty that must not be. For each such tree it is
known which object lost which slot, and which lines of the program stand in front of the innermost
statement, field, method or class that holds the object; these are called its holder.
-/
namespace JavaRender.Lacking

open Typed Layout

structure Spot where
  owner : String
  slot : String
deriving DecidableEq, Repr

def Spot.fault (spot : Spot) : Tree.Fault := .malformed spot.owner (some spot.slot) .missing

def mandatory : Tree → List String
  | .group _ | .expressionStmt _ => ["expression"]
  | .binary _ _ _ => ["operator", "left", "right"]
  | .access _ _ | .declaration _ _ | .field _ _ => ["variable"]
  | .call _ _ _ => ["function", "arguments"]
  | .assignment _ _ => ["receiver", "value"]
  | .ifElse _ _ _ => ["condition", "then_statements", "else_statements"]
  | .forEach _ _ _ => ["name", "value", "statements"]
  | .whileLoop _ _ => ["condition", "statements"]
  | .returnStmt _ => ["value"]
  | .method _ _ _ => ["function", "parameters", "statements"]
  | .source _ _ => ["fields", "methods"]
  | _ => []

def cleared (slot name : String) (content : Tree) : Tree :=
  if slot = name then .absent else content

def emptied (slot : String) : Tree → Tree
  | .typeRef name jvmName => .typeRef (cleared slot "name" name) (cleared slot "jvm_name" jvmName)
  | .varRef name jvmName type =>
    .varRef (cleared slot "name" name) (cleared slot "jvm_name" jvmName) (cleared slot "type" type)
  | .funRef name jvmName returnType parameterTypes =>
    .funRef (cleared slot "name" name) (cleared slot "jvm_name" jvmName)
      (cleared slot "return_type" returnType) (cleared slot "parameter_types" parameterTypes)
  | .literal value tag => .literal (cleared slot "value" value) (cleared slot "kind" tag)
  | .group e => .group (cleared slot "expression" e)
  | .binary operator left right =>
    .binary (cleared slot "operator" operator) (cleared slot "left" left)
      (cleared slot "right" right)
  | .access var receiver => .access (cleared slot "variable" var) (cleared slot "receiver" receiver)
  | .call function arguments receiver =>
    .call (cleared slot "function" function) (cleared slot "arguments" arguments)
      (cleared slot "receiver" receiver)
  | .expressionStmt e => .expressionStmt (cleared slot "expression" e)
  | .declaration var value =>
    .declaration (cleared slot "variable" var) (cleared slot "value" value)
  | .assignment receiver value =>
    .assignment (cleared slot "receiver" receiver) (cleared slot "value" value)
  | .ifElse condition thenStatements elseStatements =>
    .ifElse (cleared slot "condition" condition) (cleared slot "then_statements" thenStatements)
      (cleared slot "else_statements" elseStatements)
  | .forEach name value statements =>
    .forEach (cleared slot "name" name) (cleared slot "value" value)
      (cleared slot "statements" statements)
  | .whileLoop condition statements =>
    .whileLoop (cleared slot "condition" condition) (cleared slot "statements" statements)
  | .returnStmt value => .returnStmt (cleared slot "value" value)
  | .field var value => .field (cleared slot "variable" var) (cleared slot "value" value)
  | .method function parameters statements =>
    .method (cleared slot "function" function) (cleared slot "parameters" parameters)
      (cleared slot "statements" statements)
  | .source fields methods =>
    .source (cleared slot "fields" fields) (cleared slot "methods" methods)
  | t => t

inductive InExpr : Expr → Tree → Spot → Prop
  | here (e : Expr) {slot : String} (h : slot ∈ mandatory e.toTree) :
      InExpr e (emptied slot e.toTree) ⟨e.toTree.className, slot⟩
  | group {e : Expr} {t : Tree} {spot : Spot} (h : InExpr e t spot) :
      InExpr (.group e) (.group t) spot
  | left (op : String) {left : Expr} {t : Tree} {spot : Spot} (h : InExpr left t spot)
      (right : Expr) : InExpr (.binary op left right) (.binary (.text op) t right.toTree) spot
  | right (op : String) (left : Expr) {right : Expr} {t : Tree} {spot : Spot}
      (h : InExpr right t spot) :
      InExpr (.binary op left right) (.binary (.text op) left.toTree t) spot
  | owner (var : VarRef) {receiver : Expr} {t : Tree} {spot : Spot} (h : InExpr receiver t spot) :
      InExpr (.access var (some receiver)) (.access var.toTree t) spot
  | argument (function : FunRef) (front : List Expr) {e : Expr} {t : Tree} {spot : Spot}
      (h : InExpr e t spot) (back : List Expr) (receiver : Option Expr) :
      InExpr (.call function (front ++ e :: back) receiver)
        (.call function.toTree (.sequence true (exprTrees front ++ t :: exprTrees back))
          (optionTree receiver)) spot
  | callee (function : FunRef) (arguments : List Expr) {receiver : Expr} {t : Tree} {spot : Spot}
      (h : InExpr receiver t spot) :
      InExpr (.call function arguments (some receiver))
        (.call function.toTree (.sequence true (exprTrees arguments)) t) spot

/-- The tree of a statement in which one spot is empty that no statement within it holds. -/
inductive InHolder : Stmt → Tree → Spot → Prop
  | here (s : Stmt) {slot : String} (h : slot ∈ mandatory s.toTree) :
      InHolder s (emptied slot s.toTree) ⟨s.toTree.className, slot⟩
  | expression {e : Expr} {t : Tree} {spot : Spot} (h : InExpr e t spot) :
      InHolder (.expression e) (.expressionStmt t) spot
  | type (var : VarRef) (value : Option Expr) :
      InHolder (.declaration var value)
        (.declaration (emptied "type" var.toTree) (optionTree value)) ⟨"Variable", "type"⟩
  | initial (var : VarRef) {value : Expr} {t : Tree} {spot : Spot} (h : InExpr value t spot) :
      InHolder (.declaration var (some value)) (.declaration var.toTree t) spot
  | target {receiver : Expr} {t : Tree} {spot : Spot} (h : InExpr receiver t spot) (value : Expr) :
      InHolder (.assignment receiver value) (.assignment t value.toTree) spot
  | assigned (receiver : Expr) {value : Expr} {t : Tree} {spot : Spot} (h : InExpr value t spot) :
      InHolder (.assignment receiver value) (.assignment receiver.toTree t) spot
  | ifCondition {condition : Expr} {t : Tree} {spot : Spot} (h : InExpr condition t spot)
      (thenStatements elseStatements : List Stmt) :
      InHolder (.ifElse condition thenStatements elseStatements)
        (.ifElse t (.sequence true (stmtTrees thenStatements))
          (.sequence true (stmtTrees elseStatements))) spot
  | iterated (name : String) {value : Expr} {t : Tree} {spot : Spot} (h : InExpr value t spot)
      (statements : List Stmt) :
      InHolder (.forEach name value statements)
        (.forEach (.text name) t (.sequence true (stmtTrees statements))) spot
  | whileCondition {condition : Expr} {t : Tree} {spot : Spot} (h : InExpr condition t spot)
      (statements : List Stmt) :
      InHolder (.whileLoop condition statements)
        (.whileLoop t (.sequence true (stmtTrees statements))) spot
  | returned {value : Expr} {t : Tree} {spot : Spot} (h : InExpr value t spot) :
      InHolder (.returnStmt value) (.returnStmt t) spot

def openedElse (header : String) : List String → List String
  | [] => [header ++ " \x7b\x7d else \x7b"]
  | first :: others => (header ++ " \x7b") :: deeper (first :: others) ++ ["\x7d else \x7b"]

/-- The tree of a statement in which one spot is empty, with the lines of the statement in front of
the holder and the lines of the holder. -/
inductive InStmt : Stmt → Tree → Spot → List String → List String → Prop
  | holder {s : Stmt} {t : Tree} {spot : Spot} (h : InHolder s t spot) :
      InStmt s t spot [] (outline s).lines
  | thenPart (condition : Expr) (front : List Stmt) {s : Stmt} {t : Tree} {spot : Spot}
      {lead own : List String} (h : InStmt s t spot lead own) (back elseStatements : List Stmt) :
      InStmt (.ifElse condition (front ++ s :: back) elseStatements)
        (.ifElse condition.toTree (.sequence true (stmtTrees front ++ t :: stmtTrees back))
          (.sequence true (stmtTrees elseStatements)))
        spot
        (("if (" ++ condition.text ++ ")" ++ " \x7b") :: deeper (linesOf (outlines front) ++ lead))
        (deeper own)
  | elsePart (condition : Expr) (thenStatements front : List Stmt) {s : Stmt} {t : Tree}
      {spot : Spot} {lead own : List String} (h : InStmt s t spot lead own) (back : List Stmt) :
      InStmt (.ifElse condition thenStatements (front ++ s :: back))
        (.ifElse condition.toTree (.sequence true (stmtTrees thenStatements))
          (.sequence true (stmtTrees front ++ t :: stmtTrees back)))
        spot
        (openedElse ("if (" ++ condition.text ++ ")") (linesOf (outlines thenStatements)) ++
          deeper (linesOf (outlines front) ++ lead))
        (deeper own)
  | forPart (name : String) (value : Expr) (front : List Stmt) {s : Stmt} {t : Tree} {spot : Spot}
      {lead own : List String} (h : InStmt s t spot lead own) (back : List Stmt) :
      InStmt (.forEach name value (front ++ s :: back))
        (.forEach (.text name) value.toTree
          (.sequence true (stmtTrees front ++ t :: stmtTrees back)))
        spot
        (("for (var " ++ name ++ " : " ++ value.text ++ ")" ++ " \x7b") ::
          deeper (linesOf (outlines front) ++ lead))
        (deeper own)
  | whilePart (condition : Expr) (front : List Stmt) {s : Stmt} {t : Tree} {spot : Spot}
      {lead own : List String} (h : InStmt s t spot lead own) (back : List Stmt) :
      InStmt (.whileLoop condition (front ++ s :: back))
        (.whileLoop condition.toTree (.sequence true (stmtTrees front ++ t :: stmtTrees back)))
        spot
        (("while (" ++ condition.text ++ ")" ++ " \x7b") ::
          deeper (linesOf (outlines front) ++ lead))
        (deeper own)

inductive InField : Field → Tree → Spot → Prop
  | here (f : Field) {slot : String} (h : slot ∈ mandatory f.toTree) :
      InField f (emptied slot f.toTree) ⟨f.toTree.className, slot⟩
  | type (f : Field) :
      InField f (.field (emptied "type" f.var.toTree) (optionTree f.value)) ⟨"Variable", "type"⟩
  | initial (f : Field) {value : Expr} (hvalue : f.value = some value) {t : Tree} {spot : Spot}
      (h : InExpr value t spot) : InField f (.field f.var.toTree t) spot

inductive InMethod : Method → Tree → Spot → List String → List String → Prop
  | here (m : Method) {slot : String} (h : slot ∈ mandatory m.toTree) :
      InMethod m (emptied slot m.toTree) ⟨m.toTree.className, slot⟩ [] (methodLines m)
  | function (m : Method) {slot : String} (h : slot ∈ ["return_type", "parameter_types"]) :
      InMethod m
        (.method (emptied slot m.function.toTree) (.sequence true (m.parameters.map .text))
          (.sequence true (stmtTrees m.statements)))
        ⟨"Function", slot⟩ [] (methodLines m)
  | body (m : Method) {front : List Stmt} {s : Stmt} {back : List Stmt}
      (hstatements : m.statements = front ++ s :: back) {t : Tree} {spot : Spot}
      {lead own : List String} (h : InStmt s t spot lead own) :
      InMethod m
        (.method m.function.toTree (.sequence true (m.parameters.map .text))
          (.sequence true (stmtTrees front ++ t :: stmtTrees back)))
        spot (methodHeader m :: deeper (linesOf (outlines front) ++ lead)) (deeper own)

inductive InSource : Source → Tree → Spot → List String → List String → Prop
  | here (s : Source) {slot : String} (h : slot ∈ mandatory s.toTree) :
      InSource s (emptied slot s.toTree) ⟨s.toTree.className, slot⟩ [] (lines s)
  | field (front : List Field) {f : Field} {t : Tree} {spot : Spot} (h : InField f t spot)
      (back : List Field) (methods : List Method) :
      InSource ⟨front ++ f :: back, methods⟩
        (.source (.sequence true (front.map Field.toTree ++ t :: back.map Field.toTree))
          (.sequence true (methods.map Method.toTree)))
        spot ("public class Main \x7b" :: "" :: deeper (front.map fieldLine))
        (deeper [fieldLine f])
  | method (fields : List Field) (front : List Method) {m : Method} {t : Tree} {spot : Spot}
      {lead own : List String} (h : InMethod m t spot lead own) (back : List Method) :
      InSource ⟨fields, front ++ m :: back⟩
        (.source (.sequence true (fields.map Field.toTree))
          (.sequence true (front.map Method.toTree ++ t :: back.map Method.toTree)))
        spot
        ("public class Main \x7b" ::
          (fieldSection fields ++ deeper entryPointLines ++
            (front.flatMap fun m => "" :: deeper (methodLines m)) ++ "" :: deeper lead))
        (deeper own)

end JavaRender.Lacking
