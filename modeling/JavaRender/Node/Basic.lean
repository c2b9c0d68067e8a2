import JavaRender.Tree.Basic

/-!
Nodes of an analyzed program as documents give them: every descriptor is complete and every literal
holds a value of its kind. Which node stands where is not fixed yet. A node is shown to the renderer
as the tree that has its parts in the slots of the same names.
-/
namespace JavaRender

structure TypeRef where
  name : String
  jvmName : String
deriving DecidableEq, Repr

structure VarRef where
  name : String
  jvmName : String
  type : TypeRef
deriving DecidableEq, Repr

structure FunRef where
  name : String
  jvmName : String
  returnType : TypeRef
  parameterTypes : List TypeRef
deriving DecidableEq, Repr

namespace TypeRef

def builtins : List TypeRef := [
  ⟨"Any", "Object"⟩,
  ⟨"Nil", "Void"⟩,
  ⟨"Comparable", "Comparable"⟩,
  ⟨"Boolean", "boolean"⟩,
  ⟨"Integer", "int"⟩,
  ⟨"Decimal", "double"⟩,
  ⟨"Character", "char"⟩,
  ⟨"String", "String"⟩,
  ⟨"IntegerIterable", "Iterable<Integer>"⟩]

def builtin? (name : String) : Option TypeRef := builtins.find? (·.name == name)

def unknownMessage (name : String) : String := "Unknown type: " ++ name

def toTree (t : TypeRef) : Tree := .typeRef (.text t.name) (.text t.jvmName)

end TypeRef

def VarRef.toTree (v : VarRef) : Tree :=
  .varRef (.text v.name) (.text v.jvmName) v.type.toTree

def FunRef.toTree (f : FunRef) : Tree :=
  .funRef (.text f.name) (.text f.jvmName) f.returnType.toTree
    (.sequence true (f.parameterTypes.map TypeRef.toTree))

/-- A literal, its value being of its kind by construction. -/
inductive Literal where
  | string (s : String)
  | character (c : Char)
  | integer (n : Int)
  | decimal (d : Decimal)
  | boolean (b : Bool)
  | nil
deriving DecidableEq, Repr

namespace Literal

def kind : Literal → LiteralKind
  | string _ => .string
  | character _ => .character
  | integer _ => .integer
  | decimal _ => .decimal
  | boolean _ => .boolean
  | nil => .nil

def value : Literal → Tree
  | string s => .text s
  | character c => .text (String.singleton c)
  | integer n => .integer n
  | decimal d => .decimal (.finite d)
  | boolean b => .boolean b
  | nil => .absent

def toTree (l : Literal) : Tree := .literal l.value (.kind l.kind)

end Literal

inductive Node where
  | literal (l : Literal)
  | group (expression : Node)
  | binary (operator : String) (left right : Node)
  | access (var : VarRef) (receiver : Option Node)
  | call (function : FunRef) (arguments : List Node) (receiver : Option Node)
  | expressionStmt (expression : Node)
  | declaration (var : VarRef) (value : Option Node)
  | assignment (receiver value : Node)
  | ifElse (condition : Node) (thenStatements elseStatements : List Node)
  | forEach (name : String) (value : Node) (statements : List Node)
  | whileLoop (condition : Node) (statements : List Node)
  | returnStmt (value : Node)
  | field (var : VarRef) (value : Option Node)
  | method (function : FunRef) (parameters : List String) (statements : List Node)
  | source (fields methods : List Node)

namespace Node

mutual

def toTree : Node → Tree
  | literal l => l.toTree
  | group expression => .group expression.toTree
  | binary operator left right => .binary (.text operator) left.toTree right.toTree
  | access var receiver => .access var.toTree (optionToTree receiver)
  | call function arguments receiver =>
    .call function.toTree (.sequence true (listToTrees arguments)) (optionToTree receiver)
  | expressionStmt expression => .expressionStmt expression.toTree
  | declaration var value => .declaration var.toTree (optionToTree value)
  | assignment receiver value => .assignment receiver.toTree value.toTree
  | ifElse condition thenStatements elseStatements =>
    .ifElse condition.toTree (.sequence true (listToTrees thenStatements))
      (.sequence true (listToTrees elseStatements))
  | forEach name value statements =>
    .forEach (.text name) value.toTree (.sequence true (listToTrees statements))
  | whileLoop condition statements =>
    .whileLoop condition.toTree (.sequence true (listToTrees statements))
  | returnStmt value => .returnStmt value.toTree
  | field var value => .field var.toTree (optionToTree value)
  | method function parameters statements =>
    .method function.toTree (.sequence true (parameters.map .text))
      (.sequence true (listToTrees statements))
  | source fields methods =>
    .source (.sequence true (listToTrees fields)) (.sequence true (listToTrees methods))

def optionToTree : Option Node → Tree
  | none => .absent
  | some node => node.toTree

def listToTrees : List Node → List Tree
  | [] => []
  | node :: rest => node.toTree :: listToTrees rest

end

def className (node : Node) : String := node.toTree.className

end Node

end JavaRender
