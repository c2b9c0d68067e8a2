import JavaRender.Number.Binary64

/-!
Trees as a renderer may meet them. Every slot of a node can hold any value, so a tree can have holes
and values in places where they make no sense; a value knows its class and its named slots.
-/
namespace JavaRender

inductive LiteralKind where
  | string
  | character
  | integer
  | decimal
  | boolean
  | nil
deriving DecidableEq, Repr

namespace LiteralKind

def name : LiteralKind → String
  | string => "STRING"
  | character => "CHARACTER"
  | integer => "INTEGER"
  | decimal => "DECIMAL"
  | boolean => "BOOLEAN"
  | nil => "NIL"

def number : LiteralKind → Nat
  | string => 1
  | character => 2
  | integer => 3
  | decimal => 4
  | boolean => 5
  | nil => 6

def all : List LiteralKind := [string, character, integer, decimal, boolean, nil]

def ofName? (s : String) : Option LiteralKind := all.find? (·.name == s)

theorem ofName?_name (k : LiteralKind) : ofName? k.name = some k := by cases k <;> decide

end LiteralKind

/-- A value in a tree. A fixed sequence is one that cannot change its length. -/
inductive Tree where
  | absent
  | boolean (b : Bool)
  | integer (n : Int)
  | decimal (d : Decimal.Extended)
  | double (x : Binary64)
  | text (s : String)
  | bytes (bs : List UInt8)
  | kind (k : LiteralKind)
  | sequence (fixed : Bool) (items : List Tree)
  | typeRef (name jvmName : Tree)
  | varRef (name jvmName type : Tree)
  | funRef (name jvmName returnType parameterTypes : Tree)
  | literal (value tag : Tree)
  | group (expression : Tree)
  | binary (operator left right : Tree)
  | access (var receiver : Tree)
  | call (function arguments receiver : Tree)
  | expressionStmt (expression : Tree)
  | declaration (var value : Tree)
  | assignment (receiver value : Tree)
  | ifElse (condition thenStatements elseStatements : Tree)
  | forEach (name value statements : Tree)
  | whileLoop (condition statements : Tree)
  | returnStmt (value : Tree)
  | field (var value : Tree)
  | method (function parameters statements : Tree)
  | source (fields methods : Tree)

namespace Tree

def isAbsent : Tree → Bool
  | absent => true
  | _ => false

def className : Tree → String
  | absent => "NoneType"
  | boolean _ => "bool"
  | integer _ => "int"
  | decimal _ => "Decimal"
  | double _ => "float"
  | text _ => "str"
  | bytes _ => "bytes"
  | kind _ => "LiteralKind"
  | sequence fixed _ => if fixed then "tuple" else "list"
  | typeRef _ _ => "Type"
  | varRef _ _ _ => "Variable"
  | funRef _ _ _ _ => "Function"
  | literal _ _ => "Literal"
  | group _ => "Group"
  | binary _ _ _ => "Binary"
  | access _ _ => "Access"
  | call _ _ _ => "Call"
  | expressionStmt _ => "ExpressionStmt"
  | declaration _ _ => "Declaration"
  | assignment _ _ => "Assignment"
  | ifElse _ _ _ => "If"
  | forEach _ _ _ => "For"
  | whileLoop _ _ => "While"
  | returnStmt _ => "Return"
  | field _ _ => "Field"
  | method _ _ _ => "Method"
  | source _ _ => "Source"

def qualifiedClassName : Tree → String
  | decimal _ => "decimal.Decimal"
  | t => t.className

def slots : Tree → List (String × Tree)
  | typeRef name jvmName => [("name", name), ("jvm_name", jvmName)]
  | varRef name jvmName type => [("name", name), ("jvm_name", jvmName), ("type", type)]
  | funRef name jvmName returnType parameterTypes =>
    [("name", name), ("jvm_name", jvmName), ("return_type", returnType),
      ("parameter_types", parameterTypes)]
  | literal value tag => [("value", value), ("kind", tag)]
  | group expression => [("expression", expression)]
  | binary operator left right => [("operator", operator), ("left", left), ("right", right)]
  | access var receiver => [("variable", var), ("receiver", receiver)]
  | call function arguments receiver =>
    [("function", function), ("arguments", arguments), ("receiver", receiver)]
  | expressionStmt expression => [("expression", expression)]
  | declaration var value => [("variable", var), ("value", value)]
  | assignment receiver value => [("receiver", receiver), ("value", value)]
  | ifElse condition thenStatements elseStatements =>
    [("condition", condition), ("then_statements", thenStatements),
      ("else_statements", elseStatements)]
  | forEach name value statements =>
    [("name", name), ("value", value), ("statements", statements)]
  | whileLoop condition statements => [("condition", condition), ("statements", statements)]
  | returnStmt value => [("value", value)]
  | field var value => [("variable", var), ("value", value)]
  | method function parameters statements =>
    [("function", function), ("parameters", parameters), ("statements", statements)]
  | source fields methods => [("fields", fields), ("methods", methods)]
  | _ => []

def slot? (t : Tree) (name : String) : Option Tree := t.slots.lookup name

/-- Whether a value equals a positive whole number. Kinds count as their numbers, truth as one. -/
def equalsNat (n : Nat) : Tree → Bool
  | boolean b => b && n = 1
  | integer k => k = n
  | decimal (.finite d) => d.equalsNat n
  | double x => x.equalsNat n
  | kind k => k.number = n
  | _ => false

def items? : Tree → Option (List Tree)
  | sequence _ items => some items
  | _ => none

end Tree

end JavaRender
