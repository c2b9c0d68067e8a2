import JavaRender.Expression.Literal
import JavaRender.Node.Basic

/-!
Well-sorted programs. Every position holds a node of its category, every literal a value of its
kind, and a method has a name for each parameter type of its function; the trees of these programs
are the well-sorted trees.
-/
namespace JavaRender.Typed

/-- A literal whose value fits its kind. A double stands for the decimal that it denotes, a kind
for its number, and without a value every value will do. -/
inductive Literal where
  | string (s : String)
  | character (c : Char)
  | integer (n : Int)
  | ordinal (k : LiteralKind)
  | decimal (d : Decimal)
  | double (x : Binary64) (d : Decimal) (denotes : Literal.decimal? (.double x) = some d)
  | boolean (b : Bool)
  | nil (value : Tree)

inductive Expr where
  | literal (l : Literal)
  | group (expression : Expr)
  | binary (operator : String) (left right : Expr)
  | access (var : VarRef) (receiver : Option Expr)
  | call (function : FunRef) (arguments : List Expr) (receiver : Option Expr)

inductive Stmt where
  | expression (e : Expr)
  | declaration (var : VarRef) (value : Option Expr)
  | assignment (receiver value : Expr)
  | ifElse (condition : Expr) (thenStatements elseStatements : List Stmt)
  | forEach (name : String) (value : Expr) (statements : List Stmt)
  | whileLoop (condition : Expr) (statements : List Stmt)
  | returnStmt (value : Expr)

structure Field where
  var : VarRef
  value : Option Expr

structure Method where
  function : FunRef
  parameters : List String
  statements : List Stmt
  matched : function.parameterTypes.length = parameters.length

structure Source where
  fields : List Field
  methods : List Method

namespace Literal

def kind : Literal → LiteralKind
  | string _ => .string
  | character _ => .character
  | integer _ => .integer
  | ordinal _ => .integer
  | decimal _ => .decimal
  | double _ _ _ => .decimal
  | boolean _ => .boolean
  | nil _ => .nil

def value : Literal → Tree
  | string s => .text s
  | character c => .text (String.singleton c)
  | integer n => .integer n
  | ordinal k => .kind k
  | decimal d => .decimal (.finite d)
  | double x _ _ => .double x
  | boolean b => .boolean b
  | nil value => value

def toTree (l : Literal) : Tree := .literal l.value (.kind l.kind)

end Literal

mutual

def Expr.toTree : Expr → Tree
  | .literal l => l.toTree
  | .group e => .group e.toTree
  | .binary op left right => .binary (.text op) left.toTree right.toTree
  | .access var none => .access var.toTree .absent
  | .access var (some receiver) => .access var.toTree receiver.toTree
  | .call function arguments none =>
    .call function.toTree (.sequence true (exprTrees arguments)) .absent
  | .call function arguments (some receiver) =>
    .call function.toTree (.sequence true (exprTrees arguments)) receiver.toTree

def exprTrees : List Expr → List Tree
  | [] => []
  | e :: rest => e.toTree :: exprTrees rest

end

def optionTree : Option Expr → Tree
  | none => .absent
  | some e => e.toTree

mutual

def Stmt.toTree : Stmt → Tree
  | .expression e => .expressionStmt e.toTree
  | .declaration var value => .declaration var.toTree (optionTree value)
  | .assignment receiver value => .assignment receiver.toTree value.toTree
  | .ifElse condition thenStatements elseStatements =>
    .ifElse condition.toTree (.sequence true (stmtTrees thenStatements))
      (.sequence true (stmtTrees elseStatements))
  | .forEach name value statements =>
    .forEach (.text name) value.toTree (.sequence true (stmtTrees statements))
  | .whileLoop condition statements =>
    .whileLoop condition.toTree (.sequence true (stmtTrees statements))
  | .returnStmt value => .returnStmt value.toTree

def stmtTrees : List Stmt → List Tree
  | [] => []
  | s :: rest => s.toTree :: stmtTrees rest

end

def Field.toTree (f : Field) : Tree := .field f.var.toTree (optionTree f.value)

def Method.toTree (m : Method) : Tree :=
  .method m.function.toTree (.sequence true (m.parameters.map .text))
    (.sequence true (stmtTrees m.statements))

def Source.toTree (s : Source) : Tree :=
  .source (.sequence true (s.fields.map Field.toTree))
    (.sequence true (s.methods.map Method.toTree))

end JavaRender.Typed
