import JavaRender.Json.Basic
import JavaRender.Node.Basic

/-!
Valid trees and their documents. In the document of a tree every node names its class and spells
each slot under its name; a type is always an object, numbers are texts, and what is left out is
null.
-/
namespace JavaRender

def TypeRef.toJson (t : TypeRef) : Json :=
  .object [("name", .string t.name), ("jvm_name", .string t.jvmName)]

def VarRef.toJson (v : VarRef) : Json :=
  .object [("name", .string v.name), ("jvm_name", .string v.jvmName), ("type", v.type.toJson)]

def FunRef.toJson (f : FunRef) : Json :=
  .object [("name", .string f.name), ("jvm_name", .string f.jvmName),
    ("return_type", f.returnType.toJson),
    ("parameter_types", .array (f.parameterTypes.map TypeRef.toJson))]

/-- The value of a literal; numbers of both kinds keep all their digits in a text. -/
def Literal.toJson : Literal → Json
  | string s => .string s
  | character c => .string (String.singleton c)
  | integer n => .string (toString n)
  | decimal d => .string d.text
  | boolean b => .boolean b
  | nil => .null

namespace Node

def tagged (cls : String) (members : List (String × Json)) : Json :=
  .object (("_type", .string cls) :: members)

mutual

@[simp]
def toJson : Node → Json
  | literal l => tagged "Literal" [("value", l.toJson), ("kind", .string l.kind.name)]
  | group expression => tagged "Group" [("expression", expression.toJson)]
  | binary operator left right =>
    tagged "Binary" [("operator", .string operator), ("left", left.toJson), ("right", right.toJson)]
  | access var receiver =>
    tagged "Access" [("variable", var.toJson), ("receiver", optionToJson receiver)]
  | call function arguments receiver =>
    tagged "Call" [("function", function.toJson), ("arguments", .array (listToJson arguments)),
      ("receiver", optionToJson receiver)]
  | expressionStmt expression => tagged "ExpressionStmt" [("expression", expression.toJson)]
  | declaration var value =>
    tagged "Declaration" [("variable", var.toJson), ("value", optionToJson value)]
  | assignment receiver value =>
    tagged "Assignment" [("receiver", receiver.toJson), ("value", value.toJson)]
  | ifElse condition thenStatements elseStatements =>
    tagged "If" [("condition", condition.toJson),
      ("then_statements", .array (listToJson thenStatements)),
      ("else_statements", .array (listToJson elseStatements))]
  | forEach name value statements =>
    tagged "For" [("name", .string name), ("value", value.toJson),
      ("statements", .array (listToJson statements))]
  | whileLoop condition statements =>
    tagged "While" [("condition", condition.toJson),
      ("statements", .array (listToJson statements))]
  | returnStmt value => tagged "Return" [("value", value.toJson)]
  | field var value => tagged "Field" [("variable", var.toJson), ("value", optionToJson value)]
  | method function parameters statements =>
    tagged "Method" [("function", function.toJson), ("parameters", .array (parameters.map .string)),
      ("statements", .array (listToJson statements))]
  | source fields methods =>
    tagged "Source" [("fields", .array (listToJson fields)),
      ("methods", .array (listToJson methods))]

def optionToJson : Option Node → Json
  | none => .null
  | some node => node.toJson

def listToJson : List Node → List Json
  | [] => []
  | node :: rest => node.toJson :: listToJson rest

end

/-- A document names the class of its node and all of its slots. -/
theorem toJson_slots (n : Node) : ∃ members, n.toJson = tagged n.className members ∧
    members.map Prod.fst = n.toTree.slots.map Prod.fst := by
  cases n <;> exact ⟨_, rfl, rfl⟩

end Node

namespace Json

mutual

/-- All numbers of a value are decimals, that is, within the range of their exponents. -/
def InRange : Json → Prop
  | number d => d.inRange = true
  | array items => AllInRange items
  | object members => MembersInRange members
  | _ => True

def AllInRange : List Json → Prop
  | [] => True
  | v :: rest => v.InRange ∧ AllInRange rest

def MembersInRange : List (String × Json) → Prop
  | [] => True
  | (_, v) :: rest => v.InRange ∧ MembersInRange rest

end

end Json

namespace Tree

inductive FitsKind : LiteralKind → Tree → Prop
  | string (s : String) : FitsKind .string (.text s)
  | character {s : String} (single : s.length = 1) : FitsKind .character (.text s)
  | integer (n : Int) : FitsKind .integer (.integer n)
  | decimal {d : Decimal} (held : d.inRange = true) : FitsKind .decimal (.decimal (.finite d))
  | boolean (b : Bool) : FitsKind .boolean (.boolean b)
  | nil : FitsKind .nil .absent

/-- The valid trees: nodes of the fifteen classes in any nesting, with texts for all names and with
literals that fit their kinds. -/
inductive IsNode : Tree → Prop
  | literal {k : LiteralKind} {value : Tree} (fits : FitsKind k value) :
      IsNode (.literal value (.kind k))
  | group {expression : Tree} (inner : IsNode expression) : IsNode (.group expression)
  | binary (operator : String) {left right : Tree} (hleft : IsNode left) (hright : IsNode right) :
      IsNode (.binary (.text operator) left right)
  | access (var : VarRef) {receiver : Tree} (hreceiver : receiver ≠ .absent → IsNode receiver) :
      IsNode (.access var.toTree receiver)
  | call (function : FunRef) {arguments : List Tree} {receiver : Tree}
      (harguments : ∀ t ∈ arguments, IsNode t) (hreceiver : receiver ≠ .absent → IsNode receiver) :
      IsNode (.call function.toTree (.sequence true arguments) receiver)
  | expressionStmt {expression : Tree} (inner : IsNode expression) :
      IsNode (.expressionStmt expression)
  | declaration (var : VarRef) {value : Tree} (hvalue : value ≠ .absent → IsNode value) :
      IsNode (.declaration var.toTree value)
  | assignment {receiver value : Tree} (hreceiver : IsNode receiver) (hvalue : IsNode value) :
      IsNode (.assignment receiver value)
  | ifElse {condition : Tree} {thenStatements elseStatements : List Tree}
      (hcondition : IsNode condition) (hthen : ∀ t ∈ thenStatements, IsNode t)
      (helse : ∀ t ∈ elseStatements, IsNode t) :
      IsNode (.ifElse condition (.sequence true thenStatements) (.sequence true elseStatements))
  | forEach (name : String) {value : Tree} {statements : List Tree} (hvalue : IsNode value)
      (hstatements : ∀ t ∈ statements, IsNode t) :
      IsNode (.forEach (.text name) value (.sequence true statements))
  | whileLoop {condition : Tree} {statements : List Tree} (hcondition : IsNode condition)
      (hstatements : ∀ t ∈ statements, IsNode t) :
      IsNode (.whileLoop condition (.sequence true statements))
  | returnStmt {value : Tree} (hvalue : IsNode value) : IsNode (.returnStmt value)
  | field (var : VarRef) {value : Tree} (hvalue : value ≠ .absent → IsNode value) :
      IsNode (.field var.toTree value)
  | method (function : FunRef) (parameters : List String) {statements : List Tree}
      (hstatements : ∀ t ∈ statements, IsNode t) :
      IsNode (.method function.toTree (.sequence true (parameters.map .text))
        (.sequence true statements))
  | source {fields methods : List Tree} (hfields : ∀ t ∈ fields, IsNode t)
      (hmethods : ∀ t ∈ methods, IsNode t) :
      IsNode (.source (.sequence true fields) (.sequence true methods))

end Tree

end JavaRender
