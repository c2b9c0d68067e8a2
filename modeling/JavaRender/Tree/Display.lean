import JavaRender.Number.Shortest
import JavaRender.Tree.Fault

/-!
Values in words. A display names every class and slot and quotes texts; a spelling is the display
but for texts, decimals and kinds, which spell themselves. Whole numbers of more than 4300 digits
have neither.
-/
namespace JavaRender.Tree

def showSlots (owner : String) (parts : List (String × String)) : String :=
  owner ++ "(" ++ ", ".intercalate (parts.map fun (name, shown) => name ++ "=" ++ shown) ++ ")"

def showItems (fixed : Bool) (shown : List String) : String :=
  if fixed then
    match shown with
    | [one] => "(" ++ one ++ ",)"
    | _ => "(" ++ ", ".intercalate shown ++ ")"
  else "[" ++ ", ".intercalate shown ++ "]"

mutual

def display : Tree → String
  | absent => "None"
  | boolean b => if b then "True" else "False"
  | integer n => toString n
  | decimal d => "Decimal('" ++ d.text ++ "')"
  | double x => Shortest.text x
  | text s => Quoted.text s
  | bytes bs => Quoted.bytes bs
  | kind k => "<LiteralKind." ++ k.name ++ ": " ++ toString k.number ++ ">"
  | sequence fixed items => showItems fixed (displayAll items)
  | typeRef name jvmName =>
    showSlots "Type" [("name", name.display), ("jvm_name", jvmName.display)]
  | varRef name jvmName type =>
    showSlots "Variable"
      [("name", name.display), ("jvm_name", jvmName.display), ("type", type.display)]
  | funRef name jvmName returnType parameterTypes =>
    showSlots "Function"
      [("name", name.display), ("jvm_name", jvmName.display), ("return_type", returnType.display),
        ("parameter_types", parameterTypes.display)]
  | literal value tag => showSlots "Literal" [("value", value.display), ("kind", tag.display)]
  | group expression => showSlots "Group" [("expression", expression.display)]
  | binary operator left right =>
    showSlots "Binary"
      [("operator", operator.display), ("left", left.display), ("right", right.display)]
  | access var receiver =>
    showSlots "Access" [("variable", var.display), ("receiver", receiver.display)]
  | call function arguments receiver =>
    showSlots "Call"
      [("function", function.display), ("arguments", arguments.display),
        ("receiver", receiver.display)]
  | expressionStmt expression => showSlots "ExpressionStmt" [("expression", expression.display)]
  | declaration var value =>
    showSlots "Declaration" [("variable", var.display), ("value", value.display)]
  | assignment receiver value =>
    showSlots "Assignment" [("receiver", receiver.display), ("value", value.display)]
  | ifElse condition thenStatements elseStatements =>
    showSlots "If"
      [("condition", condition.display), ("then_statements", thenStatements.display),
        ("else_statements", elseStatements.display)]
  | forEach name value statements =>
    showSlots "For"
      [("name", name.display), ("value", value.display), ("statements", statements.display)]
  | whileLoop condition statements =>
    showSlots "While" [("condition", condition.display), ("statements", statements.display)]
  | returnStmt value => showSlots "Return" [("value", value.display)]
  | field var value =>
    showSlots "Field" [("variable", var.display), ("value", value.display)]
  | method function parameters statements =>
    showSlots "Method"
      [("function", function.display), ("parameters", parameters.display),
        ("statements", statements.display)]
  | source fields methods =>
    showSlots "Source" [("fields", fields.display), ("methods", methods.display)]

def displayAll : List Tree → List String
  | [] => []
  | t :: rest => t.display :: displayAll rest

end

mutual

def preorder : Tree → List Tree
  | t@(sequence _ items) => t :: preorderAll items
  | t@(typeRef name jvmName) => t :: name.preorder ++ jvmName.preorder
  | t@(varRef name jvmName type) => t :: name.preorder ++ jvmName.preorder ++ type.preorder
  | t@(funRef name jvmName returnType parameterTypes) =>
    t :: name.preorder ++ jvmName.preorder ++ returnType.preorder ++ parameterTypes.preorder
  | t@(literal value tag) => t :: value.preorder ++ tag.preorder
  | t@(group expression) => t :: expression.preorder
  | t@(binary operator left right) => t :: operator.preorder ++ left.preorder ++ right.preorder
  | t@(access var receiver) => t :: var.preorder ++ receiver.preorder
  | t@(call function arguments receiver) =>
    t :: function.preorder ++ arguments.preorder ++ receiver.preorder
  | t@(expressionStmt expression) => t :: expression.preorder
  | t@(declaration var value) => t :: var.preorder ++ value.preorder
  | t@(assignment receiver value) => t :: receiver.preorder ++ value.preorder
  | t@(ifElse condition thenStatements elseStatements) =>
    t :: condition.preorder ++ thenStatements.preorder ++ elseStatements.preorder
  | t@(forEach name value statements) =>
    t :: name.preorder ++ value.preorder ++ statements.preorder
  | t@(whileLoop condition statements) => t :: condition.preorder ++ statements.preorder
  | t@(returnStmt value) => t :: value.preorder
  | t@(field var value) => t :: var.preorder ++ value.preorder
  | t@(method function parameters statements) =>
    t :: function.preorder ++ parameters.preorder ++ statements.preorder
  | t@(source fields methods) => t :: fields.preorder ++ methods.preorder
  | t => [t]

def preorderAll : List Tree → List Tree
  | [] => []
  | t :: rest => t.preorder ++ preorderAll rest

end

def isLongInteger : Tree → Bool
  | integer n => Whole.isLong n
  | _ => false

/-- The display of a value, unless it holds a whole number that is too long to show. -/
def display? (t : Tree) : Except Fault String :=
  if t.preorder.any isLongInteger then .error .tooManyDigits else .ok t.display

def spelling? : Tree → Except Fault String
  | text s => .ok s
  | decimal d => .ok d.text
  | kind k => .ok (toString k.number)
  | t => t.display?

def keyFault? : Tree → Option Fault
  | sequence false _ => some (.notHashable "list")
  | decimal (.nan _ true _) => some .signalingNan
  | _ => none

def checkKey (t : Tree) : Except Fault Unit :=
  match t.preorder.findSome? keyFault? with
  | some fault => .error fault
  | none => .ok ()

/-- The kind of literal for a plain value. A truth value is no whole number here, and a character
has to be tagged, for it looks like a text. -/
def inferKind : Tree → Except Fault LiteralKind
  | absent => .ok .nil
  | boolean _ => .ok .boolean
  | integer _ => .ok .integer
  | kind _ => .ok .integer
  | decimal _ => .ok .decimal
  | double _ => .ok .decimal
  | text _ => .ok .string
  | t => do
    let shown ← t.display?
    .error (.noLiteralKind shown)

end JavaRender.Tree
