import JavaRender.Node.Basic
import JavaRender.Node.LoadError
import JavaRender.Number.Shortest
import JavaRender.Text.Utf8

/-!
Reading program trees from documents. A node is an object tagged with its class, descriptors are
objects without a tag, and a type may also be the name of a builtin one. Keys are read in a fixed
order, so of several faults the first in that order is reported; unknown keys are not looked at.
-/
namespace JavaRender.Document

def membersOf : Json → Decoded (String → Option Json)
  | .object members => .ok (Json.lastMember? · members)
  | v => refuse (.notObject v.kindName)

def listOf : Json → Decoded (List Json)
  | .array items => .ok items
  | v => refuse (.notList v.kindName)

def textAt (get : String → Option Json) (key : String) : Decoded String :=
  match get key with
  | none => refuse (.missingKey key)
  | some (.string s) => .ok s
  | some _ => under (.key key) (refuse (.notString key))

def jvmNameOf (get : String → Option Json) : Decoded String := do
  let name ← textAt get "name"
  match get "jvm_name" with
  | none => .ok name
  | some (.string s) => .ok s
  | some _ => under (.key "jvm_name") (refuse (.notString "jvm_name"))

def partAt {α β : Type} (get : String → Option α) (key : String) (decode : α → Decoded β) :
    Decoded β :=
  match get key with
  | none => refuse (.missingKey key)
  | some v => under (.key key) (decode v)

def eachOf {α β : Type} (decode : α → Decoded β) (first : Nat) : List α → Decoded (List β)
  | [] => .ok []
  | v :: rest => do
    let x ← under (.index first) (decode v)
    let xs ← eachOf decode (first + 1) rest
    .ok (x :: xs)

def typeOf : Json → Decoded TypeRef
  | .string name =>
    match TypeRef.builtin? name with
    | some t => .ok t
    | none => refuse (.unknownType name)
  | v => do
    let get ← membersOf v
    let name ← textAt get "name"
    let jvmName ← jvmNameOf get
    .ok ⟨name, jvmName⟩

def varOf (v : Json) : Decoded VarRef := do
  let get ← membersOf v
  let name ← textAt get "name"
  let jvmName ← jvmNameOf get
  let type ← partAt get "type" typeOf
  .ok ⟨name, jvmName, type⟩

def functionOf (v : Json) : Decoded FunRef := do
  let get ← membersOf v
  let params ← under (.key "parameter_types") (listOf ((get "parameter_types").getD (.array [])))
  let name ← textAt get "name"
  let jvmName ← jvmNameOf get
  let returnType ← partAt get "return_type" typeOf
  let parameterTypes ← under (.key "parameter_types") (eachOf typeOf 0 params)
  .ok ⟨name, jvmName, returnType, parameterTypes⟩

/-- A whole number: a number whose exponent is zero, or a text of a sign and digits. -/
def integerOf : Json → Decoded Int
  | .whole n => .ok n
  | .string s =>
    let (negative, ds) := Decimal.readSign s.toList
    if ds.isEmpty || !ds.all Char.isDigit then refuse (.badInteger s)
    else .ok (Decimal.toInt ⟨negative, Nat.ofDigitChars 10 ds 0, 0⟩)
  | .number d => if d.exponent = 0 then .ok d.toInt else refuse .notInteger
  | _ => refuse .notInteger

/-- A decimal number: a number, or a text that is a numeral; a double through its shortest text. -/
def decimalOf (v : Json) : Decoded Decimal := do
  let extended ← match v with
    | .string s =>
      match Decimal.read? s.toList with
      | some d => .ok d
      | none => refuse (.badDecimal s)
    | .double x =>
      match Decimal.read? (Shortest.chars x) with
      | some d => .ok d
      | none => refuse .notDecimal
    | .whole n => .ok (.finite (Decimal.ofInt n))
    | .number d => .ok (.finite d)
    | _ => refuse .notDecimal
  match extended with
  | .finite d => .ok d
  | other => refuse (.notFinite other.text)

/-- The literal of a kind with a given value; an absent value counts as null. -/
def literalOf (kind : LiteralKind) (v : Json) : Decoded Literal :=
  match kind with
  | .nil => .ok .nil
  | .boolean =>
    match v with
    | .boolean b => .ok (.boolean b)
    | _ => refuse .notBoolean
  | .integer => .integer <$> integerOf v
  | .decimal => .decimal <$> decimalOf v
  | .character =>
    match v with
    | .string s =>
      match s.toList with
      | [c] => .ok (.character c)
      | _ => refuse .notCharacter
    | _ => refuse .notCharacter
  | .string =>
    match v with
    | .string s => .ok (.string s)
    | _ => refuse .notText

/-- A value of an object in the three ways in which a node may want it: as it is, as a node, and as
a list of nodes. -/
structure View where
  raw : Json
  node : Decoded Node
  nodes : Decoded (List Node)

abbrev Views := List (String × View)

def Views.raw (views : Views) (key : String) : Option Json :=
  (Json.lastMember? key views).map (·.raw)

def Views.nodeAt (views : Views) (key : String) : Decoded Node :=
  partAt (Json.lastMember? · views) key (·.node)

def Views.optionAt (views : Views) (key : String) : Decoded (Option Node) :=
  match Json.lastMember? key views with
  | none => .ok none
  | some ⟨.null, _, _⟩ => .ok none
  | some v => some <$> under (.key key) v.node

def Views.nodesAt (views : Views) (key : String) : Decoded (List Node) :=
  match Json.lastMember? key views with
  | none => .ok []
  | some v => under (.key key) v.nodes

def Views.parametersAt (views : Views) (key : String) : Decoded (List String) :=
  under (.key key) do
    let items ← listOf ((views.raw key).getD (.array []))
    eachOf (fun
      | .string s => .ok s
      | _ => refuse .notParameterName) 0 items

def Views.literal (views : Views) : Decoded Node := do
  let name ← textAt views.raw "kind"
  match LiteralKind.ofName? name with
  | none => under (.key "kind") (refuse (.unknownKind name))
  | some kind =>
    Node.literal <$> under (.key "value") (literalOf kind ((views.raw "value").getD .null))

def Views.node (views : Views) : Decoded Node := do
  let tag ← textAt views.raw "_type"
  match tag with
  | "Source" => do
    let fields ← views.nodesAt "fields"
    let methods ← views.nodesAt "methods"
    .ok (.source fields methods)
  | "Field" => do
    let var ← partAt views.raw "variable" varOf
    let value ← views.optionAt "value"
    .ok (.field var value)
  | "Method" => do
    let function ← partAt views.raw "function" functionOf
    let parameters ← views.parametersAt "parameters"
    let statements ← views.nodesAt "statements"
    .ok (.method function parameters statements)
  | "ExpressionStmt" => .expressionStmt <$> views.nodeAt "expression"
  | "Declaration" => do
    let var ← partAt views.raw "variable" varOf
    let value ← views.optionAt "value"
    .ok (.declaration var value)
  | "Assignment" => do
    let receiver ← views.nodeAt "receiver"
    let value ← views.nodeAt "value"
    .ok (.assignment receiver value)
  | "If" => do
    let condition ← views.nodeAt "condition"
    let thenStatements ← views.nodesAt "then_statements"
    let elseStatements ← views.nodesAt "else_statements"
    .ok (.ifElse condition thenStatements elseStatements)
  | "For" => do
    let name ← textAt views.raw "name"
    let value ← views.nodeAt "value"
    let statements ← views.nodesAt "statements"
    .ok (.forEach name value statements)
  | "While" => do
    let condition ← views.nodeAt "condition"
    let statements ← views.nodesAt "statements"
    .ok (.whileLoop condition statements)
  | "Return" => .returnStmt <$> views.nodeAt "value"
  | "Literal" => views.literal
  | "Group" => .group <$> views.nodeAt "expression"
  | "Binary" => do
    let operator ← textAt views.raw "operator"
    let left ← views.nodeAt "left"
    let right ← views.nodeAt "right"
    .ok (.binary operator left right)
  | "Access" => do
    let var ← partAt views.raw "variable" varOf
    let receiver ← views.optionAt "receiver"
    .ok (.access var receiver)
  | "Call" => do
    let function ← partAt views.raw "function" functionOf
    let arguments ← views.nodesAt "arguments"
    let receiver ← views.optionAt "receiver"
    .ok (.call function arguments receiver)
  | _ => under (.key "_type") (refuse (.unknownClass tag))

mutual

def nodeOf : Json → Decoded Node
  | .object members => Views.node (viewsOf members)
  | v => refuse (.notObject v.kindName)

def nodesOf : Json → Decoded (List Node)
  | .array items => nodesFrom 0 items
  | v => refuse (.notList v.kindName)

def nodesFrom (first : Nat) : List Json → Decoded (List Node)
  | [] => .ok []
  | v :: rest => do
    let node ← under (.index first) (nodeOf v)
    let nodes ← nodesFrom (first + 1) rest
    .ok (node :: nodes)

def viewsOf : List (String × Json) → List (String × View)
  | [] => []
  | (key, v) :: rest => (key, ⟨v, nodeOf v, nodesOf v⟩) :: viewsOf rest

end

/-- A fault of the reader as an error of loading; only numbers out of range are no refusals. -/
def ofFault (text : List Char) : Json.Fault → LoadError
  | .flawed flaw left =>
    .refused ⟨.flawed flaw (Line.locate text (text.length - left)), []⟩
  | .tooDeep bracket => .refused ⟨.tooDeep bracket, []⟩
  | .numberRange => .numberRange
  | .tooManyDigits count => .refused ⟨.tooManyDigits count, []⟩

def parse (text : List Char) (half : StandIn := .replacement) : Except LoadError Json :=
  (Json.read .exact text half).mapError (ofFault text)

def sourceOf (v : Json) : Except LoadError Node := do
  let node ← (nodeOf v).mapError .refused
  match node with
  | .source _ _ => .ok node
  | _ => .error (.refused ⟨.notSource node.className, []⟩)

def load (text : List Char) (half : StandIn := .replacement) : Except LoadError Node := do
  let v ← parse text half
  sourceOf v

/-- The text in the bytes of a file: UTF-8 with or without a byte order mark and with any
terminators. -/
def textOf (bs : List UInt8) : Except LoadError (List Char) :=
  match Utf8.decodeMarked bs with
  | .error e => .error (.refused ⟨.notUtf8 e.problem.reason, []⟩)
  | .ok text => .ok (Line.unify text)

def loadBytes (bs : List UInt8) : Except LoadError Node := do
  let text ← textOf bs
  load text

end JavaRender.Document
