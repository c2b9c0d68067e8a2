import JavaRender.Proofs.Typed.Text

/-!
Rules for the texts of a program that its document chooses freely: the names of descriptors,
parameters and loops, the names of types, and operators. A program obeys the rules when each such
text that rendering writes does; a type that is never written is free.
-/
namespace JavaRender.Typed

structure Rules where
  name : String → Prop
  type : String → Prop
  operator : String → Prop

mutual

def Expr.Obeys (rules : Rules) : Expr → Prop
  | .literal _ => True
  | .group e => e.Obeys rules
  | .binary op left right => rules.operator op ∧ left.Obeys rules ∧ right.Obeys rules
  | .access var none => rules.name var.jvmName
  | .access var (some receiver) => rules.name var.jvmName ∧ receiver.Obeys rules
  | .call function arguments none => rules.name function.jvmName ∧ exprsObey rules arguments
  | .call function arguments (some receiver) =>
    rules.name function.jvmName ∧ exprsObey rules arguments ∧ receiver.Obeys rules

def exprsObey (rules : Rules) : List Expr → Prop
  | [] => True
  | e :: rest => e.Obeys rules ∧ exprsObey rules rest

end

section Weaker

variable {rules weaker : Rules}

mutual

/-- An expression obeys weaker rules too; types do not matter in it. -/
theorem Expr.Obeys.mono (hname : ∀ s, rules.name s → weaker.name s)
    (hoperator : ∀ op, rules.operator op → weaker.operator op) :
    ∀ e : Expr, e.Obeys rules → e.Obeys weaker
  | .literal _, _ => trivial
  | .group e, h => Expr.Obeys.mono hname hoperator e h
  | .binary op left right, h =>
    ⟨hoperator op h.1, Expr.Obeys.mono hname hoperator left h.2.1,
      Expr.Obeys.mono hname hoperator right h.2.2⟩
  | .access var none, h => hname var.jvmName h
  | .access var (some receiver), h =>
    ⟨hname var.jvmName h.1, Expr.Obeys.mono hname hoperator receiver h.2⟩
  | .call function arguments none, h =>
    ⟨hname function.jvmName h.1, exprsObey_mono hname hoperator arguments h.2⟩
  | .call function arguments (some receiver), h =>
    ⟨hname function.jvmName h.1, exprsObey_mono hname hoperator arguments h.2.1,
      Expr.Obeys.mono hname hoperator receiver h.2.2⟩

theorem exprsObey_mono (hname : ∀ s, rules.name s → weaker.name s)
    (hoperator : ∀ op, rules.operator op → weaker.operator op) :
    ∀ es : List Expr, exprsObey rules es → exprsObey weaker es
  | [], _ => trivial
  | e :: rest, h =>
    ⟨Expr.Obeys.mono hname hoperator e h.1, exprsObey_mono hname hoperator rest h.2⟩

end

end Weaker

def optionObeys (rules : Rules) : Option Expr → Prop
  | none => True
  | some e => e.Obeys rules

def declaredObeys (rules : Rules) (var : VarRef) : Prop :=
  rules.type var.type.jvmName ∧ rules.name var.jvmName

mutual

def Stmt.Obeys (rules : Rules) : Stmt → Prop
  | .expression e => e.Obeys rules
  | .declaration var value => declaredObeys rules var ∧ optionObeys rules value
  | .assignment receiver value => receiver.Obeys rules ∧ value.Obeys rules
  | .ifElse condition thenStatements elseStatements =>
    condition.Obeys rules ∧ stmtsObey rules thenStatements ∧ stmtsObey rules elseStatements
  | .forEach name value statements =>
    rules.name name ∧ value.Obeys rules ∧ stmtsObey rules statements
  | .whileLoop condition statements => condition.Obeys rules ∧ stmtsObey rules statements
  | .returnStmt value => value.Obeys rules

def stmtsObey (rules : Rules) : List Stmt → Prop
  | [] => True
  | s :: rest => s.Obeys rules ∧ stmtsObey rules rest

end

def Field.Obeys (rules : Rules) (f : Field) : Prop :=
  declaredObeys rules f.var ∧ optionObeys rules f.value

def Method.Obeys (rules : Rules) (m : Method) : Prop :=
  rules.type m.function.returnType.jvmName ∧ rules.name m.function.jvmName ∧
    (∀ type ∈ m.function.parameterTypes, rules.type type.jvmName) ∧
    (∀ name ∈ m.parameters, rules.name name) ∧ stmtsObey rules m.statements

def Source.Obeys (rules : Rules) (s : Source) : Prop :=
  (∀ f ∈ s.fields, f.Obeys rules) ∧ ∀ m ∈ s.methods, m.Obeys rules

end JavaRender.Typed
