import JavaRender.Proofs.Typed.Text

/-!
Sorts of trees. A tree is well-sorted when each slot holds what the declaration of its class says,
the value of a literal fits its kind and a method has a name for each parameter type; main
statement: the trees of typed programs are exactly the well-sorted sources.
-/
namespace JavaRender.Typed

inductive IsExpression : Tree → Prop
  | literal {k : LiteralKind} {value : Tree} {s : String}
      (fits : Literal.valueText? k value = some s) : IsExpression (.literal value (.kind k))
  | group {expression : Tree} (inner : IsExpression expression) : IsExpression (.group expression)
  | binary (op : String) {left right : Tree} (hleft : IsExpression left)
      (hright : IsExpression right) : IsExpression (.binary (.text op) left right)
  | access (var : VarRef) : IsExpression (.access var.toTree .absent)
  | member (var : VarRef) {receiver : Tree} (hreceiver : IsExpression receiver) :
      IsExpression (.access var.toTree receiver)
  | call (function : FunRef) {arguments : List Tree}
      (harguments : ∀ t ∈ arguments, IsExpression t) :
      IsExpression (.call function.toTree (.sequence true arguments) .absent)
  | invocation (function : FunRef) {arguments : List Tree} {receiver : Tree}
      (harguments : ∀ t ∈ arguments, IsExpression t) (hreceiver : IsExpression receiver) :
      IsExpression (.call function.toTree (.sequence true arguments) receiver)

def IsOptional (t : Tree) : Prop := t = .absent ∨ IsExpression t

inductive IsStatement : Tree → Prop
  | expression {e : Tree} (inner : IsExpression e) : IsStatement (.expressionStmt e)
  | declaration (var : VarRef) {value : Tree} (hvalue : IsOptional value) :
      IsStatement (.declaration var.toTree value)
  | assignment {receiver value : Tree} (hreceiver : IsExpression receiver)
      (hvalue : IsExpression value) : IsStatement (.assignment receiver value)
  | ifElse {condition : Tree} {thenStatements elseStatements : List Tree}
      (hcondition : IsExpression condition) (hthen : ∀ t ∈ thenStatements, IsStatement t)
      (helse : ∀ t ∈ elseStatements, IsStatement t) :
      IsStatement
        (.ifElse condition (.sequence true thenStatements) (.sequence true elseStatements))
  | forEach (name : String) {value : Tree} {statements : List Tree} (hvalue : IsExpression value)
      (hstatements : ∀ t ∈ statements, IsStatement t) :
      IsStatement (.forEach (.text name) value (.sequence true statements))
  | whileLoop {condition : Tree} {statements : List Tree} (hcondition : IsExpression condition)
      (hstatements : ∀ t ∈ statements, IsStatement t) :
      IsStatement (.whileLoop condition (.sequence true statements))
  | returnStmt {value : Tree} (hvalue : IsExpression value) : IsStatement (.returnStmt value)

inductive IsField : Tree → Prop
  | field (var : VarRef) {value : Tree} (hvalue : IsOptional value) :
      IsField (.field var.toTree value)

inductive IsMethod : Tree → Prop
  | method (function : FunRef) (parameters : List String) {statements : List Tree}
      (matched : function.parameterTypes.length = parameters.length)
      (hstatements : ∀ t ∈ statements, IsStatement t) :
      IsMethod (.method function.toTree (.sequence true (parameters.map .text))
        (.sequence true statements))

inductive IsSource : Tree → Prop
  | source {fields methods : List Tree} (hfields : ∀ t ∈ fields, IsField t)
      (hmethods : ∀ t ∈ methods, IsMethod t) :
      IsSource (.source (.sequence true fields) (.sequence true methods))

section Typed

theorem exprTrees_eq (es : List Expr) : exprTrees es = es.map Expr.toTree := by
  induction es with
  | nil => rfl
  | cons e rest ih => rw [exprTrees, ih, List.map_cons]

theorem stmtTrees_eq (xs : List Stmt) : stmtTrees xs = xs.map Stmt.toTree := by
  induction xs with
  | nil => rfl
  | cons s rest ih => rw [stmtTrees, ih, List.map_cons]

/-- Trees that come from typed values one by one come from a typed list. -/
theorem exists_map {α : Type} {toTree : α → Tree} (ts : List Tree)
    (h : ∀ t ∈ ts, ∃ a, toTree a = t) : ∃ as : List α, as.map toTree = ts := by
  induction ts with
  | nil => exact ⟨[], rfl⟩
  | cons t rest ih =>
    obtain ⟨a, ha⟩ := h t List.mem_cons_self
    obtain ⟨as, has⟩ := ih fun t ht => h t (List.mem_cons_of_mem _ ht)
    exact ⟨a :: as, by rw [List.map_cons, ha, has]⟩

/-- A value that fits a kind is the value of a literal of this kind. -/
theorem exists_literal {k : LiteralKind} {value : Tree} {s : String}
    (h : Literal.valueText? k value = some s) :
    ∃ l : Literal, l.toTree = .literal value (.kind k) := by
  unfold Literal.valueText? at h
  split at h
  · exact ⟨.string _, rfl⟩
  · next text =>
    split at h
    · next hlength =>
      obtain ⟨c, hc⟩ := List.length_eq_one_iff.mp ((String.length_toList (s := text)).trans hlength)
      have hsingle : text = String.singleton c := by
        rw [← String.toList_inj, hc, String.toList_singleton]
      exact ⟨.character c, by rw [hsingle]; rfl⟩
    · cases h
  · exact ⟨.integer _, rfl⟩
  · exact ⟨.ordinal _, rfl⟩
  · obtain ⟨d, hd, -⟩ := Option.map_eq_some_iff.mp h
    cases value with
    | decimal x =>
      cases x with
      | finite d' => exact ⟨.decimal d', rfl⟩
      | infinity | nan => cases hd
    | double x => exact ⟨.double x d hd, rfl⟩
    | _ => cases hd
  · exact ⟨.boolean _, rfl⟩
  · exact ⟨.nil _, rfl⟩
  · cases h

theorem exists_expression {t : Tree} (h : IsExpression t) : ∃ e : Expr, e.toTree = t := by
  induction h with
  | literal fits =>
    obtain ⟨l, hl⟩ := exists_literal fits
    exact ⟨.literal l, hl⟩
  | group _ ih =>
    obtain ⟨e, rfl⟩ := ih
    exact ⟨.group e, rfl⟩
  | binary op _ _ ihleft ihright =>
    obtain ⟨left, rfl⟩ := ihleft
    obtain ⟨right, rfl⟩ := ihright
    exact ⟨.binary op left right, rfl⟩
  | access var => exact ⟨.access var none, rfl⟩
  | member var _ ih =>
    obtain ⟨receiver, rfl⟩ := ih
    exact ⟨.access var (some receiver), rfl⟩
  | call function _ ih =>
    obtain ⟨arguments, rfl⟩ := exists_map _ ih
    exact ⟨.call function arguments none, by rw [Expr.toTree, exprTrees_eq]⟩
  | invocation function _ _ iharguments ihreceiver =>
    obtain ⟨arguments, rfl⟩ := exists_map _ iharguments
    obtain ⟨receiver, rfl⟩ := ihreceiver
    exact ⟨.call function arguments (some receiver), by rw [Expr.toTree, exprTrees_eq]⟩

theorem exists_optional {t : Tree} (h : IsOptional t) :
    ∃ value : Option Expr, optionTree value = t := by
  rcases h with rfl | h
  · exact ⟨none, rfl⟩
  · obtain ⟨e, rfl⟩ := exists_expression h
    exact ⟨some e, rfl⟩

theorem exists_statement {t : Tree} (h : IsStatement t) : ∃ s : Stmt, s.toTree = t := by
  induction h with
  | expression inner =>
    obtain ⟨e, rfl⟩ := exists_expression inner
    exact ⟨.expression e, rfl⟩
  | declaration var hvalue =>
    obtain ⟨value, rfl⟩ := exists_optional hvalue
    exact ⟨.declaration var value, rfl⟩
  | assignment hreceiver hvalue =>
    obtain ⟨receiver, rfl⟩ := exists_expression hreceiver
    obtain ⟨value, rfl⟩ := exists_expression hvalue
    exact ⟨.assignment receiver value, rfl⟩
  | ifElse hcondition _ _ ihthen ihelse =>
    obtain ⟨condition, rfl⟩ := exists_expression hcondition
    obtain ⟨thenStatements, rfl⟩ := exists_map _ ihthen
    obtain ⟨elseStatements, rfl⟩ := exists_map _ ihelse
    refine ⟨.ifElse condition thenStatements elseStatements, ?_⟩
    rw [Stmt.toTree, stmtTrees_eq, stmtTrees_eq]
  | forEach name hvalue _ ih =>
    obtain ⟨value, rfl⟩ := exists_expression hvalue
    obtain ⟨statements, rfl⟩ := exists_map _ ih
    exact ⟨.forEach name value statements, by rw [Stmt.toTree, stmtTrees_eq]⟩
  | whileLoop hcondition _ ih =>
    obtain ⟨condition, rfl⟩ := exists_expression hcondition
    obtain ⟨statements, rfl⟩ := exists_map _ ih
    exact ⟨.whileLoop condition statements, by rw [Stmt.toTree, stmtTrees_eq]⟩
  | returnStmt hvalue =>
    obtain ⟨value, rfl⟩ := exists_expression hvalue
    exact ⟨.returnStmt value, rfl⟩

theorem exists_field {t : Tree} (h : IsField t) : ∃ f : Field, f.toTree = t := by
  obtain ⟨var, hvalue⟩ := h
  obtain ⟨value, rfl⟩ := exists_optional hvalue
  exact ⟨⟨var, value⟩, rfl⟩

theorem exists_method {t : Tree} (h : IsMethod t) : ∃ m : Method, m.toTree = t := by
  obtain ⟨function, parameters, matched, hstatements⟩ := h
  obtain ⟨statements, rfl⟩ := exists_map _ fun t ht => exists_statement (hstatements t ht)
  exact ⟨⟨function, parameters, statements, matched⟩, by rw [Method.toTree, stmtTrees_eq]⟩

end Typed

section Sorted

mutual

theorem isExpression_toTree : ∀ e : Expr, IsExpression e.toTree
  | .literal l => .literal l.valueText_eq
  | .group e => .group (isExpression_toTree e)
  | .binary op left right => .binary op (isExpression_toTree left) (isExpression_toTree right)
  | .access var none => .access var
  | .access var (some receiver) => .member var (isExpression_toTree receiver)
  | .call function arguments none => .call function (isExpression_exprTrees arguments)
  | .call function arguments (some receiver) =>
    .invocation function (isExpression_exprTrees arguments) (isExpression_toTree receiver)

theorem isExpression_exprTrees : ∀ es : List Expr, ∀ t ∈ exprTrees es, IsExpression t
  | [], _, ht => absurd ht List.not_mem_nil
  | e :: rest, t, ht => by
    rcases List.mem_cons.mp ht with rfl | ht
    · exact isExpression_toTree e
    · exact isExpression_exprTrees rest t ht

end

theorem isOptional_optionTree (value : Option Expr) : IsOptional (optionTree value) := by
  cases value with
  | none => exact .inl rfl
  | some e => exact .inr (isExpression_toTree e)

mutual

theorem isStatement_toTree : ∀ s : Stmt, IsStatement s.toTree
  | .expression e => .expression (isExpression_toTree e)
  | .declaration var value => .declaration var (isOptional_optionTree value)
  | .assignment receiver value =>
    .assignment (isExpression_toTree receiver) (isExpression_toTree value)
  | .ifElse condition thenStatements elseStatements =>
    .ifElse (isExpression_toTree condition) (isStatement_stmtTrees thenStatements)
      (isStatement_stmtTrees elseStatements)
  | .forEach name value statements =>
    .forEach name (isExpression_toTree value) (isStatement_stmtTrees statements)
  | .whileLoop condition statements =>
    .whileLoop (isExpression_toTree condition) (isStatement_stmtTrees statements)
  | .returnStmt value => .returnStmt (isExpression_toTree value)

theorem isStatement_stmtTrees : ∀ xs : List Stmt, ∀ t ∈ stmtTrees xs, IsStatement t
  | [], _, ht => absurd ht List.not_mem_nil
  | s :: rest, t, ht => by
    rcases List.mem_cons.mp ht with rfl | ht
    · exact isStatement_toTree s
    · exact isStatement_stmtTrees rest t ht

end

end Sorted

/-- The trees of typed programs are exactly the well-sorted sources. -/
theorem isSource_iff (t : Tree) : IsSource t ↔ ∃ s : Source, s.toTree = t := by
  constructor
  · rintro ⟨hfields, hmethods⟩
    obtain ⟨fields, rfl⟩ := exists_map _ fun t ht => exists_field (hfields t ht)
    obtain ⟨methods, rfl⟩ := exists_map _ fun t ht => exists_method (hmethods t ht)
    exact ⟨⟨fields, methods⟩, rfl⟩
  · rintro ⟨s, rfl⟩
    refine .source ?_ ?_
    · intro t ht
      obtain ⟨f, -, rfl⟩ := List.mem_map.mp ht
      exact .field f.var (isOptional_optionTree f.value)
    · intro t ht
      obtain ⟨m, -, rfl⟩ := List.mem_map.mp ht
      exact .method m.function m.parameters m.matched (isStatement_stmtTrees m.statements)

end JavaRender.Typed
