import JavaRender.Proofs.Emission.Note
import JavaRender.Proofs.Typed.Syntax

/-!
The text of a well-sorted expression as a function of its own, with the notices that making it
leaves. Main statement: rendering the tree of an expression succeeds with exactly this text and
these notices.
-/
namespace JavaRender.Typed

open JavaRender.Tree (Fault)
open Emission

def Literal.text : Literal → String
  | string s => "\"" ++ Literal.escapeText s ++ "\""
  | character c => "'" ++ Literal.escapeCharacter (String.singleton c) ++ "'"
  | integer n => toString n
  | ordinal k => toString k.number
  | decimal d => d.text
  | double _ d _ => d.text
  | boolean b => Literal.ofBoolean b
  | nil _ => "null"

def spelling (op : String) : String := (Operator.spelling? op).getD op

def operatorNotices (op : String) : List Notice :=
  if (Operator.spelling? op).isSome then [] else [.unmappedOperator (Quoted.text op)]

mutual

def Expr.text : Expr → String
  | .literal l => l.text
  | .group e => "(" ++ e.text ++ ")"
  | .binary op left right => left.text ++ " " ++ spelling op ++ " " ++ right.text
  | .access var none => var.jvmName
  | .access var (some receiver) => receiver.text ++ "." ++ var.jvmName
  | .call function arguments none =>
    function.jvmName ++ "(" ++ ", ".intercalate (exprTexts arguments) ++ ")"
  | .call function arguments (some receiver) =>
    receiver.text ++ "." ++
      (function.jvmName ++ "(" ++ ", ".intercalate (exprTexts arguments) ++ ")")

def exprTexts : List Expr → List String
  | [] => []
  | e :: rest => e.text :: exprTexts rest

end

mutual

/-- The operators outside the table: that of a binary before those of its operands, those of the
arguments of a call before those of its receiver. -/
def Expr.notices : Expr → List Notice
  | .literal _ => []
  | .group e => e.notices
  | .binary op left right => operatorNotices op ++ (left.notices ++ right.notices)
  | .access _ none => []
  | .access _ (some receiver) => receiver.notices
  | .call _ arguments none => exprNotices arguments
  | .call _ arguments (some receiver) => exprNotices arguments ++ receiver.notices

def exprNotices : List Expr → List Notice
  | [] => []
  | e :: rest => e.notices ++ exprNotices rest

end

def optionNotices : Option Expr → List Notice
  | none => []
  | some e => e.notices

mutual

def Stmt.notices : Stmt → List Notice
  | .expression e => e.notices
  | .declaration _ value => optionNotices value
  | .assignment receiver value => receiver.notices ++ value.notices
  | .ifElse condition thenStatements elseStatements =>
    condition.notices ++ (stmtNotices thenStatements ++ stmtNotices elseStatements)
  | .forEach _ value statements => value.notices ++ stmtNotices statements
  | .whileLoop condition statements => condition.notices ++ stmtNotices statements
  | .returnStmt value => value.notices

def stmtNotices : List Stmt → List Notice
  | [] => []
  | s :: rest => s.notices ++ stmtNotices rest

end

def Source.notices (s : Source) : List Notice :=
  s.fields.flatMap (fun f => optionNotices f.value) ++
    s.methods.flatMap fun m => stmtNotices m.statements

theorem Literal.valueText_eq (l : Literal) : Literal.valueText? l.kind l.value = some l.text := by
  cases l with
  | character c => simp [kind, value, text, Literal.valueText?]
  | double x d h => simp only [kind, value, text, Literal.valueText?, h, Option.map_some]
  | string | integer | ordinal | decimal | boolean | nil => rfl

theorem Literal.render_eq (l : Literal) : Literal.render l.value (.kind l.kind) = .ok l.text := by
  have hkind : Literal.kindOf (.kind l.kind) = .ok l.kind := rfl
  rw [Literal.render, hkind]
  simp only [bind, Except.bind, l.valueText_eq]

theorem Expr.isAbsent_toTree (e : Expr) : e.toTree.isAbsent = false := by
  cases e with
  | literal | group | binary => rfl
  | access _ receiver => cases receiver <;> rfl
  | call _ _ receiver => cases receiver <;> rfl

theorem need_toTree (owner slot : String) (e : Expr) : Tree.need owner slot e.toTree = .ok () := by
  rw [Tree.need, e.isAbsent_toTree]
  rfl

/-- The operator of a binary is spelled by the table, else noted and kept. -/
theorem notes_operator (op : String) :
    Notes (Operator.render (.text op)) (operatorNotices op) (.ok (.text (spelling op))) := by
  have hkey : (Tree.text op).checkKey = .ok () := rfl
  refine Notes.lift_bind hkey ?_
  cases hknown : Operator.spelling? op with
  | some s =>
    simp only [hknown, spelling, operatorNotices, Option.getD_some, Option.isSome_some, if_true]
    exact Notes.pure _
  | none =>
    have hshown : (Tree.text op).display? = .ok (Quoted.text op) := rfl
    simp only [hknown, spelling, operatorNotices, Option.getD_none, Option.isSome_none,
      Bool.false_eq_true, if_false]
    exact Notes.lift_bind hshown ((Notes.note _).bind (Notes.pure _))

/-- A check that takes every text as it is finds all texts of a list. -/
theorem mapM_texts {check : Tree × Nat → Except Fault String}
    (h : ∀ s i, check (.text s, i) = .ok s) (ss : List String) (start : Nat) :
    ((ss.map Tree.text).zipIdx start).mapM check = .ok ss := by
  induction ss generalizing start with
  | nil => rfl
  | cons s rest ih =>
    rw [List.map_cons, List.zipIdx_cons, List.mapM_cons, h, ih (start + 1)]
    rfl

theorem joined_texts (ss : List String) :
    Expression.joined (ss.map .text) = .ok (", ".intercalate ss) := by
  rw [Expression.joined, mapM_texts fun _ _ => rfl]
  rfl

/-- A name that is a text stands behind the text of its receiver. -/
theorem notes_qualify {receiver : Expr} {ns : List Notice} (name : String)
    (h : Notes (Expression.render receiver.toTree) ns (.ok (.text receiver.text))) :
    Notes (Expression.qualify receiver.toTree (.text name) (Expression.render receiver.toTree)) ns
      (.ok (.text (receiver.text ++ "." ++ name))) := by
  rw [Expression.qualify, receiver.isAbsent_toTree]
  exact h.bind_last (Notes.lift_bind rfl (Notes.lift_bind rfl (Notes.pure _)))

mutual

/-- Rendering the tree of an expression gives its text and leaves its notices. -/
theorem Expr.notes_render : ∀ e : Expr,
    Notes (Expression.render e.toTree) e.notices (.ok (.text e.text))
  | .literal l => Notes.lift_bind l.render_eq (Notes.pure _)
  | .group e => by
    simp only [Expr.toTree, Expression.render, Expr.notices]
    refine Notes.lift_bind (need_toTree _ _ e) ?_
    exact e.notes_render.bind_last (Notes.lift_bind rfl (Notes.pure _))
  | .binary op left right => by
    simp only [Expr.toTree, Expression.render, Expr.notices]
    refine Notes.lift_bind rfl ((notes_operator op).bind ?_)
    refine Notes.lift_bind (need_toTree _ _ left) (left.notes_render.bind ?_)
    refine Notes.lift_bind (need_toTree _ _ right) (right.notes_render.bind_last ?_)
    exact Notes.lift_bind rfl (Notes.lift_bind rfl (Notes.lift_bind rfl (Notes.pure _)))
  | .access var none => Notes.lift_bind rfl (Notes.lift_bind rfl (Notes.pure _))
  | .access var (some receiver) => by
    simp only [Expr.toTree, Expression.render, Expr.notices]
    refine Notes.lift_bind rfl (Notes.lift_bind rfl ?_)
    exact notes_qualify var.jvmName receiver.notes_render
  | .call function arguments none => by
    simp only [Expr.toTree, Expression.render, Expression.renderItems, Expr.notices]
    refine Notes.lift_bind rfl (Notes.lift_bind rfl ((notes_renderAll arguments).bind_last ?_))
    exact Notes.lift_bind (joined_texts _) (Notes.lift_bind rfl (Notes.pure _))
  | .call function arguments (some receiver) => by
    simp only [Expr.toTree, Expression.render, Expression.renderItems, Expr.notices]
    refine Notes.lift_bind rfl (Notes.lift_bind rfl ((notes_renderAll arguments).bind ?_))
    refine Notes.lift_bind (joined_texts _) (Notes.lift_bind rfl ?_)
    exact notes_qualify _ receiver.notes_render

theorem notes_renderAll : ∀ es : List Expr,
    Notes (Expression.renderAll (exprTrees es)) (exprNotices es)
      (.ok ((exprTexts es).map .text))
  | [] => Notes.pure _
  | e :: rest => by
    simp only [exprTrees, Expression.renderAll, exprNotices]
    exact e.notes_render.bind ((notes_renderAll rest).bind_last (Notes.pure _))

end

end JavaRender.Typed
