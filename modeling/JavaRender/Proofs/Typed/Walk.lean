import JavaRender.Proofs.Typed.Text
import JavaRender.Tree.Walk

/-!
The walk of a well-sorted program as a function of its own. Every part of such a program is a node,
so the walk comes to an end and gives each node before its parts and the receiver of a call before
its arguments.
-/
namespace JavaRender.Typed

mutual

def Expr.walked : Expr → List Tree
  | e@(.literal _) => [e.toTree]
  | e@(.group inner) => e.toTree :: inner.walked
  | e@(.binary _ left right) => e.toTree :: (left.walked ++ right.walked)
  | e@(.access _ none) => [e.toTree]
  | e@(.access _ (some receiver)) => e.toTree :: receiver.walked
  | e@(.call _ arguments none) => e.toTree :: walkedAll arguments
  | e@(.call _ arguments (some receiver)) =>
    e.toTree :: (receiver.walked ++ walkedAll arguments)

def walkedAll : List Expr → List Tree
  | [] => []
  | e :: rest => e.walked ++ walkedAll rest

end

def optionWalked : Option Expr → List Tree
  | none => []
  | some e => e.walked

mutual

def Stmt.walked : Stmt → List Tree
  | s@(.expression e) => s.toTree :: e.walked
  | s@(.declaration _ value) => s.toTree :: optionWalked value
  | s@(.assignment receiver value) => s.toTree :: (receiver.walked ++ value.walked)
  | s@(.ifElse condition thenStatements elseStatements) =>
    s.toTree :: (condition.walked ++ (stmtsWalked thenStatements ++ stmtsWalked elseStatements))
  | s@(.forEach _ value statements) => s.toTree :: (value.walked ++ stmtsWalked statements)
  | s@(.whileLoop condition statements) =>
    s.toTree :: (condition.walked ++ stmtsWalked statements)
  | s@(.returnStmt value) => s.toTree :: value.walked

def stmtsWalked : List Stmt → List Tree
  | [] => []
  | s :: rest => s.walked ++ stmtsWalked rest

end

def Field.walked (f : Field) : List Tree := f.toTree :: optionWalked f.value

def Method.walked (m : Method) : List Tree := m.toTree :: stmtsWalked m.statements

def Source.walked (s : Source) : List Tree :=
  s.toTree :: (s.fields.flatMap Field.walked ++ s.methods.flatMap Method.walked)

section Walk

open JavaRender.Tree (Fault)

/-- A node whose parts can all be walked stands before what they give. -/
theorem andThen_ok (t : Tree) (parts : List (List Tree)) :
    t.andThen (parts.map Except.ok) = .ok (t :: parts.flatten) := by
  have hparts : (parts.map (Except.ok : List Tree → Except Fault (List Tree))).mapM id =
      .ok parts := by
    induction parts with
    | nil => rfl
    | cons part rest ih =>
      rw [List.map_cons, List.mapM_cons, ih]
      rfl
  rw [Tree.andThen, hparts]
  rfl

theorem andThen_one {t : Tree} {r : Except Fault (List Tree)} {a : List Tree} (h : r = .ok a) :
    t.andThen [r] = .ok (t :: a) := by
  have hwalk := andThen_ok t [a]
  simpa only [h, List.map_cons, List.map_nil, List.flatten_cons, List.flatten_nil,
    List.append_nil] using hwalk

theorem andThen_two {t : Tree} {r r' : Except Fault (List Tree)} {a b : List Tree}
    (h : r = .ok a) (h' : r' = .ok b) : t.andThen [r, r'] = .ok (t :: (a ++ b)) := by
  have hwalk := andThen_ok t [a, b]
  simpa only [h, h', List.map_cons, List.map_nil, List.flatten_cons, List.flatten_nil,
    List.append_nil] using hwalk

theorem andThen_three {t : Tree} {r r' r'' : Except Fault (List Tree)} {a b c : List Tree}
    (h : r = .ok a) (h' : r' = .ok b) (h'' : r'' = .ok c) :
    t.andThen [r, r', r''] = .ok (t :: (a ++ (b ++ c))) := by
  have hwalk := andThen_ok t [a, b, c]
  simpa only [h, h', h'', List.map_cons, List.map_nil, List.flatten_cons, List.flatten_nil,
    List.append_nil] using hwalk

theorem walkAll_cons {t : Tree} {rest : List Tree} {a b : List Tree} (h : t.walk = .ok a)
    (hrest : Tree.walkAll rest = .ok b) : Tree.walkAll (t :: rest) = .ok (a ++ b) := by
  rw [Tree.walkAll, h, hrest]
  rfl

/-- A part that is there is walked. -/
theorem unlessAbsent_toTree (e : Expr) (r : Except Fault (List Tree)) :
    e.toTree.unlessAbsent r = r := by
  rw [Tree.unlessAbsent, e.isAbsent_toTree]
  rfl

mutual

theorem walk_expr : ∀ e : Expr, e.toTree.walk = .ok e.walked
  | .literal l => rfl
  | .group inner => by
    rw [Expr.toTree, Tree.walk, Expr.walked]
    exact andThen_one (walk_expr inner)
  | .binary op left right => by
    rw [Expr.toTree, Tree.walk, Expr.walked]
    exact andThen_two (walk_expr left) (walk_expr right)
  | .access var none => rfl
  | .access var (some receiver) => by
    rw [Expr.toTree, Tree.walk, Expr.walked, unlessAbsent_toTree]
    exact andThen_one (walk_expr receiver)
  | .call function arguments none => by
    rw [Expr.toTree, Tree.walk, Tree.walkItems, Expr.walked]
    exact andThen_two rfl (walk_exprs arguments)
  | .call function arguments (some receiver) => by
    rw [Expr.toTree, Tree.walk, Tree.walkItems, Expr.walked, unlessAbsent_toTree]
    exact andThen_two (walk_expr receiver) (walk_exprs arguments)

theorem walk_exprs : ∀ es : List Expr, Tree.walkAll (exprTrees es) = .ok (walkedAll es)
  | [] => rfl
  | e :: rest => walkAll_cons (walk_expr e) (walk_exprs rest)

end

theorem walk_option (value : Option Expr) :
    (optionTree value).unlessAbsent (optionTree value).walk = .ok (optionWalked value) := by
  cases value with
  | none => rfl
  | some e =>
    rw [optionTree, unlessAbsent_toTree]
    exact walk_expr e

mutual

theorem walk_stmt : ∀ s : Stmt, s.toTree.walk = .ok s.walked
  | .expression e => by
    rw [Stmt.toTree, Tree.walk, Stmt.walked]
    exact andThen_one (walk_expr e)
  | .declaration var value => by
    rw [Stmt.toTree, Tree.walk, Stmt.walked]
    exact andThen_one (walk_option value)
  | .assignment receiver value => by
    rw [Stmt.toTree, Tree.walk, Stmt.walked]
    exact andThen_two (walk_expr receiver) (walk_expr value)
  | .ifElse condition thenStatements elseStatements => by
    rw [Stmt.toTree, Tree.walk, Tree.walkItems, Tree.walkItems, Stmt.walked]
    exact andThen_three (walk_expr condition) (walk_stmts thenStatements)
      (walk_stmts elseStatements)
  | .forEach name value statements => by
    rw [Stmt.toTree, Tree.walk, Tree.walkItems, Stmt.walked]
    exact andThen_two (walk_expr value) (walk_stmts statements)
  | .whileLoop condition statements => by
    rw [Stmt.toTree, Tree.walk, Tree.walkItems, Stmt.walked]
    exact andThen_two (walk_expr condition) (walk_stmts statements)
  | .returnStmt value => by
    rw [Stmt.toTree, Tree.walk, Stmt.walked]
    exact andThen_one (walk_expr value)

theorem walk_stmts : ∀ xs : List Stmt, Tree.walkAll (stmtTrees xs) = .ok (stmtsWalked xs)
  | [] => rfl
  | s :: rest => walkAll_cons (walk_stmt s) (walk_stmts rest)

end

theorem walk_field (f : Field) : f.toTree.walk = .ok f.walked := by
  rw [Field.walked, Field.toTree, Tree.walk]
  exact andThen_one (walk_option f.value)

theorem walk_method (m : Method) : m.toTree.walk = .ok m.walked := by
  rw [Method.walked, Method.toTree, Tree.walk, Tree.walkItems]
  exact andThen_one (walk_stmts m.statements)

/-- The trees of a list are walked one after the other. -/
theorem walkAll_map {α : Type} {toTree : α → Tree} {walked : α → List Tree}
    (h : ∀ a, (toTree a).walk = .ok (walked a)) (as : List α) :
    Tree.walkAll (as.map toTree) = .ok (as.flatMap walked) := by
  induction as with
  | nil => rfl
  | cons a rest ih =>
    rw [List.map_cons, List.flatMap_cons]
    exact walkAll_cons (h a) ih

/-- The walk of a well-sorted program succeeds and gives its nodes. -/
theorem walk_source (s : Source) : s.toTree.walk = .ok s.walked := by
  rw [Source.walked, Source.toTree, Tree.walk, Tree.walkItems, Tree.walkItems]
  exact andThen_two (walkAll_map walk_field s.fields) (walkAll_map walk_method s.methods)

end Walk

end JavaRender.Typed
