import JavaRender.Proofs.Emission.Print
import JavaRender.Proofs.Layout.Outline

/-!
The renderer writes the layout of statements: at every depth a list prints the lines of its
outlines, each behind its blanks and with its terminator. Some statements leave their last line
open and the list ends it, so a statement is taken together with what the list adds.
-/
namespace JavaRender.Layout

open Typed Emission
open JavaRender.Tree (Fault)

/-- Lines as they stand at a depth: blanks in front and a terminator behind each. -/
def placed (terminator : String) (level : Nat) (lines : List String) : String :=
  String.join (lines.map fun line => indent level ++ line ++ terminator)

section Placed

variable (terminator : String) (level : Nat)

theorem placed_nil : placed terminator level [] = "" := by
  rw [placed, List.map_nil, String.join_nil]

theorem placed_cons (line : String) (rest : List String) :
    placed terminator level (line :: rest) =
      indent level ++ line ++ terminator ++ placed terminator level rest := by
  rw [placed, List.map_cons, String.join_cons]
  rfl

theorem placed_append (first second : List String) :
    placed terminator level (first ++ second) =
      placed terminator level first ++ placed terminator level second := by
  rw [placed, List.map_append, String.join_append]
  rfl

theorem placed_singleton (line : String) :
    placed terminator level [line] = indent level ++ line ++ terminator := by
  rw [placed_cons, placed_nil, String.append_empty]

/-- One depth deeper or one level higher is the same. -/
theorem placed_deeper (lines : List String) :
    placed terminator level (deeper lines) = placed terminator (level + 1) lines := by
  induction lines with
  | nil => rfl
  | cons line rest ih =>
    rw [deeper, List.map_cons, placed_cons, placed_cons, indent_succ]
    rw [deeper] at ih
    rw [ih]
    simp only [String.append_assoc]

def bodyText : List String → String
  | [] => " \x7b\x7d"
  | line :: rest =>
    " \x7b" ++ terminator ++ placed terminator (level + 1) (line :: rest) ++ indent level ++ "\x7d"

theorem bodyText_of_ne_nil {body : List String} (h : body ≠ []) :
    bodyText terminator level body =
      " \x7b" ++ terminator ++ placed terminator (level + 1) body ++ indent level ++ "\x7d" := by
  cases body with
  | nil => exact absurd rfl h
  | cons line rest => rfl

theorem placed_braced (header : String) (body : List String) :
    placed terminator level (braced header body) =
      indent level ++ header ++ bodyText terminator level body ++ terminator := by
  cases body with
  | nil => rw [braced, placed_singleton, bodyText]; simp only [String.append_assoc]
  | cons line rest =>
    rw [braced, placed_append, placed_cons, placed_deeper, placed_singleton, bodyText]
    simp only [String.append_assoc]

def elseText : List String → String
  | [] => ""
  | line :: rest => " else" ++ bodyText terminator level (line :: rest)

theorem elseText_of_ne_nil {body : List String} (h : body ≠ []) :
    elseText terminator level body = " else" ++ bodyText terminator level body := by
  cases body with
  | nil => exact absurd rfl h
  | cons line rest => rfl

theorem placed_branched (header : String) (front back : List String) :
    placed terminator level (branched header front back) =
      indent level ++ header ++ bodyText terminator level front ++ elseText terminator level back ++
        terminator := by
  cases back with
  | nil =>
    rw [elseText, String.append_empty, ← placed_braced]
    cases front <;> rfl
  | cons line rest =>
    cases front with
    | nil =>
      have hopen : " \x7b\x7d else \x7b" = " \x7b\x7d" ++ (" else" ++ " \x7b") := by decide
      rw [branched, placed_append, placed_cons, placed_deeper, placed_singleton, elseText, bodyText,
        bodyText, hopen]
      simp only [String.append_assoc]
    | cons first others =>
      have hbetween : "\x7d else \x7b" = "\x7d" ++ (" else" ++ " \x7b") := by decide
      rw [branched, placed_append, placed_append, placed_cons, placed_cons, placed_deeper,
        placed_deeper, placed_singleton, elseText, bodyText, bodyText, hbetween]
      simp only [String.append_assoc]

end Placed

section Statements

variable {terminator : String} {level : Nat}

theorem prints_fullLine {fragment : Except Fault String} {s : String} (h : fragment = .ok s) :
    Prints (Emitter.line fragment >>= fun _ => Emitter.newline) terminator level ()
      (placed terminator level [s]) [] := by
  rw [placed_singleton]
  exact (Prints.line h).bind Prints.newline

theorem notes_declarationText (var : VarRef) (value : Option Expr) :
    Notes (Emitter.declarationText var.toTree (optionTree value)) (optionNotices value)
      (.ok (declarationLine var.type.jvmName var.jvmName (value.map Expr.text))) := by
  unfold Emitter.declarationText
  refine Notes.lift_bind rfl (Notes.lift_bind rfl (Notes.lift_bind rfl ?_))
  cases value with
  | none => exact Notes.pure _
  | some e =>
    simp only [optionTree, e.isAbsent_toTree, Bool.false_eq_true, if_false]
    exact e.notes_render.bind_last (Notes.lift_bind rfl (Notes.pure _))

/-- A statement and what its list adds to end the line that it leaves open. -/
def visitClosed (t : Tree) : Render Unit := do
  Emitter.visit t
  if Emitter.leavesLineOpen t then Emitter.newline else pure ()

theorem visitClosed_of_closed {t : Tree} (h : Emitter.leavesLineOpen t = false) :
    visitClosed t = Emitter.visit t := by
  rw [visitClosed, h]
  exact bind_pure_unit

theorem visitClosed_of_open {t : Tree} (h : Emitter.leavesLineOpen t = true) :
    visitClosed t = Emitter.visit t >>= fun _ => Emitter.newline := by
  rw [visitClosed, h]
  rfl

theorem statements_cons (t : Tree) (rest : List Tree) :
    Emitter.statements (t :: rest) = visitClosed t >>= fun _ => Emitter.statements rest := by
  simp only [Emitter.statements, visitClosed]
  cases Emitter.leavesLineOpen t <;> simp

/-- A body prints its braces and, between them, what its statements print one level deeper. -/
theorem prints_bodyOf (xs : List Stmt)
    (h : Prints (Emitter.statements (stmtTrees xs)) terminator (level + 1) ()
      (placed terminator (level + 1) (linesOf (outlines xs))) (stmtNotices xs)) :
    Prints (Emitter.bodyOf (.sequence true (stmtTrees xs))) terminator level ()
      (bodyText terminator level (linesOf (outlines xs))) (stmtNotices xs) := by
  cases xs with
  | nil => exact Prints.write _
  | cons s rest =>
    rw [bodyText_of_ne_nil _ _ (linesOf_outlines_cons_ne_nil s rest)]
    have hline : Prints (Emitter.line (.ok "\x7d")) terminator level () (indent level ++ "\x7d")
        [] := Prints.line rfl
    have hclose := h.block.bind (f := fun _ => Emitter.line (.ok "\x7d")) hline
    refine ((Prints.write _).bind (Prints.newline.bind hclose)).congr ?_ ?_
    · simp only [String.append_assoc]
    · simp only [List.nil_append, List.append_nil]

/-- The part behind the first body of a conditional. -/
theorem prints_else (xs : List Stmt)
    (h : Prints (Emitter.bodyOf (.sequence true (stmtTrees xs))) terminator level ()
      (bodyText terminator level (linesOf (outlines xs))) (stmtNotices xs)) :
    Prints (if (stmtTrees xs).isEmpty then pure () else
        Emitter.write " else" >>= fun _ => Emitter.bodyOf (.sequence true (stmtTrees xs)))
      terminator level () (elseText terminator level (linesOf (outlines xs))) (stmtNotices xs) := by
  cases xs with
  | nil => exact Prints.pure ()
  | cons s rest =>
    rw [elseText_of_ne_nil _ _ (linesOf_outlines_cons_ne_nil s rest)]
    exact (Prints.write _).bind h

mutual

/-- A statement of a list prints the lines of its outline. -/
theorem prints_statement : ∀ (s : Stmt) (terminator : String) (level : Nat),
    Prints (visitClosed s.toTree) terminator level ()
      (placed terminator level (outline s).lines) s.notices
  | .expression e, terminator, level => by
    rw [visitClosed_of_closed rfl, Stmt.toTree, Emitter.visit, Stmt.notices, outline, Outline.lines]
    refine Prints.lift_bind (need_toTree _ _ e) ?_
    exact (Prints.noting_bind e.notes_render (prints_fullLine rfl)).congr rfl (List.append_nil _)
  | .declaration var value, terminator, level => by
    rw [visitClosed_of_open rfl, Stmt.toTree, Emitter.visit, Stmt.notices, outline, Outline.lines]
    simp only [bind_assoc]
    refine Prints.lift_bind rfl ?_
    exact (Prints.noting_bind (notes_declarationText var value) (prints_fullLine rfl)).congr rfl
      (List.append_nil _)
  | .assignment receiver value, terminator, level => by
    rw [visitClosed_of_closed rfl, Stmt.toTree, Emitter.visit, Stmt.notices, outline, Outline.lines]
    refine Prints.lift_bind (need_toTree _ _ receiver) ?_
    refine Prints.noting_bind receiver.notes_render (Prints.lift_bind (need_toTree _ _ value) ?_)
    exact (Prints.noting_bind value.notes_render (prints_fullLine rfl)).congr rfl
      (List.append_nil _)
  | .ifElse condition thenStatements elseStatements, terminator, level => by
    have hthen := prints_bodyOf thenStatements
      (prints_statements thenStatements terminator (level + 1))
    have helse := prints_else elseStatements (prints_bodyOf elseStatements
      (prints_statements elseStatements terminator (level + 1)))
    rw [visitClosed_of_open rfl, Stmt.toTree, Emitter.visit, Stmt.notices, outline, Outline.lines,
      placed_branched]
    simp only [bind_assoc]
    refine Prints.lift_bind (need_toTree _ _ condition) ?_
    refine Prints.noting_bind condition.notes_render ?_
    refine Prints.lift_bind rfl (Prints.lift_bind rfl ?_)
    refine ((Prints.line rfl).bind (hthen.bind (helse.bind Prints.newline))).congr ?_ ?_
    · simp only [String.append_assoc]
    · simp only [List.nil_append, List.append_nil]
  | .forEach name value statements, terminator, level => by
    have hbody := prints_bodyOf statements (prints_statements statements terminator (level + 1))
    rw [visitClosed_of_closed rfl, Stmt.toTree, Emitter.visit, Stmt.notices, outline, Outline.lines,
      placed_braced]
    refine Prints.lift_bind rfl (Prints.lift_bind (need_toTree _ _ value) ?_)
    refine Prints.noting_bind value.notes_render (Prints.lift_bind rfl ?_)
    refine ((Prints.line rfl).bind (hbody.bind Prints.newline)).congr ?_ ?_
    · simp only [String.append_assoc]
    · simp only [List.nil_append, List.append_nil]
  | .whileLoop condition statements, terminator, level => by
    have hbody := prints_bodyOf statements (prints_statements statements terminator (level + 1))
    rw [visitClosed_of_closed rfl, Stmt.toTree, Emitter.visit, Stmt.notices, outline, Outline.lines,
      placed_braced]
    refine Prints.lift_bind (need_toTree _ _ condition) ?_
    refine Prints.noting_bind condition.notes_render (Prints.lift_bind rfl ?_)
    refine ((Prints.line rfl).bind (hbody.bind Prints.newline)).congr ?_ ?_
    · simp only [String.append_assoc]
    · simp only [List.nil_append, List.append_nil]
  | .returnStmt value, terminator, level => by
    rw [visitClosed_of_closed rfl, Stmt.toTree, Emitter.visit, Stmt.notices, outline, Outline.lines]
    refine Prints.lift_bind (need_toTree _ _ value) ?_
    exact (Prints.noting_bind value.notes_render (prints_fullLine rfl)).congr rfl
      (List.append_nil _)

theorem prints_statements : ∀ (xs : List Stmt) (terminator : String) (level : Nat),
    Prints (Emitter.statements (stmtTrees xs)) terminator level ()
      (placed terminator level (linesOf (outlines xs))) (stmtNotices xs)
  | [], _, _ => Prints.pure ()
  | s :: rest, terminator, level => by
    rw [stmtTrees, statements_cons, outlines, linesOf, placed_append, stmtNotices]
    exact (prints_statement s terminator level).bind (prints_statements rest terminator level)

end

end Statements

end JavaRender.Layout
