import JavaRender.Proofs.Emission.Halt
import JavaRender.Proofs.Lacking.Spot
import JavaRender.Proofs.Layout.Statements
import JavaRender.Proofs.Typed.Sorts

/-!
Rendering with an empty spot. An expression fails with the spot, and so does a statement that holds
it, before it has written anything; the statements around it have written the lines in front of it.
-/
namespace JavaRender.Lacking

open Typed Layout Emission
open JavaRender.Tree (Fault)

section Expressions

variable {e : Expr} {t : Tree} {spot : Spot}

theorem InExpr.present (h : InExpr e t spot) : t.isAbsent = false := by
  cases h with
  | here e h =>
    cases e with
    | literal => exact absurd h List.not_mem_nil
    | group | binary => rfl
    | access var receiver => cases receiver <;> rfl
    | call function arguments receiver => cases receiver <;> rfl
  | _ => rfl

theorem InExpr.need_ok (h : InExpr e t spot) (owner slot : String) :
    Tree.need owner slot t = .ok () := by
  rw [Tree.need, h.present]
  rfl

/-- An operator and a left operand come before the right one. -/
theorem fails_binary (op : String) (left right : Expr) {slot : String}
    (h : slot ∈ mandatory (Expr.binary op left right).toTree) :
    Fails (Expression.render (emptied slot (Expr.binary op left right).toTree))
      (Spot.fault ⟨"Binary", slot⟩) := by
  simp only [Expr.toTree, mandatory, List.mem_cons, List.not_mem_nil, or_false] at h
  rcases h with rfl | rfl | rfl
  · change Fails (Expression.render (.binary .absent left.toTree right.toTree)) _
    exact Fails.lift_bind rfl
  · change Fails (Expression.render (.binary (.text op) .absent right.toTree)) _
    rw [Expression.render]
    exact Fails.of_check rfl (Fails.of_notes (notes_operator op) (Fails.lift_bind rfl))
  · change Fails (Expression.render (.binary (.text op) left.toTree .absent)) _
    rw [Expression.render]
    refine Fails.of_check rfl (Fails.of_notes (notes_operator op) ?_)
    refine Fails.of_check (need_toTree _ _ left) (Fails.of_notes left.notes_render ?_)
    exact Fails.lift_bind rfl

theorem toTree_access (var : VarRef) (receiver : Option Expr) :
    (Expr.access var receiver).toTree = .access var.toTree (optionTree receiver) := by
  cases receiver <;> rfl

theorem toTree_call (function : FunRef) (arguments : List Expr) (receiver : Option Expr) :
    (Expr.call function arguments receiver).toTree =
      .call function.toTree (.sequence true (exprTrees arguments)) (optionTree receiver) := by
  cases receiver <;> rfl

/-- An expression that lost a slot itself asks for it. -/
theorem fails_here (e : Expr) {slot : String} (h : slot ∈ mandatory e.toTree) :
    Fails (Expression.render (emptied slot e.toTree)) (Spot.fault ⟨e.toTree.className, slot⟩) := by
  cases e with
  | literal => exact absurd h List.not_mem_nil
  | group e =>
    rw [List.mem_singleton.mp h]
    exact Fails.lift_bind rfl
  | binary op left right => exact fails_binary op left right h
  | access var receiver =>
    rw [toTree_access] at h ⊢
    rw [List.mem_singleton.mp h]
    exact Fails.lift_bind rfl
  | call function arguments receiver =>
    rw [toTree_call] at h ⊢
    rcases List.mem_cons.mp h with rfl | h
    · exact Fails.lift_bind rfl
    · rw [List.mem_singleton.mp h]
      exact Fails.of_check rfl (Fails.lift_bind rfl)

/-- Behind the elements in front an element fails. -/
theorem fails_renderAll (front : List Expr) {t : Tree} {fault : Fault} (back : List Tree)
    (h : Fails (Expression.render t) fault) :
    Fails (Expression.renderAll (exprTrees front ++ t :: back)) fault := by
  induction front with
  | nil => exact h.bind
  | cons e rest ih => exact Fails.of_notes e.notes_render ih.bind

theorem fails_qualify {t name : Tree} {rendered : Noting Tree} {fault : Fault}
    (ht : t.isAbsent = false) (h : Fails rendered fault) :
    Fails (Expression.qualify t name rendered) fault := by
  rw [Expression.qualify, ht]
  exact h.bind

/-- Rendering an expression with an empty spot fails with the spot. -/
theorem fails_expression (h : InExpr e t spot) : Fails (Expression.render t) spot.fault := by
  induction h with
  | here e h => exact fails_here e h
  | group h ih => exact Fails.of_check (h.need_ok _ _) ih.bind
  | left op h right ih =>
    rw [Expression.render]
    refine Fails.of_check rfl (Fails.of_notes (notes_operator op) ?_)
    exact Fails.of_check (h.need_ok _ _) ih.bind
  | right op left h ih =>
    rw [Expression.render]
    refine Fails.of_check rfl (Fails.of_notes (notes_operator op) ?_)
    refine Fails.of_check (need_toTree _ _ left) (Fails.of_notes left.notes_render ?_)
    exact Fails.of_check (h.need_ok _ _) ih.bind
  | owner var h ih =>
    rw [Expression.render]
    exact Fails.of_check rfl (Fails.of_check rfl (fails_qualify h.present ih))
  | argument function front h back receiver ih =>
    rw [Expression.render]
    exact Fails.of_check rfl (Fails.of_check rfl (fails_renderAll front _ ih).bind)
  | callee function arguments h ih =>
    rw [Expression.render]
    refine Fails.of_check rfl (Fails.of_check rfl ?_)
    refine Fails.of_notes (notes_renderAll arguments) (Fails.of_check (joined_texts _) ?_)
    exact Fails.of_check rfl (fails_qualify h.present ih)

end Expressions

section Holders

variable {s : Stmt} {t : Tree} {spot : Spot} {terminator : String} {level : Nat}

theorem fails_declarationText_type (var : VarRef) (value : Tree) :
    Fails (Emitter.declarationText (emptied "type" var.toTree) value)
      (Spot.fault ⟨"Variable", "type"⟩) :=
  Fails.lift_bind rfl

theorem fails_declarationText_value (var : VarRef) {e : Expr} (h : InExpr e t spot) :
    Fails (Emitter.declarationText var.toTree t) spot.fault := by
  unfold Emitter.declarationText
  refine Fails.of_check rfl (Fails.of_check rfl (Fails.of_check rfl ?_))
  simp only [h.present, Bool.false_eq_true, if_false]
  exact (fails_expression h).bind

/-- A statement that lost a slot itself asks for it before it writes. -/
theorem halts_here (s : Stmt) {slot : String} (h : slot ∈ mandatory s.toTree) :
    Halts (Emitter.visit (emptied slot s.toTree)) terminator level
      (Spot.fault ⟨s.toTree.className, slot⟩) "" := by
  cases s with
  | expression e =>
    rw [List.mem_singleton.mp h]
    exact Halts.lift_bind rfl
  | declaration var value =>
    rw [List.mem_singleton.mp h]
    exact Halts.lift_bind rfl
  | assignment receiver value =>
    simp only [Stmt.toTree, mandatory, List.mem_cons, List.not_mem_nil, or_false] at h
    rcases h with rfl | rfl
    · exact Halts.lift_bind rfl
    · change Halts (Emitter.visit (.assignment receiver.toTree .absent)) _ _ _ _
      rw [Emitter.visit]
      refine Halts.of_check (need_toTree _ _ receiver) ?_
      exact Halts.of_noting receiver.notes_render (Halts.lift_bind rfl)
  | ifElse condition thenStatements elseStatements =>
    simp only [Stmt.toTree, mandatory, List.mem_cons, List.not_mem_nil, or_false] at h
    rcases h with rfl | rfl | rfl
    · exact Halts.lift_bind rfl
    · change Halts (Emitter.visit (.ifElse condition.toTree .absent
        (.sequence true (stmtTrees elseStatements)))) _ _ _ _
      rw [Emitter.visit]
      refine Halts.of_check (need_toTree _ _ condition) ?_
      exact Halts.of_noting condition.notes_render (Halts.lift_bind rfl)
    · change Halts (Emitter.visit (.ifElse condition.toTree
        (.sequence true (stmtTrees thenStatements)) .absent)) _ _ _ _
      rw [Emitter.visit]
      refine Halts.of_check (need_toTree _ _ condition) ?_
      exact Halts.of_noting condition.notes_render (Halts.of_check rfl (Halts.lift_bind rfl))
  | forEach name value statements =>
    simp only [Stmt.toTree, mandatory, List.mem_cons, List.not_mem_nil, or_false] at h
    rcases h with rfl | rfl | rfl
    · exact Halts.lift_bind rfl
    · exact Halts.of_check rfl (Halts.lift_bind rfl)
    · change Halts (Emitter.visit (.forEach (.text name) value.toTree .absent)) _ _ _ _
      rw [Emitter.visit]
      refine Halts.of_check rfl (Halts.of_check (need_toTree _ _ value) ?_)
      exact Halts.of_noting value.notes_render (Halts.lift_bind rfl)
  | whileLoop condition statements =>
    simp only [Stmt.toTree, mandatory, List.mem_cons, List.not_mem_nil, or_false] at h
    rcases h with rfl | rfl
    · exact Halts.lift_bind rfl
    · change Halts (Emitter.visit (.whileLoop condition.toTree .absent)) _ _ _ _
      rw [Emitter.visit]
      refine Halts.of_check (need_toTree _ _ condition) ?_
      exact Halts.of_noting condition.notes_render (Halts.lift_bind rfl)
  | returnStmt value =>
    rw [List.mem_singleton.mp h]
    exact Halts.lift_bind rfl

/-- A statement evaluates all its parts before it writes. -/
theorem halts_holder (h : InHolder s t spot) :
    Halts (Emitter.visit t) terminator level spot.fault "" := by
  cases h with
  | here s h => exact halts_here s h
  | expression h =>
    exact Halts.of_check (h.need_ok _ _) (Halts.noting_bind (fails_expression h))
  | type var value =>
    rw [Emitter.visit]
    exact Halts.of_check rfl (Halts.noting_bind (fails_declarationText_type var _))
  | initial var h =>
    rw [Emitter.visit]
    exact Halts.of_check rfl (Halts.noting_bind (fails_declarationText_value var h))
  | target h value =>
    rw [Emitter.visit]
    exact Halts.of_check (h.need_ok _ _) (Halts.noting_bind (fails_expression h))
  | assigned receiver h =>
    rw [Emitter.visit]
    refine Halts.of_check (need_toTree _ _ receiver) (Halts.of_noting receiver.notes_render ?_)
    exact Halts.of_check (h.need_ok _ _) (Halts.noting_bind (fails_expression h))
  | ifCondition h =>
    rw [Emitter.visit]
    exact Halts.of_check (h.need_ok _ _) (Halts.noting_bind (fails_expression h))
  | iterated name h =>
    rw [Emitter.visit]
    refine Halts.of_check rfl ?_
    exact Halts.of_check (h.need_ok _ _) (Halts.noting_bind (fails_expression h))
  | whileCondition h =>
    rw [Emitter.visit]
    exact Halts.of_check (h.need_ok _ _) (Halts.noting_bind (fails_expression h))
  | returned h =>
    rw [Emitter.visit]
    exact Halts.of_check (h.need_ok _ _) (Halts.noting_bind (fails_expression h))

end Holders

section Statements

variable {terminator : String} {level : Nat} {fault : Fault} {text : String}

/-- The statements in front print their lines, those behind nothing. -/
theorem halts_statements (front : List Stmt) {t : Tree} (back : List Tree) {lines : List String}
    (h : Halts (Emitter.visit t) terminator level fault (placed terminator level lines)) :
    Halts (Emitter.statements (stmtTrees front ++ t :: back)) terminator level fault
      (placed terminator level (linesOf (outlines front) ++ lines)) := by
  induction front with
  | nil => exact h.bind
  | cons s rest ih =>
    rw [stmtTrees, List.cons_append, statements_cons, outlines, linesOf, List.append_assoc,
      placed_append]
    exact Halts.of_prints (prints_statement s terminator level) ih

/-- A body has opened its brace. -/
theorem halts_bodyOf {ts : List Tree} {t : Tree} {back : List Tree} {lines : List String}
    (h : Halts (Emitter.statements (ts ++ t :: back)) terminator (level + 1) fault
      (placed terminator (level + 1) lines)) :
    Halts (Emitter.bodyOf (.sequence true (ts ++ t :: back))) terminator level fault
      (" \x7b" ++ (terminator ++ placed terminator level (deeper lines))) := by
  obtain ⟨first, others, hcons⟩ : ∃ first others, ts ++ t :: back = first :: others := by
    cases ts <;> exact ⟨_, _, rfl⟩
  rw [placed_deeper]
  rw [hcons] at h ⊢
  exact Halts.of_prints (Prints.write _) (Halts.of_prints Prints.newline h.block.bind)

theorem placed_opened (header : String) (lines : List String) :
    placed terminator level ((header ++ " \x7b") :: lines) =
      indent level ++ header ++ (" \x7b" ++ (terminator ++ placed terminator level lines)) := by
  rw [placed_cons]
  simp only [String.append_assoc]

theorem placed_openedElse (header : String) (body lines : List String) :
    placed terminator level (openedElse header body ++ lines) =
      indent level ++ header ++ (bodyText terminator level body ++
        (" else" ++ (" \x7b" ++ (terminator ++ placed terminator level lines)))) := by
  cases body with
  | nil =>
    have hopen : " \x7b\x7d else \x7b" = " \x7b\x7d" ++ (" else" ++ " \x7b") := by decide
    rw [openedElse, List.singleton_append, placed_cons, bodyText, hopen]
    simp only [String.append_assoc]
  | cons first others =>
    have hbetween : "\x7d else \x7b" = "\x7d" ++ (" else" ++ " \x7b") := by decide
    rw [openedElse, placed_append, placed_append, placed_cons, placed_deeper, placed_singleton,
      bodyText, hbetween]
    simp only [String.append_assoc]

/-- A statement with an empty spot has written the lines in front of the holder. -/
theorem halts_statement {s : Stmt} {t : Tree} {spot : Spot} {lead own : List String}
    (h : InStmt s t spot lead own) (terminator : String) (level : Nat) :
    Halts (Emitter.visit t) terminator level spot.fault (placed terminator level lead) := by
  induction h generalizing level with
  | holder h => exact halts_holder h
  | thenPart condition front h back elseStatements ih =>
    rw [Emitter.visit, placed_opened]
    refine Halts.of_check (need_toTree _ _ condition) (Halts.of_noting condition.notes_render ?_)
    refine Halts.of_check rfl (Halts.of_check rfl (Halts.of_prints (Prints.line rfl) ?_))
    exact (halts_bodyOf (halts_statements front _ (ih (level + 1)))).bind
  | elsePart condition thenStatements front h back ih =>
    have hbody := prints_bodyOf thenStatements
      (prints_statements thenStatements terminator (level + 1))
    have helse := halts_bodyOf (halts_statements front (stmtTrees back) (ih (level + 1)))
    rw [Emitter.visit, placed_openedElse]
    refine Halts.of_check (need_toTree _ _ condition) (Halts.of_noting condition.notes_render ?_)
    refine Halts.of_check rfl (Halts.of_check rfl (Halts.of_prints (Prints.line rfl) ?_))
    refine Halts.of_prints hbody ?_
    rw [if_neg (by cases front <;> exact Bool.false_ne_true)]
    exact Halts.of_prints (Prints.write _) helse
  | forPart name value front h back ih =>
    rw [Emitter.visit, placed_opened]
    refine Halts.of_check rfl (Halts.of_check (need_toTree _ _ value) ?_)
    refine Halts.of_noting value.notes_render (Halts.of_check rfl ?_)
    refine Halts.of_prints (Prints.line rfl) ?_
    exact (halts_bodyOf (halts_statements front _ (ih (level + 1)))).bind
  | whilePart condition front h back ih =>
    rw [Emitter.visit, placed_opened]
    refine Halts.of_check (need_toTree _ _ condition) ?_
    refine Halts.of_noting condition.notes_render (Halts.of_check rfl ?_)
    refine Halts.of_prints (Prints.line rfl) ?_
    exact (halts_bodyOf (halts_statements front _ (ih (level + 1)))).bind

end Statements

section Lines

theorem outlines_append (front : List Stmt) (s : Stmt) (back : List Stmt) :
    linesOf (outlines (front ++ s :: back)) =
      linesOf (outlines front) ++ ((outline s).lines ++ linesOf (outlines back)) := by
  induction front with
  | nil => rfl
  | cons first rest ih =>
    rw [List.cons_append, outlines, linesOf, ih, outlines, linesOf, List.append_assoc]

theorem deeper_append (first second : List String) :
    deeper (first ++ second) = deeper first ++ deeper second := List.map_append

theorem braced_of_ne_nil (header : String) {body : List String} (h : body ≠ []) :
    braced header body = (header ++ " \x7b") :: (deeper body ++ ["\x7d"]) := by
  cases body with
  | nil => exact absurd rfl h
  | cons line rest => rfl

theorem branched_front (header : String) {front : List String} (back : List String)
    (h : front ≠ []) :
    ∃ rest, branched header front back = (header ++ " \x7b") :: (deeper front ++ rest) := by
  cases back with
  | nil =>
    rw [branched, braced_of_ne_nil header h]
    exact ⟨_, rfl⟩
  | cons line others =>
    cases front with
    | nil => exact absurd rfl h
    | cons first rest =>
      refine ⟨"\x7d else \x7b" :: deeper (line :: others) ++ ["\x7d"], ?_⟩
      simp [branched]

theorem branched_back (header : String) (front : List String) {back : List String}
    (h : back ≠ []) :
    branched header front back = openedElse header front ++ (deeper back ++ ["\x7d"]) := by
  cases back with
  | nil => exact absurd rfl h
  | cons line rest => cases front <;> simp [branched, openedElse]

/-- In a body, and one depth deeper, the lines of the statements in front come first. -/
theorem deeper_body (front : List Stmt) {s : Stmt} (back : List Stmt) {lead own rest : List String}
    (h : (outline s).lines = lead ++ (own ++ rest)) :
    ∃ rest', deeper (linesOf (outlines (front ++ s :: back))) =
      deeper (linesOf (outlines front) ++ lead) ++ (deeper own ++ rest') := by
  refine ⟨deeper (rest ++ linesOf (outlines back)), ?_⟩
  rw [outlines_append, h]
  simp only [deeper_append, List.append_assoc]

theorem body_ne_nil (front : List Stmt) (s : Stmt) (back : List Stmt) :
    linesOf (outlines (front ++ s :: back)) ≠ [] := by
  rw [outlines_append]
  refine List.append_ne_nil_of_right_ne_nil _ ?_
  exact List.append_ne_nil_of_left_ne_nil (lines_ne_nil _) _

/-- The lines of a statement begin with those in front of the holder and those of the holder. -/
theorem lines_statement {s : Stmt} {t : Tree} {spot : Spot} {lead own : List String}
    (h : InStmt s t spot lead own) : ∃ rest, (outline s).lines = lead ++ (own ++ rest) := by
  induction h with
  | holder => exact ⟨[], (List.append_nil _).symm⟩
  | @thenPart condition front s _ _ _ _ _ back elseStatements ih =>
    obtain ⟨rest, hlines⟩ := ih
    obtain ⟨rest', hbody⟩ := deeper_body front back hlines
    obtain ⟨rest'', hbranched⟩ := branched_front ("if (" ++ condition.text ++ ")")
      (linesOf (outlines elseStatements)) (body_ne_nil front s back)
    refine ⟨rest' ++ rest'', ?_⟩
    rw [outline, Outline.lines, hbranched, hbody]
    simp only [List.cons_append, List.append_assoc]
  | @elsePart condition thenStatements front s _ _ _ _ _ back ih =>
    obtain ⟨rest, hlines⟩ := ih
    obtain ⟨rest', hbody⟩ := deeper_body front back hlines
    refine ⟨rest' ++ ["\x7d"], ?_⟩
    rw [outline, Outline.lines, branched_back _ _ (body_ne_nil front s back), hbody]
    simp only [List.append_assoc]
  | @forPart name value front s _ _ _ _ _ back ih =>
    obtain ⟨rest, hlines⟩ := ih
    obtain ⟨rest', hbody⟩ := deeper_body front back hlines
    refine ⟨rest' ++ ["\x7d"], ?_⟩
    rw [outline, Outline.lines, braced_of_ne_nil _ (body_ne_nil front s back), hbody]
    simp only [List.cons_append, List.append_assoc]
  | @whilePart condition front s _ _ _ _ _ back ih =>
    obtain ⟨rest, hlines⟩ := ih
    obtain ⟨rest', hbody⟩ := deeper_body front back hlines
    refine ⟨rest' ++ ["\x7d"], ?_⟩
    rw [outline, Outline.lines, braced_of_ne_nil _ (body_ne_nil front s back), hbody]
    simp only [List.cons_append, List.append_assoc]

end Lines

end JavaRender.Lacking
