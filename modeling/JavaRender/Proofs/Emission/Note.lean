import JavaRender.Proofs.Emission.Event

/-!
Expressions and their notices. Making the text of an expression only appends notices, and neither
these nor the outcome depend on what was noted before.
-/
namespace JavaRender.Emission

open JavaRender.Tree (Fault)

/-- Whatever was noted before, a computation appends the given notices and ends as told. -/
def Notes {α : Type} (text : Noting α) (ns : List Notice) (outcome : Except Fault α) : Prop :=
  ∀ before : List Notice, text before = (outcome, before ++ ns)

namespace Notes

variable {α β : Type} {first second : List Notice}

theorem pure (a : α) : Notes (pure a : Noting α) [] (.ok a) := by
  intro before
  rw [List.append_nil]
  rfl

theorem lift (r : Except Fault α) : Notes (liftM r : Noting α) [] r := by
  intro before
  rw [List.append_nil]
  rfl

theorem throw (fault : Fault) : Notes (throw fault : Noting α) [] (.error fault) := by
  intro before
  rw [List.append_nil]
  rfl

theorem note (n : Notice) : Notes (modify (· ++ [n]) : Noting Unit) [n] (.ok ()) :=
  fun _ => rfl

theorem bind {m : Noting α} {f : α → Noting β} {a : α} {outcome : Except Fault β}
    (hm : Notes m first (.ok a)) (hf : Notes (f a) second outcome) :
    Notes (m >>= f) (first ++ second) outcome := by
  intro before
  rw [bind_apply, hm before]
  simp only [hf (before ++ first), List.append_assoc]

theorem bind_last {m : Noting α} {f : α → Noting β} {a : α} {outcome : Except Fault β}
    (hm : Notes m first (.ok a)) (hf : Notes (f a) [] outcome) :
    Notes (m >>= f) first outcome := by
  simpa only [List.append_nil] using hm.bind hf

/-- A check that passes notes nothing. -/
theorem lift_bind {r : Except Fault α} {f : α → Noting β} {a : α} {outcome : Except Fault β}
    (hr : r = .ok a) (hf : Notes (f a) first outcome) :
    Notes ((liftM r : Noting α) >>= f) first outcome := by
  subst hr
  exact hf

theorem bind_error {m : Noting α} (f : α → Noting β) {fault : Fault}
    (hm : Notes m first (.error fault)) : Notes (m >>= f) first (.error fault) := by
  intro before
  rw [bind_apply, hm before]

/-- The notices of an expression are those of the rendering that asks for its text. -/
theorem plays {text : Noting α} {outcome : Except Fault α} (h : Notes text first outcome)
    (terminator : String) (level : Int) :
    Plays (Emitter.noting text) terminator level (first.map .notice) outcome := by
  intro e _ _
  change ((text e.notices).1, { e with notices := (text e.notices).2 }) = _
  rw [h e.notices, playTo, play_map_notice]

end Notes

def Noted {α : Type} (text : Noting α) : Prop := ∃ ns outcome, Notes text ns outcome

namespace Noted

variable {α β : Type}

theorem pure (a : α) : Noted (pure a : Noting α) := ⟨_, _, Notes.pure a⟩

theorem lift (r : Except Fault α) : Noted (liftM r : Noting α) := ⟨_, _, Notes.lift r⟩

theorem throw (fault : Fault) : Noted (throw fault : Noting α) := ⟨_, _, Notes.throw fault⟩

theorem note (n : Notice) : Noted (modify (· ++ [n]) : Noting Unit) := ⟨_, _, Notes.note n⟩

theorem bind {m : Noting α} {f : α → Noting β} (hm : Noted m) (hf : ∀ a, Noted (f a)) :
    Noted (m >>= f) := by
  obtain ⟨first, outcome, hfirst⟩ := hm
  cases outcome with
  | error fault => exact ⟨first, .error fault, Notes.bind_error f hfirst⟩
  | ok a =>
    obtain ⟨second, outcome, hsecond⟩ := hf a
    exact ⟨first ++ second, outcome, hfirst.bind hsecond⟩

theorem scripted {text : Noting α} (h : Noted text) : Scripted (Emitter.noting text) := by
  intro terminator level
  obtain ⟨ns, outcome, hnotes⟩ := h
  exact ⟨_, _, hnotes.plays terminator level⟩

theorem operator (tag : Tree) : Noted (Operator.render tag) := by
  unfold Operator.render
  refine (lift _).bind fun _ => ?_
  dsimp only
  split
  · exact pure _
  · exact (lift _).bind fun _ => (note _).bind fun _ => pure _

theorem qualify (receiver name : Tree) {rendered : Noting Tree} (h : Noted rendered) :
    Noted (Expression.qualify receiver name rendered) := by
  unfold Expression.qualify
  split
  · exact pure name
  · exact h.bind fun front => (lift _).bind fun _ => (lift _).bind fun _ => pure _

mutual

/-- Rendering an expression, or any value in the place of one, is noted. -/
theorem render : ∀ t : Tree, Noted (Expression.render t)
  | .literal _ _ => (lift _).bind fun _ => pure _
  | .group expression => by
    refine (lift _).bind fun _ => ?_
    refine (render expression).bind fun _ => ?_
    exact (lift _).bind fun _ => pure _
  | .binary op left right => by
    refine (lift _).bind fun _ => (operator op).bind fun _ => ?_
    refine (lift _).bind fun _ => (render left).bind fun _ => ?_
    refine (lift _).bind fun _ => (render right).bind fun _ => ?_
    exact (lift _).bind fun _ => (lift _).bind fun _ => (lift _).bind fun _ => pure _
  | .access _ receiver => by
    refine (lift _).bind fun _ => (lift _).bind fun name => ?_
    exact qualify receiver name (render receiver)
  | .call _ arguments receiver => by
    refine (lift _).bind fun _ => (lift _).bind fun _ => ?_
    refine (renderItems arguments).bind fun _ => (lift _).bind fun _ => (lift _).bind fun _ => ?_
    exact qualify receiver _ (render receiver)
  | .absent | .boolean _ | .integer _ | .decimal _ | .double _ | .text _ | .bytes _ | .kind _
  | .sequence _ _ | .typeRef _ _ | .varRef _ _ _ | .funRef _ _ _ _ | .expressionStmt _
  | .declaration _ _ | .assignment _ _ | .ifElse _ _ _ | .forEach _ _ _ | .whileLoop _ _
  | .returnStmt _ | .field _ _ | .method _ _ _ | .source _ _ => throw _

theorem renderItems : ∀ t : Tree, Noted (Expression.renderItems t)
  | .sequence _ items => renderAll items
  | .absent | .boolean _ | .integer _ | .decimal _ | .double _ | .text _ | .bytes _ | .kind _
  | .typeRef _ _ | .varRef _ _ _ | .funRef _ _ _ _ | .literal _ _ | .group _ | .binary _ _ _
  | .access _ _ | .call _ _ _ | .expressionStmt _ | .declaration _ _ | .assignment _ _
  | .ifElse _ _ _ | .forEach _ _ _ | .whileLoop _ _ | .returnStmt _ | .field _ _
  | .method _ _ _ | .source _ _ => pure _

theorem renderAll : ∀ ts : List Tree, Noted (Expression.renderAll ts)
  | [] => pure _
  | t :: rest => (render t).bind fun _ => (renderAll rest).bind fun _ => pure _

end

end Noted

end JavaRender.Emission
