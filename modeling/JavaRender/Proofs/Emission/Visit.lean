import JavaRender.Proofs.Emission.Note

/-!
Every value is rendered by a script. One lemma stands for each operation of the renderer, and the
main statement follows the classes of nodes: whatever a tree holds, and wherever it has holes, the
events of a visit and its outcome are fixed by the tree, the terminator and the level.
-/
namespace JavaRender.Emission

theorem Noted.declarationText (var value : Tree) : Noted (Emitter.declarationText var value) := by
  unfold Emitter.declarationText
  refine (lift _).bind fun _ => (lift _).bind fun _ => (lift _).bind fun _ => ?_
  split
  · exact pure _
  · exact (render value).bind fun _ => (lift _).bind fun _ => pure _

namespace Scripted

theorem declarationText (var value : Tree) :
    Scripted (Emitter.noting (Emitter.declarationText var value)) :=
  (Noted.declarationText var value).scripted

theorem expression (t : Tree) : Scripted (Emitter.noting (Expression.render t)) :=
  (Noted.render t).scripted

/-- An indented line with its end, then the rest. -/
theorem lineThen {α : Type} (fragment : Except Tree.Fault String) {m : Render α} (h : Scripted m) :
    Scripted (Emitter.line fragment >>= fun _ => Emitter.newline >>= fun _ => m) :=
  (line fragment).bind fun _ => newline.bind fun _ => h

theorem fullLine (fragment : Except Tree.Fault String) :
    Scripted (Emitter.line fragment >>= fun _ => Emitter.newline) :=
  (line fragment).bind fun _ => newline

theorem field (t : Tree) : Scripted (Emitter.field t) := by
  unfold Emitter.field
  refine (lift _).bind fun var => (lift _).bind fun value => ?_
  exact (declarationText var value).bind fun text => fullLine (.ok text)

theorem fields (ts : List Tree) : Scripted (Emitter.fields ts) := by
  induction ts with
  | nil => exact pure ()
  | cons t rest ih => exact (field t).bind fun _ => ih

theorem entryPoint : Scripted Emitter.entryPoint :=
  lineThen _ ((block (fullLine _)).bind fun _ => fullLine _)

theorem methodAround (t : Tree) {body : Render Unit} (h : Scripted body) :
    Scripted (Emitter.methodAround t body) := by
  unfold Emitter.methodAround
  exact (lift _).bind fun _ => lineThen _ ((block h).bind fun _ => fullLine _)

theorem writeValue (t : Tree) : Scripted (Emitter.writeValue t) := by
  unfold Emitter.writeValue
  split
  · exact write _
  · exact throw _

/-- A body of statements: the rest of its first line, the statements and the closing brace. -/
theorem braced {body : Render Unit} (h : Scripted body) :
    Scripted (Emitter.write " \x7b" >>= fun _ => Emitter.newline >>= fun _ =>
      Emitter.block body >>= fun _ => Emitter.line (.ok "\x7d")) :=
  (write _).bind fun _ => newline.bind fun _ => (block h).bind fun _ => line _

mutual

/-- Visiting a value of any class is scripted. -/
theorem visit : ∀ t : Tree, Scripted (Emitter.visit t)
  | .source fieldSlot methodSlot => by
    have methodPart : ∀ items : List Tree, Scripted (if items.isEmpty then Pure.pure () else
        Emitter.newline >>= fun _ => Emitter.methodsOf methodSlot) := by
      intro items
      split
      · exact pure ()
      · exact newline.bind fun _ => methodsOf methodSlot
    simp only [Emitter.visit]
    refine (lift _).bind fun fieldItems => (lift _).bind fun methodItems => ?_
    refine (write _).bind fun _ => newline.bind fun _ => ?_
    refine (block ?_).bind fun _ => line _
    split
    · exact entryPoint.bind fun _ => methodPart methodItems
    · refine newline.bind fun _ => (fields fieldItems).bind fun _ => newline.bind fun _ => ?_
      exact entryPoint.bind fun _ => methodPart methodItems
  | .field var value => field (.field var value)
  | .method function parameters statements =>
    methodAround (.method function parameters statements) (statementsOf statements)
  | .expressionStmt e => by
    rw [Emitter.visit]
    exact (lift _).bind fun _ => (expression e).bind fun _ => fullLine _
  | .declaration var value => by
    rw [Emitter.visit]
    exact (lift _).bind fun _ => (declarationText var value).bind fun _ => line _
  | .assignment receiver value => by
    rw [Emitter.visit]
    refine (lift _).bind fun _ => (expression receiver).bind fun _ => ?_
    exact (lift _).bind fun _ => (expression value).bind fun _ => fullLine _
  | .ifElse condition thenStatements elseStatements => by
    rw [Emitter.visit]
    refine (lift _).bind fun _ => (expression condition).bind fun _ => ?_
    refine (lift _).bind fun _ => (lift _).bind fun others => ?_
    refine (line _).bind fun _ => (bodyOf thenStatements).bind fun _ => ?_
    split
    · exact pure ()
    · exact (write _).bind fun _ => bodyOf elseStatements
  | .forEach _ value statements => by
    rw [Emitter.visit]
    refine (lift _).bind fun _ => (lift _).bind fun _ => (expression value).bind fun _ => ?_
    refine (lift _).bind fun _ => (line _).bind fun _ => ?_
    exact (bodyOf statements).bind fun _ => newline
  | .whileLoop condition statements => by
    rw [Emitter.visit]
    refine (lift _).bind fun _ => (expression condition).bind fun _ => ?_
    refine (lift _).bind fun _ => (line _).bind fun _ => ?_
    exact (bodyOf statements).bind fun _ => newline
  | .returnStmt value => by
    rw [Emitter.visit]
    exact (lift _).bind fun _ => (expression value).bind fun _ => fullLine _
  | .absent | .boolean _ | .integer _ | .decimal _ | .double _ | .text _ | .bytes _ | .kind _
  | .sequence _ _ | .typeRef _ _ | .varRef _ _ _ | .funRef _ _ _ _ | .literal _ _ | .group _
  | .binary _ _ _ | .access _ _ | .call _ _ _ => (expression _).bind fun text => writeValue text

theorem statementsOf : ∀ t : Tree, Scripted (Emitter.statementsOf t)
  | .sequence _ items => statements items
  | .absent | .boolean _ | .integer _ | .decimal _ | .double _ | .text _ | .bytes _ | .kind _
  | .typeRef _ _ | .varRef _ _ _ | .funRef _ _ _ _ | .literal _ _ | .group _ | .binary _ _ _
  | .access _ _ | .call _ _ _ | .expressionStmt _ | .declaration _ _ | .assignment _ _
  | .ifElse _ _ _ | .forEach _ _ _ | .whileLoop _ _ | .returnStmt _ | .field _ _
  | .method _ _ _ | .source _ _ => pure ()

theorem statements : ∀ ts : List Tree, Scripted (Emitter.statements ts)
  | [] => pure ()
  | t :: rest => by
    rw [Emitter.statements]
    refine (visit t).bind fun _ => ?_
    dsimp only
    split
    · exact newline.bind fun _ => statements rest
    · exact statements rest

theorem bodyOf : ∀ t : Tree, Scripted (Emitter.bodyOf t)
  | .sequence _ [] => write _
  | .sequence _ (t :: rest) => braced (statements (t :: rest))
  | .absent | .boolean _ | .integer _ | .decimal _ | .double _ | .text _ | .bytes _ | .kind _
  | .typeRef _ _ | .varRef _ _ _ | .funRef _ _ _ _ | .literal _ _ | .group _ | .binary _ _ _
  | .access _ _ | .call _ _ _ | .expressionStmt _ | .declaration _ _ | .assignment _ _
  | .ifElse _ _ _ | .forEach _ _ _ | .whileLoop _ _ | .returnStmt _ | .field _ _
  | .method _ _ _ | .source _ _ => pure ()

theorem methodsOf : ∀ t : Tree, Scripted (Emitter.methodsOf t)
  | .sequence _ items => methods true items
  | .absent | .boolean _ | .integer _ | .decimal _ | .double _ | .text _ | .bytes _ | .kind _
  | .typeRef _ _ | .varRef _ _ _ | .funRef _ _ _ _ | .literal _ _ | .group _ | .binary _ _ _
  | .access _ _ | .call _ _ _ | .expressionStmt _ | .declaration _ _ | .assignment _ _
  | .ifElse _ _ _ | .forEach _ _ _ | .whileLoop _ _ | .returnStmt _ | .field _ _
  | .method _ _ _ | .source _ _ => pure ()

theorem methods (first : Bool) : ∀ ts : List Tree, Scripted (Emitter.methods first ts)
  | [] => pure ()
  | t :: rest => by
    have following : Scripted (Emitter.method t >>= fun _ => Emitter.methods false rest) :=
      (method t).bind fun _ => methods false rest
    rw [Emitter.methods]
    split
    · exact following
    · exact newline.bind fun _ => following

theorem method : ∀ t : Tree, Scripted (Emitter.method t)
  | .method function parameters statements =>
    methodAround (.method function parameters statements) (statementsOf statements)
  | .absent | .boolean _ | .integer _ | .decimal _ | .double _ | .text _ | .bytes _ | .kind _
  | .sequence _ _ | .typeRef _ _ | .varRef _ _ _ | .funRef _ _ _ _ | .literal _ _ | .group _
  | .binary _ _ _ | .access _ _ | .call _ _ _ | .expressionStmt _ | .declaration _ _
  | .assignment _ _ | .ifElse _ _ _ | .forEach _ _ _ | .whileLoop _ _ | .returnStmt _
  | .field _ _ | .source _ _ => (lift _).bind fun _ => pure ()

end

end Scripted

/-- An emission is a visit from level zero on, with at most a notice behind it. -/
theorem emit_eq (t : Tree) :
    ∃ ending : Render Unit,
      (ending = pure () ∨ ∃ n, ending = modify fun e => { e with notices := e.notices ++ [n] }) ∧
      ∀ e : Emitter,
        Emitter.emit t e = (Emitter.visit t >>= fun _ => ending) { e with level := 0 } := by
  cases t with
  | source => exact ⟨_, .inr ⟨_, rfl⟩, fun _ => rfl⟩
  | _ => exact ⟨_, .inl rfl, fun _ => rfl⟩

/-- An emission is scripted from level zero, whatever the level was. -/
theorem emit_script (t : Tree) (terminator : String) :
    ∃ events outcome, ∀ e : Emitter, e.terminator = terminator →
      Emitter.emit t e = playTo outcome events { e with level := 0 } := by
  obtain ⟨ending, hending, hemit⟩ := emit_eq t
  have hscripted : Scripted ending := by
    rcases hending with rfl | ⟨n, rfl⟩
    · exact Scripted.pure ()
    · exact Scripted.note n
  obtain ⟨events, outcome, hplays⟩ := (Scripted.visit t).bind (fun _ => hscripted) terminator 0
  refine ⟨events, outcome, fun e hterminator => ?_⟩
  rw [hemit, hplays { e with level := 0 } hterminator rfl]

end JavaRender.Emission
