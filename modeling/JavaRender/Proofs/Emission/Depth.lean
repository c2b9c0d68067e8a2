import JavaRender.Proofs.Emission.Refusal
import Mathlib.Data.List.Induction

/-!
The indentation level over all uses of one emitter. Uses are the steps of a session, blocks around
further uses and parts whose exception is caught. The calls that a run of uses makes fix
the level after it, and what a later emission writes does not depend on any of this history.
-/
namespace JavaRender.Session

open JavaRender.Tree (Fault)
open Emission

inductive Call where
  | emit
  | enter
  | exit
deriving DecidableEq, Repr

def sinceEmit (calls : List Call) : List Call := calls.reverse.takeWhile (· ≠ .emit)

def depth (calls : List Call) : Int :=
  ((sinceEmit calls).count .enter : Int) - (sinceEmit calls).count .exit

def Call.apply (level : Int) : Call → Int
  | emit => 0
  | enter => level + 1
  | exit => level - 1

theorem foldl_apply (calls : List Call) : calls.foldl Call.apply 0 = depth calls := by
  induction calls using List.reverseRecOn with
  | nil => rfl
  | append_singleton calls call ih =>
    rw [List.foldl_append, ih, List.foldl_cons, List.foldl_nil]
    cases call with
    | emit => simp [Call.apply, depth, sinceEmit]
    | enter =>
      simp only [Call.apply, depth, sinceEmit, List.reverse_append, List.reverse_singleton,
        List.singleton_append, List.takeWhile_cons]
      simp
      omega
    | exit =>
      simp only [Call.apply, depth, sinceEmit, List.reverse_append, List.reverse_singleton,
        List.singleton_append, List.takeWhile_cons]
      simp
      omega

/-- The calls that a step stands for. Rendering a node counts as none, for it enters and exits its
blocks in pairs. -/
def Step.calls : Step → List Call
  | emit _ => [.emit]
  | enterBlock => [.enter]
  | exitBlock => [.exit]
  | interruptedBlock _ => [.enter, .exit]
  | visit _ | expression _ | write _ | indentLine | newline => []

/-- A use of an emitter. A body goes on up to its first exception. A block may end in an exception
of its own besides; of a caught body no exception is left. -/
inductive Use where
  | step (s : Step)
  | block (body : List Use) (reason : Option String)
  | caught (body : List Use)

def ending : Option String → Render Unit
  | some reason => throw (.interrupted reason)
  | none => pure ()

mutual

def Use.run : Use → Render Unit
  | .step s => s.run >>= fun _ => pure ()
  | .block body reason => Emitter.block (perform body >>= fun _ => ending reason)
  | .caught body => fun e => (.ok (), (perform body e).2)

def perform : List Use → Render Unit
  | [] => pure ()
  | use :: rest => use.run >>= fun _ => perform rest

end

mutual

def Use.calls : Use → Emitter → List Call
  | .step s, _ => s.calls
  | .block body _, e => .enter :: callsOf body { e with level := e.level + 1 } ++ [.exit]
  | .caught body, e => callsOf body e

def callsOf : List Use → Emitter → List Call
  | [], _ => []
  | use :: rest, e =>
    use.calls e ++ match use.run e with
      | (.ok _, after) => callsOf rest after
      | (.error _, _) => []

end

def Step.Neutral : Step → Prop
  | emit _ | enterBlock | exitBlock => False
  | visit _ | expression _ | write _ | indentLine | newline | interruptedBlock _ => True

mutual

/-- Uses that are meant to leave the level alone: neutral steps, and blocks and caught parts of
neutral uses only. -/
def Use.Neutral : Use → Prop
  | .step s => s.Neutral
  | .block body _ => AllNeutral body
  | .caught body => AllNeutral body

def AllNeutral : List Use → Prop
  | [] => True
  | use :: rest => use.Neutral ∧ AllNeutral rest

end

private theorem silently_snd (m : Render Unit) (e : Emitter) : (silently m e).2 = (m e).2 := by
  rw [silently, bind_apply]
  rcases m e with ⟨r, after⟩
  cases r <;> rfl

theorem emit_frame (t : Tree) (e : Emitter) :
    (Emitter.emit t e).2.level = 0 ∧ (Emitter.emit t e).2.terminator = e.terminator := by
  obtain ⟨events, outcome, hscript⟩ := emit_script t e.terminator
  rw [hscript e rfl, playTo_snd]
  exact play_frame events { e with level := 0 }

/-- The level after a step is the one that its calls make of the level before. -/
theorem step_frame (s : Step) (e : Emitter) :
    (s.run e).2.level = s.calls.foldl Call.apply e.level ∧
      (s.run e).2.terminator = e.terminator := by
  cases s with
  | emit t =>
    rw [Step.run, silently_snd]
    exact emit_frame t e
  | visit t =>
    rw [Step.run, silently_snd]
    exact (Scripted.visit t).frame e
  | expression t =>
    rw [Step.run, map_eq_pure_bind]
    exact ((Scripted.expression t).bind fun _ => Scripted.pure _).frame e
  | write fragment =>
    rw [Step.run, silently_snd]
    exact (Scripted.write fragment).frame e
  | indentLine =>
    rw [Step.run, silently_snd]
    exact Scripted.indentLine.frame e
  | newline =>
    rw [Step.run, silently_snd]
    exact Scripted.newline.frame e
  | enterBlock => exact ⟨rfl, rfl⟩
  | exitBlock => exact ⟨rfl, rfl⟩
  | interruptedBlock reason =>
    have hbody : Scripted (Emitter.block (Emitter.indentLine >>= fun _ =>
        throw (.interrupted reason) : Render (Option Tree))) :=
      (Scripted.indentLine.bind fun _ => Scripted.throw _).block
    obtain ⟨hlevel, hterminator⟩ := hbody.frame e
    simp only [Step.calls, List.foldl_cons, List.foldl_nil, Call.apply]
    refine ⟨?_, hterminator⟩
    rw [Step.run, hlevel]
    omega

/-- What an emitter is left as by a body and the end of a block. -/
private theorem ending_snd (m : Render Unit) (reason : Option String) (e : Emitter) :
    ((m >>= fun _ => ending reason) e).2 = (m e).2 := by
  rw [bind_apply]
  rcases m e with ⟨r, after⟩
  cases r with
  | error fault => rfl
  | ok _ => cases reason <;> rfl

mutual

/-- The level after a use is the one that its calls make of the level before. -/
theorem use_frame : ∀ (use : Use) (e : Emitter),
    (use.run e).2.level = (use.calls e).foldl Call.apply e.level ∧
      (use.run e).2.terminator = e.terminator
  | .step s, e => by
    have hrun : (Use.run (.step s) e).2 = (s.run e).2 := by
      rw [Use.run, bind_apply]
      rcases s.run e with ⟨r, after⟩
      cases r <;> rfl
    rw [hrun]
    exact step_frame s e
  | .block body reason, e => by
    obtain ⟨hlevel, hterminator⟩ := perform_frame body { e with level := e.level + 1 }
    have hrun := ending_snd (perform body) reason { e with level := e.level + 1 }
    constructor
    · change ((perform body >>= fun _ => ending reason)
        { e with level := e.level + 1 }).2.level - 1 = _
      rw [hrun, hlevel, Use.calls]
      simp only [List.foldl_append, List.foldl_cons, List.foldl_nil, Call.apply]
    · change ((perform body >>= fun _ => ending reason)
        { e with level := e.level + 1 }).2.terminator = _
      rw [hrun, hterminator]
  | .caught body, e => perform_frame body e

theorem perform_frame : ∀ (uses : List Use) (e : Emitter),
    (perform uses e).2.level = (callsOf uses e).foldl Call.apply e.level ∧
      (perform uses e).2.terminator = e.terminator
  | [], _ => ⟨rfl, rfl⟩
  | use :: rest, e => by
    obtain ⟨hlevel, hterminator⟩ := use_frame use e
    rw [perform, callsOf, bind_apply, List.foldl_append, ← hlevel, ← hterminator]
    rcases use.run e with ⟨r, after⟩
    cases r with
    | error fault => exact ⟨rfl, rfl⟩
    | ok _ => exact perform_frame rest after

end

private theorem neutral_step (s : Step) (h : s.Neutral) (level : Int) :
    s.calls.foldl Call.apply level = level := by
  cases s with
  | emit | enterBlock | exitBlock => exact h.elim
  | visit | expression | write | indentLine | newline => rfl
  | interruptedBlock reason =>
    simp only [Step.calls, List.foldl_cons, List.foldl_nil, Call.apply]
    omega

mutual

/-- The calls of neutral uses cancel out. -/
theorem neutral_use : ∀ (use : Use), use.Neutral → ∀ (e : Emitter) (level : Int),
    (use.calls e).foldl Call.apply level = level
  | .step s, h, _, level => neutral_step s h level
  | .block body reason, h, e, level => by
    have hbody := neutral_uses body h { e with level := e.level + 1 } (level + 1)
    simp only [Use.calls, List.foldl_append, List.foldl_cons, List.foldl_nil, Call.apply, hbody]
    omega
  | .caught body, h, e, level => neutral_uses body h e level

theorem neutral_uses : ∀ (uses : List Use), AllNeutral uses → ∀ (e : Emitter) (level : Int),
    (callsOf uses e).foldl Call.apply level = level
  | [], _, _, _ => rfl
  | use :: rest, h, e, level => by
    rw [callsOf, List.foldl_append, neutral_use use h.1 e level]
    split
    · exact neutral_uses rest h.2 _ level
    · rfl

end

def SparedBetween (before after : Sink) : Prop :=
  ∀ n, before.failAt = some n → n < before.attempts ∨ after.attempts ≤ n

def afresh (e : Emitter) : Emitter :=
  { e with sink := { e.sink with written := #[] }, notices := [] }

theorem step_eq (e : Emitter) (s : Step) :
    step e s =
      (⟨(s.run (afresh e)).2.sink.text, (s.run (afresh e)).2.level, (s.run (afresh e)).2.notices,
        (s.run (afresh e)).1⟩, (s.run (afresh e)).2) := rfl

/-- The events and the outcome of an emission of `t` by every emitter of one terminator. -/
def EmitScript (t : Tree) (terminator : String) (events : List Event)
    (outcome : Except Fault Unit) : Prop :=
  ∀ e : Emitter, e.terminator = terminator →
    Emitter.emit t e = playTo outcome events { e with level := 0 }

variable {t : Tree} {e : Emitter} {events : List Event} {outcome : Except Fault Unit}

private theorem spares_of_sparedBetween (hscript : EmitScript t e.terminator events outcome)
    (h : SparedBetween e.sink (step e (.emit t)).2.sink) :
    Spares e.sink (fragments events).length := by
  intro n hfail
  by_contra hmiss
  have hrefused := (play_refused events { afresh e with level := 0 } hfail
    (show e.sink.attempts ≤ n by omega)
    (show n < e.sink.attempts + (fragments events).length by omega)).2
  have hafter : (step e (.emit t)).2.sink.attempts = n + 1 := by
    rw [step_eq, Step.run, silently_snd, hscript (afresh e) rfl, playTo_snd, hrefused]
  have hspared := h n hfail
  omega

private theorem emit_answer (hscript : EmitScript t e.terminator events outcome)
    (h : Spares e.sink (fragments events).length) :
    (step e (.emit t)).1 =
      ⟨(taken {} (fragments events)).text, 0, notices events, outcome.map fun _ => none⟩ := by
  have hplay := play_spared events { afresh e with level := 0 } h
  have hemit := hscript (afresh e) rfl
  rw [playTo, hplay] at hemit
  have hrun : (Step.emit t).run (afresh e) = (outcome.map fun _ => none, { afresh e with
      level := 0, sink := taken (afresh e).sink (fragments events),
      notices := notices events }) := by
    rw [Step.run, silently, bind_apply, hemit]
    cases outcome <;> rfl
  rw [step_eq, hrun]
  rfl

/-- Any run of uses of a fresh emitter, whatever write its sink refuses, ends at the level that the
caller's own calls make since the last emission. Neutral uses leave the level of every emitter as it
is and an emission leaves zero, whatever they end in. A later emission in which no write is refused
answers as on a fresh emitter: the same text, level, notices and outcome. -/
theorem level_and_history (terminator : String) (failAt : Option Nat) (uses : List Use) :
    let start : Emitter := { terminator, sink := { failAt } }
    let reached := (perform uses start).2
    reached.level = depth (callsOf uses start) ∧
      (∀ (use : Use) (e : Emitter), use.Neutral → (use.run e).2.level = e.level) ∧
      (∀ (t : Tree) (e : Emitter), (Emitter.emit t e).2.level = 0) ∧
      ∀ t : Tree, SparedBetween reached.sink (step reached (.emit t)).2.sink →
        (step reached (.emit t)).1 = (step { terminator } (.emit t)).1 := by
  intro start reached
  refine ⟨?_, ?_, fun t e => (emit_frame t e).1, ?_⟩
  · rw [← foldl_apply]
    exact (perform_frame uses start).1
  · intro use e h
    rw [(use_frame use e).1, neutral_use use h e]
  · intro t h
    have hterminator : reached.terminator = terminator := (perform_frame uses start).2
    obtain ⟨events, outcome, hscript⟩ := emit_script t terminator
    have hreached : EmitScript t reached.terminator events outcome := by
      rw [hterminator]
      exact hscript
    have hfresh : EmitScript t ({ terminator } : Emitter).terminator events outcome := hscript
    have hnone : Spares ({ terminator } : Emitter).sink (fragments events).length := by
      intro n hn
      cases hn
    rw [emit_answer hreached (spares_of_sparedBetween hreached h), emit_answer hfresh hnone]

end JavaRender.Session
