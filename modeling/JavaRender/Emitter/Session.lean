import JavaRender.Emitter.Program

/-!
A session with one emitter. Its steps are the emitter's own operations; each gives an answer on its
own, and a step that fails leaves an emitter that goes on. The sink counts its writes through all of
them.
-/
namespace JavaRender.Session

inductive Step where
  | emit (t : Tree)
  | visit (t : Tree)
  | expression (t : Tree)
  | write (fragment : String)
  | indentLine
  | newline
  | enterBlock
  | exitBlock
  /-- A block whose body indents a line and is then interrupted. -/
  | interruptedBlock (reason : String)

def silently (action : Render Unit) : Render (Option Tree) := do
  action
  pure none

def Step.run : Step → Render (Option Tree)
  | emit t => silently (Emitter.emit t)
  | visit t => silently (Emitter.visit t)
  | expression t => some <$> Emitter.noting (Expression.render t)
  | write fragment => silently (Emitter.write fragment)
  | indentLine => silently Emitter.indentLine
  | newline => silently Emitter.newline
  | enterBlock => silently Emitter.enterBlock
  | exitBlock => silently Emitter.exitBlock
  | interruptedBlock reason =>
    Emitter.block do
      Emitter.indentLine
      throw (.interrupted reason)

/-- What one step showed: the text that reached the sink, the level after it, the notices and how it
ended. -/
structure Answer where
  out : String
  level : Int
  notices : List Notice
  outcome : Except Tree.Fault (Option Tree)

def step (e : Emitter) (s : Step) : Answer × Emitter :=
  let fresh := { e with sink := { e.sink with written := #[] }, notices := [] }
  let (outcome, after) := s.run.run fresh
  (⟨after.sink.text, after.level, after.notices, outcome⟩, after)

def run (e : Emitter) : List Step → List Answer
  | [] => []
  | s :: rest =>
    let (answer, after) := step e s
    answer :: run after rest

end JavaRender.Session
