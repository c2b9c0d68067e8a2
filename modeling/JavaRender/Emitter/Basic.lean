import JavaRender.Expression.Text

/-!
The state of an emitter and its fragments. An emitter writes to one sink, which may refuse a single
write; the indentation level goes up and down with blocks and comes back also when a body fails.
-/
namespace JavaRender

/-- A place for fragments. The write number `failAt`, counted from zero, stores nothing. -/
structure Sink where
  written : Array String := #[]
  attempts : Nat := 0
  failAt : Option Nat := none
deriving Repr

def Sink.text (sink : Sink) : String := sink.written.foldl (· ++ ·) ""

def Sink.take (fragment : String) : Sink → Except Tree.Fault Unit × Sink
  | ⟨written, attempts, failAt⟩ =>
    if failAt = some attempts then (.error .sinkFull, ⟨written, attempts + 1, failAt⟩)
    else (.ok (), ⟨written.push fragment, attempts + 1, failAt⟩)

structure Emitter where
  terminator : String
  level : Int := 0
  sink : Sink := {}
  notices : List Notice := []
deriving Repr

/-- What is done with an emitter; the emitter outlives a fault. -/
abbrev Render := ExceptT Tree.Fault (StateM Emitter)

namespace Emitter

def write (fragment : String) : Render Unit := fun ⟨terminator, level, sink, notices⟩ =>
  let (outcome, sink) := Sink.take fragment sink
  (outcome, ⟨terminator, level, sink, notices⟩)

def writeValue : Tree → Render Unit
  | .text s => write s
  | t => throw (.notWritable t.qualifiedClassName)

def indentation : String := "    "

/-- The blanks in front of a line. Level zero writes nothing, and below it the blanks are none. -/
def indentLine : Render Unit := do
  let e ← get
  if e.level = 0 then pure ()
  else write (String.join (List.replicate e.level.toNat indentation))

def newline : Render Unit := do write (← get).terminator

def enterBlock : Render Unit := modify fun e => { e with level := e.level + 1 }

def exitBlock : Render Unit := modify fun e => { e with level := e.level - 1 }

/-- A body one level deeper; the level is lowered again whatever the body ends in. -/
def block {α : Type} (body : Render α) : Render α := fun e =>
  let (outcome, after) := body.run { e with level := e.level + 1 }
  (outcome, { after with level := after.level - 1 })

def noting {α : Type} (text : Noting α) : Render α := fun e =>
  let (r, notices) := text.run e.notices
  (r, { e with notices })

def line (fragment : Except Tree.Fault String) : Render Unit := do
  indentLine
  write (← fragment)

end Emitter

end JavaRender
