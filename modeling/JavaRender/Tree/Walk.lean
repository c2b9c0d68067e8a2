import JavaRender.Tree.Display

/-!
The nodes of a tree in order: each node before its parts, the receiver of a call before its
arguments. Descriptors are not entered, and a part that is no node stops the walk.
-/
namespace JavaRender.Tree

def notWalkable (t : Tree) : Fault := .noSlot t.qualifiedClassName "walk"

def unlessAbsent (t : Tree) (walked : Except Fault (List Tree)) : Except Fault (List Tree) :=
  if t.isAbsent then .ok [] else walked

def andThen (t : Tree) (parts : List (Except Fault (List Tree))) : Except Fault (List Tree) := do
  let walked ← parts.mapM id
  .ok (t :: walked.flatten)

mutual

def walk : Tree → Except Fault (List Tree)
  | t@(literal _ _) => .ok [t]
  | t@(group expression) => t.andThen [expression.walk]
  | t@(binary _ left right) => t.andThen [left.walk, right.walk]
  | t@(access _ receiver) => t.andThen [receiver.unlessAbsent receiver.walk]
  | t@(call _ arguments receiver) =>
    t.andThen [receiver.unlessAbsent receiver.walk, arguments.walkItems]
  | t@(expressionStmt expression) => t.andThen [expression.walk]
  | t@(declaration _ value) => t.andThen [value.unlessAbsent value.walk]
  | t@(assignment receiver value) => t.andThen [receiver.walk, value.walk]
  | t@(ifElse condition thenStatements elseStatements) =>
    t.andThen [condition.walk, thenStatements.walkItems, elseStatements.walkItems]
  | t@(forEach _ value statements) => t.andThen [value.walk, statements.walkItems]
  | t@(whileLoop condition statements) => t.andThen [condition.walk, statements.walkItems]
  | t@(returnStmt value) => t.andThen [value.walk]
  | t@(field _ value) => t.andThen [value.unlessAbsent value.walk]
  | t@(method _ _ statements) => t.andThen [statements.walkItems]
  | t@(source fields methods) => t.andThen [fields.walkItems, methods.walkItems]
  | t => .error t.notWalkable

/-- The nodes under the elements of a sequence. A text counts as its characters and bytes as
numbers, none of which is a node. -/
def walkItems : Tree → Except Fault (List Tree)
  | sequence _ items => walkAll items
  | t@(text s) => if s.isEmpty then .ok [] else .error t.notWalkable
  | bytes bs => if bs.isEmpty then .ok [] else .error (integer 0).notWalkable
  | t => .error (.notIterable t.qualifiedClassName)

def walkAll : List Tree → Except Fault (List Tree)
  | [] => .ok []
  | t :: rest => do
    let first ← t.walk
    let others ← walkAll rest
    .ok (first ++ others)

end

end JavaRender.Tree
