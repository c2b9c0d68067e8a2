import JavaRender.Emitter.Program
import JavaRender.Node.Document
import JavaRender.Settings.Newline

/-!
From the text of a document to Java. Compiling fails in two ways: the document is refused, or its
tree is malformed.
-/
namespace JavaRender

inductive CompileError where
  | load (e : Document.LoadError)
  | tree (fault : Tree.Fault)
deriving DecidableEq, Repr

def render (node : Node) (terminator : String) : Except Tree.Fault String × List Notice :=
  Emitter.generate node.toTree terminator

def compile (text : String) (terminator : String) : Except CompileError String := do
  let node ← (Document.load text.toList).mapError .load
  (render node terminator).1.mapError .tree

end JavaRender
