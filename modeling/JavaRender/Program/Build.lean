import JavaRender.Compile
import JavaRender.Log.Record
import JavaRender.Settings.Load

/-!
Building the result of a source file. The document is loaded and rendered in full before anything is
written, so a fault in it leaves no result; directories towards the result are made where they are
missing. Only then is the text encoded, for a file that has been opened and so emptied.
-/
namespace JavaRender

/-- What the stack of a run suffices for. Loading and rendering descend into what they work on. -/
structure Stack where
  loads : Json → Bool
  renders : Node → Bool

def Stack.ample : Stack := ⟨fun _ => true, fun _ => true⟩

inductive Failure where
  | settings (e : SettingsError)
  | load (e : Document.LoadError)
  | tree (fault : Tree.Fault)
  | file (e : FileError)
  | noName (path : Path)
  /-- The result should go nowhere. -/
  | noPlace
  /-- The stack is used up. -/
  | tooDeep
  | notEncodable (e : Utf8.EncodeError)
deriving DecidableEq, Repr

namespace Failure

def message : Failure → String
  | settings e => e.message
  | load e => e.message
  | tree fault => fault.message
  | file e => e.message
  | noName path => path.emptyNameMessage
  | noPlace => "'list' object has no attribute 'parent'"
  | tooDeep => "maximum recursion depth exceeded"
  | notEncodable e => e.text

end Failure

/-- A part of a run that keeps a log, which outlives a failure. -/
abbrev Logged (m : Type → Type) := ExceptT Failure (StateT (List Log.Record) m)

namespace Build

variable {m : Type → Type} [Monad m]

def log (records : List Log.Record) : Logged m Unit := modify (· ++ records)

def inStep {α : Type} (title : String) (body : Logged m α) : Logged m α := fun records => do
  let (outcome, inside) ← body.run.run []
  pure (outcome, records ++ Log.step title Binary64.zero Log.noticeable inside)

def filing {α : Type} (operation : m (Except FileError α)) : Logged m α := do
  match ← (operation : m (Except FileError α)) with
  | .ok a => pure a
  | .error e => throw (.file e)

/-- The tree of a document in its two readings, with the replacement for halves of surrogate pairs
and with a character of their own. -/
structure Source where
  replaced : Node
  owned : Node

def loadText (stack : Stack) (text : List Char) : Except Failure Source := do
  let v ← (Document.parse text).mapError .load
  if stack.loads v then do
    let replaced ← (Document.sourceOf v).mapError .load
    .ok ⟨replaced, (Document.load text .own).toOption.getD replaced⟩
  else .error .tooDeep

def renderText (stack : Stack) (source : Source) (terminator : String) :
    Except Failure (List Point) × List Notice :=
  if stack.renders source.replaced then
    let (outcome, notices) := render source.replaced terminator
    let points := fun (code : String) =>
      let owned := (render source.owned terminator).1.toOption.getD code
      Point.ofReadings code.toList owned.toList
    ((outcome.map points).mapError .tree, notices)
  else (.error .tooDeep, [])

def compileText (stack : Stack) (text : String) (terminator : String) :
    Except Failure (List Point) := do
  let source ← loadText stack text.toList
  (renderText stack source terminator).1

def sizeText (source : Node) : String :=
  let (fieldCount, methodCount) := match source with
    | .source fields methods => (fields.length, methods.length)
    | _ => (0, 0)
  "Fields : " ++ toString fieldCount ++ "\nMethods: " ++ toString methodCount

def renderLogged (stack : Stack) (source : Source) (terminator : String) :
    Logged m (List Point) := do
  let (outcome, notices) := renderText stack source terminator
  log (notices.map fun n => ⟨Log.debug, n.message, []⟩)
  liftM outcome

def outputOf (s : Settings) : Except Failure Output :=
  match s.effectiveOutput? with
  | some out => .ok out
  | none => .error (.noName s.source)

variable [Files m]

def loadSource (stack : Stack) (path : Path) : Logged m Source := do
  let bytes ← filing (Files.read path)
  let text ← liftM ((Document.textOf bytes).mapError Failure.load)
  liftM (loadText stack text)

def writeResult (out : Output) (text : List Point) : Logged m Path := do
  match out with
  | .nowhere => throw .noPlace
  | .file path => do
    filing (Files.ensureDirectories path.parent)
    let encoded := Utf8.encodePoints text
    -- the file is opened first, so nothing is in it if the text cannot be encoded
    filing (Files.write path (encoded.toOption.getD []))
    match encoded with
    | .ok _ => pure path
    | .error e => throw (.notEncodable e)

def run (stack : Stack) (s : Settings) : Logged m Path := do
  let out ← outputOf s
  let source ← inStep ("Loading AST: " ++ s.source.text) (loadSource stack s.source)
  log [⟨Log.debug, sizeText source.replaced, []⟩]
  let text ← inStep "Generating Java" (renderLogged stack source s.terminator)
  inStep ("Writing " ++ out.text) (writeResult out text)

end Build

end JavaRender
