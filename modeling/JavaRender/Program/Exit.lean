import JavaRender.Files.Basic
import JavaRender.Log.Record

/-!
How a run ends. Each ending has a status and leaves its message in the log; all but success add a
line with the status. A fault of the user may name the file at fault, seen from the root.
-/
namespace JavaRender

inductive Blame where
  | unnamed
  | unknown
  | file (path : Path)
deriving DecidableEq, Repr

inductive Exit where
  | success (message : String)
  | userError (message : String) (blame : Blame)
  | systemError (message : String) (critical : Bool)
  | internalError (message : String) (critical : Bool)
deriving DecidableEq, Repr

namespace Exit

def status : Exit → Nat
  | success _ => 0
  | userError _ _ => 1
  | systemError _ _ => 2
  | internalError _ _ => 3

def blameText (here : Path) : Blame → Except FileError String
  | .unnamed => .ok ""
  | .unknown => .ok "\nFile: unknown"
  | .file path =>
    if path.hasNul then .error .nul
    else .ok ("\nFile: " ++ (Path.resolve here path).text)

def severity (critical : Bool) : Log.Level := if critical then Log.critical else Log.error

def failed (level : Log.Level) (message : String) (status : Nat) : List Log.Record :=
  [⟨level, message, []⟩, ⟨Log.error, "Exit code: " ++ toString status, []⟩]

/-- What an ending leaves in the log. Success without a message leaves nothing. -/
def records (here : Path) (e : Exit) : Except FileError (List Log.Record) :=
  match e with
  | success message => .ok (if message.isEmpty then [] else [⟨Log.info, message, []⟩])
  | userError message blame => do
    let place ← blameText here blame
    .ok (failed Log.error (message ++ place) e.status)
  | systemError message critical => .ok (failed (severity critical) message e.status)
  | internalError message critical => .ok (failed (severity critical) message e.status)

end Exit

end JavaRender
