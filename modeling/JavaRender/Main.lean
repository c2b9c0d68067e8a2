import JavaRender.Program.Run

/-!
The program on the files of the system. Whether a path is there is found out by opening it, and a
directory is what can be opened as one.
-/
namespace JavaRender

def systemError : IO.Error → UInt32 × String
  | .alreadyExists _ code text => (code, text)
  | .otherError code text => (code, text)
  | .resourceBusy code text => (code, text)
  | .resourceVanished code text => (code, text)
  | .unsupportedOperation code text => (code, text)
  | .hardwareFault code text => (code, text)
  | .unsatisfiedConstraints code text => (code, text)
  | .illegalOperation code text => (code, text)
  | .protocolError code text => (code, text)
  | .timeExpired code text => (code, text)
  | .interrupted _ code text => (code, text)
  | .noFileOrDirectory _ code text => (code, text)
  | .invalidArgument _ code text => (code, text)
  | .permissionDenied _ code text => (code, text)
  | .resourceExhausted _ code text => (code, text)
  | .inappropriateType _ code text => (code, text)
  | .noSuchThing _ code text => (code, text)
  | .unexpectedEof => (0, "unexpected end of file")
  | .userError text => (0, text)

/-- Some operations give the negative of the error number. -/
def errorNumber (code : UInt32) : Nat := if code < 0x80000000 then code.toNat else (-code).toNat

def onSystem {α : Type} (p : Path) (act : IO α) : IO (Except FileError α) := do
  if p.hasNul then return .error .nul
  match ← act.toBaseIO with
  | .ok a => return .ok a
  | .error e =>
    let (code, text) := systemError e
    return .error (.system (.ofNumber (errorNumber code) text) p)

/-- Whether a text can be opened as a path; a fault of the system at `p` is one only if it is not
about what is there. -/
def opens (p : Path) (text : String) : IO (Except FileError Bool) := do
  match ← onSystem p (IO.FS.Handle.mk text .read) with
  | .ok _ => return .ok true
  | .error (.system .missing _) => return .ok false
  | .error (.system .notDirectory _) => return .ok false
  | .error .nul => return .ok false
  | .error e => return .error e

instance : Files IO where
  isThere p := opens p p.text
  isDirectory p := opens p (p.text ++ "/.")
  read p := onSystem p do return (← IO.FS.readBinFile p.text).toList
  write p bytes := onSystem p (IO.FS.writeBinFile p.text ⟨bytes.toArray⟩)
  makeDirectory p := onSystem p (IO.FS.createDir p.text)
  workingDirectory := do return Path.ofString (toString (← IO.currentDir))

end JavaRender

open JavaRender in
/-- Runs the program; a failure that escapes is shown and counts as a fault of the user. -/
def main (args : List String) : IO UInt32 := do
  let outcome : Outcome ← Program.run .ample args
  IO.print outcome.output
  IO.eprint outcome.errors
  match outcome.ending with
  | .exited status => return status.toUInt32
  | .escaped failure =>
    IO.eprintln failure.message
    return 1
