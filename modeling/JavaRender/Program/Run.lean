import JavaRender.CommandLine.Request
import JavaRender.Program.Build
import JavaRender.Program.Exit

/-!
A run of the program from its arguments to its ending. The settings are the defaults, then those of
a configuration file, then the arguments. Failures that the user can mend, those of the system and
those of the program end the run with different statuses; any other failure escapes.
-/
namespace JavaRender

inductive Ending where
  | exited (status : Nat)
  | escaped (failure : Failure)
deriving DecidableEq, Repr

structure Outcome where
  ending : Ending
  output : String
  errors : String
deriving DecidableEq, Repr

namespace Program

open CommandLine

variable {m : Type → Type} [Monad m] [Files m]

def configured (r : BuildRequest) : m (Except SettingsError Unit × Settings) := do
  let start := { Settings.default with verbose := r.verbose }
  match r.config with
  | none => pure (.ok (), start)
  | some .nothing => pure (.error .unnamedFile, start)
  | some (.value path) => Settings.load (Path.ofString path) start

def outputOf : Given → Output
  | .value path => .file (Path.ofString path)
  | .nothing => .nowhere

def override (r : BuildRequest) (s : Settings) : Except SettingsError Settings :=
  let s := { s with
    source := (r.source.map Path.ofString).getD s.source
    output := (r.out.map outputOf).or s.output }
  match r.newline with
  | none => .ok s
  | some .nothing => .error (.notKey "list")
  | some (.value name) => s.setNewline name

def settingsText (s : Settings) (out : Output) : String :=
  "plc2java\nVersion : " ++ Settings.version ++ "\nSource  : " ++ s.source.text ++
    "\nOutput  : " ++ out.text ++ "\nNewline : " ++ Quoted.text s.terminator

def ending (config : Option Path) (source : Path) : Except Failure Path → Except Failure Exit
  | .ok out => .ok (.success ("Build finished: " ++ out.text))
  | .error failure =>
    let blame := fun
      | some path => Blame.file path
      | none => Blame.unknown
    match failure with
    | .settings (.missingFile _) | .settings (.invalid _ _) | .settings (.noSystem _)
    | .settings (.noVersion _) | .settings (.unknownVersion _ _)
    | .settings (.unknownNewline _) => .ok (.userError failure.message (blame config))
    | .load (.refused _) => .ok (.userError failure.message (blame source))
    | .settings (.file (.system .missing path)) | .file (.system .missing path) =>
      .ok (.userError ("File not found: " ++ path.text) .unnamed)
    | .settings (.file (.system _ _)) | .file (.system _ _) =>
      .ok (.systemError failure.message false)
    | .tree (.malformed _ _ _) => .ok (.internalError failure.message false)
    | _ => .error failure

def build (stack : Stack) (s : Settings) : Logged m Path := do
  let out ← Build.outputOf s
  Build.log [⟨Log.debug, settingsText s out, []⟩]
  Build.run stack s

/-- The outcome of an ending: what it leaves in the log comes behind the records so far. -/
def conclude (here : Path) (verbose : Bool) (records : List Log.Record)
    (ended : Except Failure Exit) : Outcome :=
  match ended with
  | .error failure => ⟨.escaped failure, "", Log.shown verbose records⟩
  | .ok exit =>
    match exit.records here with
    | .error e => ⟨.escaped (.file e), "", Log.shown verbose records⟩
    | .ok last => ⟨.exited exit.status, "", Log.shown verbose (records ++ last)⟩

def runBuild (stack : Stack) (r : BuildRequest) : m Outcome := do
  let here ← Files.workingDirectory
  let config := (r.config.bind Given.value?).map Path.ofString
  let (loaded, s) ← configured r
  match loaded.bind fun _ => override r s with
  | .error e => pure (conclude here r.verbose [] (ending config s.source (.error (.settings e))))
  | .ok s => do
    let (built, records) ← (build stack s).run.run []
    pure (conclude here r.verbose records (ending config s.source built))

def run (stack : Stack) (args : List String) : m Outcome := do
  match CommandLine.read args with
  | .error stop => pure ⟨.exited stop.status, stop.output, stop.errors⟩
  | .ok .version => pure ⟨.exited 0, Settings.version ++ "\n", ""⟩
  | .ok (.build r) => runBuild stack r

end Program

end JavaRender
