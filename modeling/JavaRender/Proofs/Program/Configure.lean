import JavaRender.Proofs.CommandLine.Choice
import JavaRender.Proofs.Program.Loaded

/-!
The settings of a build command, whatever the settings were before. They are reset, then come those
of a configuration file and over them the arguments; main statement: each setting is that of the
arguments, else that of the file, else the default, and depends on no other one.
-/
namespace JavaRender.Program

open CommandLine Settings

/-- Changes settings with a look at files; a fault leaves the changes made before it. -/
abbrev Configuring (m : Type → Type) := ExceptT SettingsError (StateT Settings m)

section Configure

variable {m : Type → Type} [Monad m] [Files m]

def takeFile (r : BuildRequest) : Configuring m Unit :=
  match r.config with
  | none => pure ()
  | some .nothing => throw .unnamedFile
  | some (.value path) => fun s => Settings.load (Path.ofString path) s

def takeNewline (r : BuildRequest) : Configuring m Unit :=
  match r.newline with
  | none => pure ()
  | some .nothing => throw (.notKey "list")
  | some (.value name) => do
    let s ← get
    match s.setNewline name with
    | .ok s => set s
    | .error e => throw e

def takeArguments (r : BuildRequest) : Configuring m Unit := do
  if let some source := r.source then
    modify fun s => { s with source := Path.ofString source }
  if let some out := r.out then
    modify fun s => { s with output := some (outputOf out) }
  takeNewline r

def configure (r : BuildRequest) : Configuring m Unit := do
  set Settings.default
  modify fun s => { s with verbose := r.verbose }
  takeFile r
  takeArguments r

/-- A configuration file over the defaults is what a run has before the arguments. -/
theorem takeFile_default (r : BuildRequest) :
    (takeFile r : Configuring m Unit) { Settings.default with verbose := r.verbose } =
      configured r := by
  unfold takeFile configured
  cases r.config with
  | none => rfl
  | some given => cases given <;> rfl

end Configure

section Runs

variable {r : BuildRequest} {store : Store}

def withPlaces (r : BuildRequest) (s : Settings) : Settings :=
  { s with
    source := (r.source.map Path.ofString).getD s.source
    output := (r.out.map outputOf).or s.output }

def newlineTaken (r : BuildRequest) (s : Settings) : Except SettingsError Unit × Settings :=
  match r.newline with
  | none => (.ok (), s)
  | some .nothing => (.error (.notKey "list"), s)
  | some (.value name) =>
    match s.setNewline name with
    | .ok s => (.ok (), s)
    | .error e => (.error e, s)

theorem takeNewline_apply (r : BuildRequest) (s : Settings) (store : Store) :
    (takeNewline r : Configuring (StateM Store) Unit) s store = (newlineTaken r s, store) := by
  unfold takeNewline newlineTaken
  cases r.newline with
  | none => rfl
  | some given =>
    cases given with
    | nothing => rfl
    | value name =>
      change ((match s.setNewline name with
        | .ok s => set s
        | .error e => throw e) : Configuring (StateM Store) Unit) s store = _
      dsimp only
      cases s.setNewline name <;> rfl

theorem takeArguments_apply (r : BuildRequest) (s : Settings) (store : Store) :
    (takeArguments r : Configuring (StateM Store) Unit) s store =
      (newlineTaken r (withPlaces r s), store) := by
  rw [← takeNewline_apply]
  unfold takeArguments withPlaces
  cases r.source <;> cases r.out <;> rfl

/-- A command starts from the defaults, and its arguments come behind its configuration file. -/
theorem configure_apply (r : BuildRequest) (prior : Settings) (store : Store) :
    (configure r : Configuring (StateM Store) Unit) prior store =
      (match configuration r store with
        | (.error e, s) => (.error e, s)
        | (.ok _, s) => newlineTaken r (withPlaces r s), store) := by
  change ((takeFile r >>= fun _ => takeArguments r : Configuring (StateM Store) Unit)
    { Settings.default with verbose := r.verbose }) store = _
  rw [Build.bind_apply, takeFile_default, configured_apply]
  rcases configuration r store with ⟨e | _, s⟩
  · rfl
  · exact takeArguments_apply r s store

theorem override_eq (r : BuildRequest) (s : Settings) :
    override r s = (newlineTaken r (withPlaces r s)).1.map fun _ =>
      (newlineTaken r (withPlaces r s)).2 := by
  unfold override newlineTaken
  rw [← withPlaces]
  cases r.newline with
  | none => rfl
  | some given =>
    cases given with
    | nothing => rfl
    | value name =>
      dsimp only
      cases (withPlaces r s).setNewline name <;> rfl

/-- A build command makes its settings, whatever the settings were, and builds with them if there
is nothing wrong with them. -/
theorem runBuild_configure (stack : Stack) (r : BuildRequest) (prior : Settings) (store : Store) :
    (runBuild stack r : StateM Store _) store =
      match (configure r : Configuring (StateM Store) Unit) prior store with
      | ((.error e, s), store) =>
        (conclude ⟨.root, store.here⟩ r.verbose [] (ending (configPath r) s.source
          (.error (.settings e))), store)
      | ((.ok _, s), store) =>
        let built := (build stack s : Logged (StateM Store) Path) [] store
        (conclude ⟨.root, store.here⟩ r.verbose built.1.2
          (ending (configPath r) s.source built.1.1), built.2) := by
  rw [runBuild_apply, configure_apply, settled]
  rcases configuration r store with ⟨e | _, s⟩
  · rfl
  · simp only [Except.bind, override_eq]
    rcases newlineTaken r (withPlaces r s) with ⟨e | _, s'⟩
    · -- the settings that a fault leaves are not shown, not even their source
      simp only [Except.map]
      rw [ending_settings _ _ s'.source]
    · rfl

end Runs

section Layers

structure FileSettings where
  directory : Path
  source : Option String
  output : Option String
  newline : Option Newline

def FileSettings.placed (f : FileSettings) (text : String) : Path :=
  f.directory.join (Path.ofString text)

structure Lists (members : Toml.Table) (f : FileSettings) : Prop where
  source : members.lookup "source" = f.source.map .text
  output : members.lookup "output" = f.output.map .text
  newline : members.lookup "newline" = f.newline.map fun n => .text n.name

/-- What the configuration file of a request gives. It gives nothing if there is none, and else it
is of version one with paths that are texts and a newline style that is known. -/
inductive FileGives (r : BuildRequest) (store : Store) : FileSettings → Prop
  | without (directory : Path) : r.config = none → FileGives r store ⟨directory, none, none, none⟩
  | file {f : FileSettings} {path : Path} {data members : Toml.Table} : Asked r path →
      f.directory = path.parent → VersionOne store path data → buildOf data = .table members →
      Lists members f → FileGives r store f

def styleOf (r : BuildRequest) : Option Newline :=
  (r.newline.bind Given.value?).bind Newline.ofName?

def effective (r : BuildRequest) (f : FileSettings) : Settings where
  source := ((r.source.map Path.ofString).or (f.source.map f.placed)).getD
    (Path.ofString "main.ast.json")
  output := (r.out.map outputOf).or (f.output.map fun text => .file (f.placed text))
  terminator := (((styleOf r).or f.newline).getD .platform).terminator
  verbose := r.verbose

variable {r : BuildRequest} {store : Store} {f : FileSettings}

def withFile (f : FileSettings) (s : Settings) : Settings :=
  { s with
    source := (f.source.map f.placed).getD s.source
    output := (f.output.map fun text => .file (f.placed text)).or s.output
    terminator := (f.newline.map Newline.terminator).getD s.terminator }

def underFile (r : BuildRequest) (f : FileSettings) : Settings :=
  withFile f { Settings.default with verbose := r.verbose }

theorem applyBuild_lists {data members : Toml.Table} (hbuild : buildOf data = .table members)
    (h : Lists members f) (s : Settings) :
    (applyBuild data f.directory).run s = (.ok (), withFile f s) := by
  have hstyle (n : Newline) : terminatorOf (.text n.name) = .ok n.terminator := by
    rw [terminatorOf, Newline.ofName?_name]
  have hpath (text : String) : pathFrom f.directory (.text text) = .ok (f.placed text) := rfl
  rw [applyBuild_eq, hbuild, taking_table h.source hpath, taking_table h.output hpath,
    taking_table h.newline hstyle, withFile]
  cases f.source <;> cases f.output <;> cases f.newline <;> rfl

/-- A configuration file is taken over the defaults. -/
theorem configuration_of_gives (h : FileGives r store f) :
    configuration r store = (.ok (), underFile r f) := by
  unfold configuration
  cases h with
  | without _ hnone =>
    rw [hnone]
    rfl
  | @file f path data members hasked hdirectory hdata hbuild hlists =>
    obtain ⟨text, htext, rfl⟩ := hasked
    rw [htext]
    dsimp only
    rw [hdata.loadedFrom, ← hdirectory, applyBuild_lists hbuild hlists, underFile]

/-- The newline style of a command line is known if it is given with a value. -/
theorem style_of_read {args : List String} {name : String}
    (h : CommandLine.read args = .ok (.build r)) (hname : r.newline = some (.value name)) :
    ∃ n : Newline, name = n.name ∧ styleOf r = some n := by
  obtain ⟨n, hn⟩ := newline_of_read h hname
  refine ⟨n, ofName?_eq_some.mp hn, ?_⟩
  rw [styleOf, hname]
  exact hn

theorem newlineTaken_of_read {args : List String} (h : CommandLine.read args = .ok (.build r))
    (s : Settings) :
    newlineTaken r s =
      (if r.newline = some .nothing then .error (.notKey "list") else .ok (),
        { s with terminator := ((styleOf r).map Newline.terminator).getD s.terminator }) := by
  unfold newlineTaken
  cases hnewline : r.newline with
  | none =>
    rw [styleOf, hnewline]
    rfl
  | some given =>
    cases given with
    | nothing =>
      rw [styleOf, hnewline]
      rfl
    | value name =>
      obtain ⟨n, rfl, hstyle⟩ := style_of_read h hnewline
      rw [hstyle]
      simp only [setNewline, Newline.ofName?_name]
      rfl

/-- Arguments over a file over the defaults. -/
theorem effective_eq (r : BuildRequest) (f : FileSettings) :
    { withPlaces r (underFile r f) with
      terminator := ((styleOf r).map Newline.terminator).getD (underFile r f).terminator } =
      effective r f := by
  have hsource : Settings.default.source = Path.ofString "main.ast.json" := by decide
  unfold withPlaces underFile withFile effective
  dsimp only
  rw [hsource]
  cases r.source <;> cases f.source <;> cases r.out <;> cases f.output <;> cases styleOf r <;>
    cases f.newline <;> rfl

/-- Without an output the result goes beside a source that has a name. -/
theorem effectiveOutput?_eq (s : Settings) :
    s.effectiveOutput? = s.output.or
      (s.source.name?.map fun _ => .file (s.source.parent.join (Path.ofString "Main.java"))) := by
  have hjoin : s.source.parent.join (Path.ofString "Main.java") =
      ⟨s.source.anchor, s.source.names.dropLast ++ ["Main.java"]⟩ := by
    rw [show Path.ofString "Main.java" = ⟨.here, ["Main.java"]⟩ by decide]
    rfl
  rw [effectiveOutput?, hjoin, Path.withName?, Path.name?]
  cases hnames : s.source.names with
  | nil => rfl
  | cons name rest => rfl

/-- Whatever the settings were before, those of a build command are the ones of its arguments over
those of its configuration file over the defaults, each on its own, and a run comes to the same.
Only a newline style without a value makes it fail, and any other one is known. Without an output
the result goes beside the source. -/
theorem configure_effective {args : List String} (hread : CommandLine.read args = .ok (.build r))
    (hfile : FileGives r store f) (prior : Settings) :
    let outcome : Except SettingsError Unit :=
      if r.newline = some .nothing then .error (.notKey "list") else .ok ()
    (configure r : Configuring (StateM Store) Unit) prior store =
        ((outcome, effective r f), store) ∧
      (∃ c, (configured r : StateM Store _) store = ((.ok (), c), store) ∧
        override r c = outcome.map fun _ => effective r f) ∧
      (∀ name, r.newline = some (.value name) →
        ∃ n : Newline, name = n.name ∧ styleOf r = some n) ∧
      (effective r f).effectiveOutput? = (effective r f).output.or
        ((effective r f).source.name?.map fun _ =>
          .file ((effective r f).source.parent.join (Path.ofString "Main.java"))) := by
  intro outcome
  have htaken : newlineTaken r (withPlaces r (underFile r f)) = (outcome, effective r f) := by
    rw [newlineTaken_of_read hread, ← effective_eq]
    rfl
  refine ⟨?_, ⟨underFile r f, ?_, ?_⟩, fun _ hname => style_of_read hread hname,
    effectiveOutput?_eq _⟩
  · rw [configure_apply, configuration_of_gives hfile]
    dsimp only
    rw [htaken]
  · rw [configured_apply, configuration_of_gives hfile]
  · rw [override_eq, htaken]

def fileText : String := "[system]\nversion = 1\n[build]\nsource = \"a.json\"\nnewline = \"lf\"\n"

def fileInDirectory : Store :=
  ⟨[(["conf"], .directory), (["conf", "plc2java.toml"], .file (Utf8.encode fileText.toList))], []⟩

def fileAndStyle : BuildRequest where
  verbose := true
  config := some (.value "conf/plc2java.toml")
  newline := some (.value "crlf")

/-- The source is that of the file and the newline style that of the arguments, and nothing is left
of earlier settings. -/
theorem effective_of_fileAndStyle :
    let s : Settings := ⟨Path.ofString "conf/a.json", none, "\r\n", true⟩
    (configure fileAndStyle : Configuring (StateM Store) Unit)
          ⟨Path.ofString "b.json", some .nowhere, "", false⟩ fileInDirectory =
        ((.ok (), s), fileInDirectory) ∧
      s.effectiveOutput? = some (.file (Path.ofString "conf/Main.java")) := by
  intro s
  have hread : CommandLine.read ["build", "-v", "-c", "conf/plc2java.toml", "--newline=crlf"] =
      .ok (.build fileAndStyle) := by
    decide +kernel
  have hdecode : Utf8.decodeMarked (Utf8.encode fileText.toList) = .ok fileText.toList := by
    decide +kernel
  have hdata : VersionOne fileInDirectory (Path.ofString "conf/plc2java.toml")
      [("system", .table [("version", .whole 1)]),
        ("build", .table [("source", .text "a.json"), ("newline", .text "lf")])] :=
    .intro (v := .whole 1) rfl hdecode rfl ⟨_, rfl, rfl⟩ (by decide +kernel)
  have hfile : FileGives fileAndStyle fileInDirectory
      ⟨Path.ofString "conf", some "a.json", none, some .lf⟩ :=
    .file ⟨_, rfl, rfl⟩ (by decide) hdata rfl ⟨rfl, rfl, rfl⟩
  obtain ⟨hrun, -, -, hbeside⟩ :=
    configure_effective hread hfile ⟨Path.ofString "b.json", some .nowhere, "", false⟩
  have heffective :
      effective fileAndStyle ⟨Path.ofString "conf", some "a.json", none, some .lf⟩ = s := by
    decide
  rw [heffective] at hrun hbeside
  exact ⟨hrun, hbeside.trans (by decide)⟩

end Layers

end JavaRender.Program
