import JavaRender.Proofs.Build.Run
import JavaRender.Program.Run

/-!
Build commands without their logs. The settings of a command are those of its arguments, then those
of its configuration file, then the defaults, and only reading is needed to find them; main
statement: how a command ends and the files it leaves, by what a build with its settings comes to.
-/
namespace JavaRender.Program

open CommandLine

variable {stack : Stack} {r : BuildRequest} {store : Store} {c s : Settings} {source out : Path}

inductive Placed (r : BuildRequest) (c : Settings) (source : Path) : Path → Prop
  | asked {text : String} : r.out = some (.value text) → Placed r c source (Path.ofString text)
  | configured {path : Path} : r.out = none → c.output = some (.file path) → Placed r c source path
  | beside : r.out = none → c.output = none → source.names ≠ [] →
      Placed r c source ⟨source.anchor, source.names.dropLast ++ ["Main.java"]⟩

inductive Terminated (r : BuildRequest) (c : Settings) : String → Prop
  | asked {name : String} {n : Newline} : r.newline = some (.value name) →
      Newline.ofName? name = some n → Terminated r c n.terminator
  | configured : r.newline = none → Terminated r c c.terminator

/-- What a request comes to: the source, the place of the result and the ends of its lines. -/
structure Effective (r : BuildRequest) (c : Settings) (source out : Path) (terminator : String) :
    Prop where
  read : source = (r.source.map Path.ofString).getD c.source
  placed : Placed r c source out
  terminated : Terminated r c terminator

theorem override_ok (h : override r c = .ok s) :
    s.source = (r.source.map Path.ofString).getD c.source ∧
      s.output = (r.out.map outputOf).or c.output ∧ Terminated r c s.terminator := by
  unfold override at h
  cases hnewline : r.newline with
  | none =>
    rw [hnewline] at h
    cases h
    exact ⟨rfl, rfl, .configured hnewline⟩
  | some given =>
    rw [hnewline] at h
    cases given with
    | nothing => cases h
    | value name =>
      dsimp only [Settings.setNewline] at h
      cases hname : Newline.ofName? name with
      | none =>
        rw [hname] at h
        cases h
      | some n =>
        rw [hname] at h
        cases h
        exact ⟨rfl, rfl, .asked hnewline hname⟩

theorem placed_of_output (houtput : s.output = (r.out.map outputOf).or c.output)
    (hout : s.effectiveOutput? = some (.file out)) : Placed r c s.source out := by
  rw [Settings.effectiveOutput?, houtput] at hout
  cases hasked : r.out with
  | some given =>
    rw [hasked] at hout
    cases given with
    | nothing => cases hout
    | value text =>
      cases hout
      exact .asked hasked
  | none =>
    rw [hasked] at hout
    cases hconfigured : c.output with
    | some output =>
      rw [hconfigured] at hout
      cases hout
      exact .configured hasked hconfigured
    | none =>
      rw [hconfigured] at hout
      by_cases hnames : s.source.names = []
      · simp [Path.withName?, hnames] at hout
      · simp only [Path.withName?, List.isEmpty_iff, hnames] at hout
        cases hout
        exact .beside hasked hconfigured hnames

theorem effective_of_override (h : override r c = .ok s)
    (hout : s.effectiveOutput? = some (.file out)) :
    Effective r c s.source out s.terminator := by
  obtain ⟨hsource, houtput, hterminated⟩ := override_ok h
  exact ⟨hsource, placed_of_output houtput hout, hterminated⟩

def loadedFrom (path : Path) (s : Settings) (store : Store) :
    Except SettingsError Unit × Settings :=
  match store.isThere path with
  | .error e => (.error (.file e), s)
  | .ok false => (.error (.missingFile path), s)
  | .ok true =>
    match store.read path with
    | .error e => (.error (.file e), s)
    | .ok bytes => (Settings.applyBytes path bytes).run s

/-- A configuration file is only read. -/
theorem load_apply (path : Path) (s : Settings) (store : Store) :
    (Settings.load path s : StateM Store _) store = (loadedFrom path s store, store) := by
  unfold loadedFrom
  have hthere : (Files.isThere path : StateM Store _) store = (store.isThere path, store) := rfl
  have hread : (Files.read path : StateM Store _) store = (store.read path, store) := rfl
  simp only [Settings.load, bind, StateT.bind, hthere]
  cases store.isThere path with
  | error e => rfl
  | ok there =>
    cases there with
    | false => rfl
    | true =>
      simp only [hread, StateT.bind]
      cases store.read path <;> rfl

def configuration (r : BuildRequest) (store : Store) : Except SettingsError Unit × Settings :=
  let start := { Settings.default with verbose := r.verbose }
  match r.config with
  | none => (.ok (), start)
  | some .nothing => (.error .unnamedFile, start)
  | some (.value path) => loadedFrom (Path.ofString path) start store

theorem configured_apply (r : BuildRequest) (store : Store) :
    (configured r : StateM Store _) store = (configuration r store, store) := by
  unfold configured configuration
  cases r.config with
  | none => rfl
  | some given =>
    cases given with
    | nothing => rfl
    | value path => exact load_apply _ _ store

def settled (r : BuildRequest) (store : Store) : Except SettingsError Settings :=
  (configuration r store).1.bind fun _ => override r (configuration r store).2

theorem settled_ok (h : settled r store = .ok s) :
    ∃ c, configuration r store = (.ok (), c) ∧ override r c = .ok s := by
  unfold settled at h
  rcases hconfigured : configuration r store with ⟨loaded, c⟩
  rw [hconfigured] at h
  cases loaded with
  | error e => cases h
  | ok _ => exact ⟨c, rfl, h⟩

def configPath (r : BuildRequest) : Option Path := (r.config.bind Given.value?).map Path.ofString

def concluded (here : Path) (ended : Except Failure Exit) : Ending :=
  (conclude here false [] ended).ending

theorem conclude_ending (here : Path) (verbose : Bool) (records : List Log.Record)
    (ended : Except Failure Exit) :
    (conclude here verbose records ended).ending = concluded here ended := by
  unfold concluded conclude
  cases ended with
  | error failure => rfl
  | ok exit =>
    dsimp only
    cases exit.records here <;> rfl

theorem runs_build (stack : Stack) (s : Settings) (store : Store) :
    Build.Runs (build stack s) store (Build.onStore stack s store).1
      (Build.onStore stack s store).2 := by
  unfold build
  cases hout : Build.outputOf s with
  | error failure =>
    rw [Build.onStore_of_failure (Build.made_of_output hout)]
    exact Build.Runs.bind_error _ (Build.Runs.throw failure store)
  | ok out =>
    rw [Build.onStore_eq]
    refine (Build.Runs.pure out store).bind ((Build.Runs.log _ store).bind ?_)
    exact Build.runs_run stack s store

/-- The log of a command does not matter for its end, and not for the files. -/
theorem runBuild_apply (stack : Stack) (r : BuildRequest) (store : Store) :
    (runBuild stack r : StateM Store _) store =
      match settled r store with
      | .error e =>
        (conclude ⟨.root, store.here⟩ r.verbose [] (ending (configPath r)
          (configuration r store).2.source (.error (.settings e))), store)
      | .ok s =>
        let built := (build stack s : Logged (StateM Store) Path) [] store
        (conclude ⟨.root, store.here⟩ r.verbose built.1.2
          (ending (configPath r) s.source built.1.1), built.2) := by
  let loaded := (configured r : StateM Store _) store
  change (match loaded.1.1.bind fun _ => override r loaded.1.2 with
    | .error e => pure (conclude ⟨.root, store.here⟩ r.verbose [] (ending (configPath r)
        loaded.1.2.source (.error (.settings e))))
    | .ok s => do
      let built ← (build stack s).run.run []
      pure (conclude ⟨.root, store.here⟩ r.verbose built.2
        (ending (configPath r) s.source built.1)) : StateM Store Outcome) loaded.2 = _
  unfold settled
  rw [show loaded = (configuration r store, store) from configured_apply r store]
  cases (configuration r store).1.bind fun _ => override r (configuration r store).2 <;> rfl

/-- A source is not to blame for the settings. -/
theorem ending_settings (config : Option Path) (source source' : Path) (e : SettingsError) :
    ending config source (.error (.settings e)) = ending config source' (.error (.settings e)) := by
  cases e with
  | file e =>
    cases e with
    | system fault path => cases fault <;> rfl
    | nul => rfl
  | _ => rfl

/-- A command without settings leaves the files as they are. -/
theorem runBuild_of_error (stack : Stack) {e : SettingsError} (h : settled r store = .error e)
    (source : Path) :
    ((runBuild stack r : StateM Store _) store).1.ending =
        concluded ⟨.root, store.here⟩ (ending (configPath r) source (.error (.settings e))) ∧
      ((runBuild stack r : StateM Store _) store).2 = store := by
  rw [runBuild_apply, h]
  dsimp only
  rw [conclude_ending, ending_settings _ _ source]
  exact ⟨rfl, rfl⟩

theorem runBuild_of_ok (stack : Stack) (h : settled r store = .ok s) :
    ((runBuild stack r : StateM Store _) store).1.ending =
        concluded ⟨.root, store.here⟩
          (ending (configPath r) s.source (Build.onStore stack s store).1) ∧
      ((runBuild stack r : StateM Store _) store).2 = (Build.onStore stack s store).2 := by
  obtain ⟨records, hbuild⟩ := runs_build stack s store []
  rw [runBuild_apply, h]
  dsimp only
  rw [hbuild]
  dsimp only
  rw [conclude_ending]
  exact ⟨rfl, rfl⟩

theorem status_of_failure {config : Option Path} {failure : Failure} {exit : Exit}
    (h : ending config source (.error failure) = .ok exit) : exit.status ≠ 0 := by
  unfold ending at h
  dsimp only at h
  split at h <;> cases h <;> exact nofun

/-- No failure ends like a success. -/
theorem concluded_zero_iff {here : Path} {config : Option Path} {built : Except Failure Path} :
    concluded here (ending config source built) = .exited 0 ↔ ∃ out, built = .ok out := by
  cases built with
  | ok out => exact iff_of_true rfl ⟨out, rfl⟩
  | error failure =>
    refine iff_of_false ?_ nofun
    intro hzero
    cases hending : ending config source (.error failure) with
    | error f =>
      rw [hending] at hzero
      cases hzero
    | ok exit =>
      rw [hending] at hzero
      unfold concluded conclude at hzero
      dsimp only at hzero
      split at hzero
      · cases hzero
      · exact status_of_failure hending (Ending.exited.inj hzero)

/-- What is not caught is the failure of the build. -/
theorem ending_error {config : Option Path} {built : Except Failure Path} {failure : Failure}
    (h : ending config source built = .error failure) : built = .error failure := by
  unfold ending at h
  cases built with
  | ok out => cases h
  | error cause =>
    dsimp only at h
    split at h <;> cases h
    rfl

/-- A text that cannot be encoded is what a build fails for if that failure escapes. -/
theorem concluded_notEncodable_iff {here : Path} {config : Option Path}
    {built : Except Failure Path} {e : Utf8.EncodeError} :
    concluded here (ending config source built) = .escaped (.notEncodable e) ↔
      built = .error (.notEncodable e) := by
  constructor
  · intro hescaped
    cases hending : ending config source built with
    | error failure =>
      rw [hending] at hescaped
      cases hescaped
      exact ending_error hending
    | ok exit =>
      rw [hending] at hescaped
      unfold concluded conclude at hescaped
      dsimp only at hescaped
      split at hescaped <;> cases hescaped
  · rintro rfl
    rfl

end JavaRender.Program
