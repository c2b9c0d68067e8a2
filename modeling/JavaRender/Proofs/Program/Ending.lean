import JavaRender.Proofs.CommandLine.Choice
import JavaRender.Proofs.Files.Obstacle
import JavaRender.Proofs.Placement.Rendering
import JavaRender.Proofs.Program.Cause
import JavaRender.Proofs.Program.Files

/-!
How a run ends. After its settings a command meets its source, the tree in it and the place of the
result, in this order; main statement: every run meets a cause, and each cause it meets says how it
ends, so that a failure escapes exactly from the oversights. Some runs end otherwise than was meant.
-/
namespace JavaRender

namespace Build

variable {out : Path} {text : List Point} {store after : Store} {e : FileError}

/-- A file behind its directories is refused for a null character or a fault other than a missing
file. -/
theorem written_stops (h : (written out text store).1 = .error e) : Store.Stops out e := by
  unfold written at h
  rcases hdirs : (Files.ensureDirectories out.parent : StateM Store _) store with ⟨r, dirs⟩
  rw [hdirs] at h
  cases r with
  | error e' =>
    cases h
    have hstops := Store.obstructed_ensureDirectories out.parent store e (congrArg Prod.fst hdirs)
    cases e with
    | nul =>
      obtain ⟨name, hname, hnul⟩ := List.any_eq_true.mp hstops
      exact List.any_eq_true.mpr ⟨name, List.mem_of_mem_dropLast hname, hnul⟩
    | system fault path => exact hstops
  | ok _ =>
    have hparent := Store.leaves_ensureDirectories out.parent store dirs hdirs
    exact Store.write_stops hparent (Prod.ext h rfl)

theorem delivered_error (h : (written out text store).1 = .error e) :
    (delivered (.file out) text store).1 = .error (.file e) := by
  rcases hwritten : written out text store with ⟨r, after⟩
  rw [hwritten] at h
  cases h
  rw [delivered, hwritten]

theorem delivered_ok (h : (written out text store).1 = .ok ()) :
    (delivered (.file out) text store).1 =
      ((Utf8.encodePoints text).mapError .notEncodable).map fun _ => out := by
  rcases hwritten : written out text store with ⟨r, after⟩
  rw [hwritten] at h
  cases h
  rw [delivered, hwritten]
  dsimp only
  cases Utf8.encodePoints text <;> rfl

end Build

namespace Program

open CommandLine Emission

def Loads (stack : Stack) (s : Settings) (store : Store) (o : Output) (source : Build.Source) :
    Prop :=
  s.effectiveOutput? = some o ∧ ∃ bytes, store.read s.source = .ok bytes ∧
    Build.loadBytes stack bytes = .ok source

def Makes (stack : Stack) (s : Settings) (store : Store) (o : Output) (text : List Point) : Prop :=
  ∃ source, Loads stack s store o source ∧
    (Build.renderText stack source s.terminator).1 = .ok text

inductive BuildMeets (stack : Stack) (s : Settings) (store : Store) : Cause → Prop
  | namelessSource : s.output = none → s.source.names = [] →
      BuildMeets stack s store (.overlooked .namelessSource)
  | nullCharacter {o : Output} : s.effectiveOutput? = some o → s.source.hasNul = true →
      BuildMeets stack s store (.overlooked .nullCharacter)
  | missingSource {o : Output} {path : Path} : s.effectiveOutput? = some o →
      store.read s.source = .error (.system .missing path) →
      BuildMeets stack s store .missingSource
  | unreadable {o : Output} {fault : FileFault} {path : Path} : s.effectiveOutput? = some o →
      store.read s.source = .error (.system fault path) → fault ≠ .missing →
      BuildMeets stack s store .system
  | deepDocument {o : Output} {bytes : List UInt8} : s.effectiveOutput? = some o →
      store.read s.source = .ok bytes → ¬ Build.Reaches stack bytes →
      BuildMeets stack s store (.overlooked .tooDeep)
  | badDocument {o : Output} {bytes : List UInt8} {refusal : Document.Refusal} :
      s.effectiveOutput? = some o → store.read s.source = .ok bytes → Build.Reaches stack bytes →
      Document.loadBytes bytes = .error (.refused refusal) → BuildMeets stack s store .badDocument
  | numberRange {o : Output} {bytes : List UInt8} : s.effectiveOutput? = some o →
      store.read s.source = .ok bytes → Build.Reaches stack bytes →
      Document.loadBytes bytes = .error .numberRange →
      BuildMeets stack s store (.overlooked .numberRange)
  | deepTree {o : Output} {source : Build.Source} : Loads stack s store o source →
      stack.renders source.replaced = false → BuildMeets stack s store (.overlooked .tooDeep)
  | malformedTree {o : Output} {source : Build.Source} {fault : Tree.Fault} :
      Loads stack s store o source → stack.renders source.replaced = true →
      (render source.replaced s.terminator).1 = .error fault → IsMalformed fault →
      BuildMeets stack s store .malformedTree
  | fieldAccess {o : Output} {source : Build.Source} : Loads stack s store o source →
      stack.renders source.replaced = true →
      (render source.replaced s.terminator).1 = .error Node.fieldAccessFault →
      source.replaced.HasFieldAccess → BuildMeets stack s store (.overlooked .fieldAccess)
  | valueless {text : List Point} : Makes stack s store .nowhere text →
      BuildMeets stack s store (.overlooked .valueless)
  | placeWithNull {out : Path} {text : List Point} : Makes stack s store (.file out) text →
      (Build.written out text store).1 = .error .nul → out.hasNul = true →
      BuildMeets stack s store (.overlooked .nullCharacter)
  | unwritable {out path : Path} {text : List Point} {fault : FileFault} :
      Makes stack s store (.file out) text →
      (Build.written out text store).1 = .error (.system fault path) →
      BuildMeets stack s store .system
  | halfPair {out : Path} {text : List Point} {n : Nat} : Makes stack s store (.file out) text →
      (Build.written out text store).1 = .ok () → .half n ∈ text →
      BuildMeets stack s store (.overlooked .halfPair)
  | finished {out : Path} {text : List Point} : Makes stack s store (.file out) text →
      (Build.written out text store).1 = .ok () → (∀ n, .half n ∉ text) →
      BuildMeets stack s store .finished

/-- What a run meets: at its arguments, at its configuration file, at the options that win over it
and in the build. -/
inductive Meets (stack : Stack) (args : List String) (store : Store) : Cause → Prop
  | help {c : Command} : CommandLine.read args = .error (.help c) → Meets stack args store .help
  | badArguments {c : Command} {complaint : Complaint} :
      CommandLine.read args = .error (.refused c complaint) → Meets stack args store .badArguments
  | version : CommandLine.read args = .ok .version → Meets stack args store .version
  | config {r : BuildRequest} {cause : Cause} : CommandLine.read args = .ok (.build r) →
      ConfigStops r store cause → Meets stack args store cause
  | valueless {r : BuildRequest} {c : Settings} : CommandLine.read args = .ok (.build r) →
      (configured r : StateM Store _) store = ((.ok (), c), store) → r.newline = some .nothing →
      Meets stack args store (.overlooked .valueless)
  | build {r : BuildRequest} {c s : Settings} {cause : Cause} :
      CommandLine.read args = .ok (.build r) →
      (configured r : StateM Store _) store = ((.ok (), c), store) → override r c = .ok s →
      BuildMeets stack s store cause → Meets stack args store cause

section Builds

variable {stack : Stack} {s : Settings} {store : Store} {o : Output} {source : Build.Source}
  {text : List Point} {bytes : List UInt8} {cause : Cause}

theorem made_of_loads (h : Loads stack s store o source) :
    Build.made stack s store = (Build.renderText stack source s.terminator).1.map fun text =>
      (o, text) := by
  obtain ⟨hout, bytes, hread, hload⟩ := h
  rw [Build.made_of_effective hout, Build.loaded_of_read hread, hload]
  change ((Build.renderText stack source s.terminator).1 >>= fun text => .ok (o, text)) = _
  cases (Build.renderText stack source s.terminator).1 <;> rfl

theorem onStore_of_makes (h : Makes stack s store o text) :
    Build.onStore stack s store = Build.delivered o text store := by
  obtain ⟨source, hloads, hrender⟩ := h
  apply Build.onStore_of_made
  rw [made_of_loads hloads, hrender]
  rfl

theorem onStore_of_fault {fault : Tree.Fault} (h : Loads stack s store o source)
    (hstack : stack.renders source.replaced = true)
    (hrender : (render source.replaced s.terminator).1 = .error fault) :
    Build.onStore stack s store = (.error (.tree fault), store) := by
  apply Build.onStore_of_failure
  rw [made_of_loads h, Build.renderText, if_pos hstack]
  dsimp only
  rw [hrender]
  rfl

/-- A source that cannot be read, or whose bytes do not load, leaves the files as they are. -/
theorem onStore_of_unreadable {e : FileError} (hout : s.effectiveOutput? = some o)
    (hread : store.read s.source = .error e) :
    Build.onStore stack s store = (.error (.file e), store) := by
  apply Build.onStore_of_failure
  rw [Build.made_of_effective hout, Build.loaded, hread]
  rfl

theorem onStore_of_unloaded {failure : Failure} (hout : s.effectiveOutput? = some o)
    (hread : store.read s.source = .ok bytes)
    (hload : Build.loadBytes stack bytes = .error failure) :
    Build.onStore stack s store = (.error failure, store) := by
  apply Build.onStore_of_failure
  rw [Build.made_of_effective hout, Build.loaded_of_read hread, hload]
  rfl

theorem loadBytes_of_error {e : Document.LoadError} (hstack : Build.Reaches stack bytes)
    (h : Document.loadBytes bytes = .error e) :
    Build.loadBytes stack bytes = .error (.load e) := by
  rcases Build.loadBytes_cases stack bytes with
    ⟨hdeep, -⟩ | ⟨-, ⟨e', herror, hload⟩ | ⟨source, hok, -⟩⟩
  · exact absurd hstack hdeep
  · cases h.symm.trans herror
    exact hload
  · cases h.symm.trans hok

/-- A fault of the system on a file other than a missing one. -/
theorem concluded_system {fault : FileFault} (hfault : fault ≠ .missing) (here source path : Path)
    (config : Option Path) :
    concluded here (ending config source (.error (.file (.system fault path)))) = .exited 2 := by
  cases fault with
  | missing => exact absurd rfl hfault
  | _ => rfl

/-- What a build meets says how it ends. -/
theorem BuildMeets.status (h : BuildMeets stack s store cause) (here : Path)
    (config : Option Path) :
    (concluded here (ending config s.source (Build.onStore stack s store).1)).status? =
      cause.status? := by
  cases h with
  | namelessSource houtput hnames =>
    have hout : Build.outputOf s = .error (.noName s.source) := by
      rw [Build.outputOf, Settings.effectiveOutput?, houtput, Path.withName?, hnames]
      rfl
    rw [Build.onStore_of_failure (Build.made_of_output hout)]
    rfl
  | nullCharacter hout hnul =>
    have hread : store.read s.source = .error .nul := by rw [Store.read, if_pos hnul]
    rw [onStore_of_unreadable hout hread]
    rfl
  | missingSource hout hread =>
    rw [onStore_of_unreadable hout hread]
    rfl
  | unreadable hout hread hfault =>
    rw [onStore_of_unreadable hout hread, concluded_system hfault]
    rfl
  | @deepDocument _ bytes hout hread hdeep =>
    rcases Build.loadBytes_cases stack bytes with ⟨-, hload⟩ | ⟨hstack, -⟩
    · rw [onStore_of_unloaded hout hread hload]
      rfl
    · exact absurd hstack hdeep
  | badDocument hout hread hstack hload =>
    rw [onStore_of_unloaded hout hread (loadBytes_of_error hstack hload)]
    refine congrArg Ending.status? (concluded_userError ?_ here _)
    rintro _ ⟨⟩
    exact (loadedFrom_of_read hread).1
  | numberRange hout hread hstack hload =>
    rw [onStore_of_unloaded hout hread (loadBytes_of_error hstack hload)]
    rfl
  | deepTree hloads hstack =>
    have hmade : Build.made stack s store = .error .tooDeep := by
      rw [made_of_loads hloads, Build.renderText, hstack]
      rfl
    rw [Build.onStore_of_failure hmade]
    rfl
  | malformedTree hloads hstack hrender hmalformed =>
    obtain ⟨owner, slot, problem, rfl⟩ := hmalformed
    rw [onStore_of_fault hloads hstack hrender]
    rfl
  | fieldAccess hloads hstack hrender _ =>
    rw [onStore_of_fault hloads hstack hrender]
    rfl
  | valueless hmakes =>
    rw [onStore_of_makes hmakes]
    rfl
  | placeWithNull hmakes hwritten _ =>
    rw [onStore_of_makes hmakes, Build.delivered_error hwritten]
    rfl
  | unwritable hmakes hwritten =>
    have hfault := Build.written_stops hwritten
    rw [onStore_of_makes hmakes, Build.delivered_error hwritten, concluded_system hfault]
    rfl
  | halfPair hmakes hwritten hhalf =>
    obtain ⟨e, hencode⟩ := Utf8.exists_encodeError hhalf
    rw [onStore_of_makes hmakes, Build.delivered_ok hwritten, hencode]
    rfl
  | finished hmakes hwritten hchars =>
    obtain ⟨bytes, hencode⟩ := Utf8.exists_bytes hchars
    rw [onStore_of_makes hmakes, Build.delivered_ok hwritten, hencode]
    rfl

end Builds

theorem run_of_build {stack : Stack} {args : List String} {r : BuildRequest}
    (h : CommandLine.read args = .ok (.build r)) :
    (run stack args : StateM Store Outcome) = runBuild stack r := by
  rw [run, h]

theorem configuration_of_configured {r : BuildRequest} {store : Store} {c : Settings}
    (h : (configured r : StateM Store _) store = ((.ok (), c), store)) :
    configuration r store = (.ok (), c) := by
  rw [configured_apply] at h
  exact (Prod.mk.inj h).1

/-- What a run meets says how it ends. -/
theorem Meets.status {stack : Stack} {args : List String} {store : Store} {cause : Cause}
    (h : Meets stack args store cause) :
    ((run stack args : StateM Store Outcome) store).1.ending.status? = cause.status? := by
  cases h with
  | help hread | badArguments hread | version hread =>
    rw [run, hread]
    rfl
  | @config r cause hread hstops =>
    obtain ⟨e, c, hconfiguration, hstatus⟩ := hstops.fails
    have hsettled : settled r store = .error e := by
      rw [settled, hconfiguration]
      rfl
    rw [run_of_build hread, (runBuild_of_error stack hsettled Settings.default.source).1]
    exact hstatus _ _
  | @valueless r c hread hconfigured hnewline =>
    have hsettled : settled r store = .error (.notKey "list") := by
      rw [settled, configuration_of_configured hconfigured]
      change override r c = _
      rw [override, hnewline]
    rw [run_of_build hread, (runBuild_of_error stack hsettled Settings.default.source).1]
    rfl
  | @build r c s cause hread hconfigured hoverride hmeets =>
    have hsettled : settled r store = .ok s := by
      rw [settled, configuration_of_configured hconfigured]
      exact hoverride
    rw [run_of_build hread, (runBuild_of_ok stack hsettled).1]
    exact hmeets.status _ _

end Program

end JavaRender
