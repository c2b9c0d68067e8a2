import JavaRender.Proofs.Files.Written
import JavaRender.Proofs.Text.Points
import JavaRender.Program.Build

/-!
Builds on a file system that is a value. A part of a build comes to the same result and leaves the
same files whatever is in the log, and nothing follows a failure; main statement: the result of a
build and the files it leaves, by what the bytes of the source load and render to.
-/
namespace JavaRender.Build

/-- From every log a part of a build comes to the result `r` and leaves the store `after`. -/
def Runs {α : Type} (m : Logged (StateM Store) α) (before : Store) (r : Except Failure α)
    (after : Store) : Prop :=
  ∀ records, ∃ records', m records before = ((r, records'), after)

/-- What is done with files and a state of its own, one part after the other. -/
theorem bind_apply {ε σ α β : Type} (m : ExceptT ε (StateT σ (StateM Store)) α)
    (f : α → ExceptT ε (StateT σ (StateM Store)) β) (before : σ) (s : Store) :
    (m >>= f) before s =
      match m before s with
      | ((.ok a, inside), mid) => f a inside mid
      | ((.error failure, inside), mid) => ((.error failure, inside), mid) := by
  change (match m before s with | ((r, inside), mid) => ExceptT.bindCont f r inside mid) = _
  rcases m before s with ⟨⟨r, inside⟩, mid⟩
  cases r <;> rfl

namespace Runs

variable {α β : Type} {before mid after : Store}

theorem pure (a : α) (s : Store) : Runs (pure a) s (.ok a) s := fun records => ⟨records, rfl⟩

theorem throw (failure : Failure) (s : Store) :
    Runs (throw failure : Logged (StateM Store) α) s (.error failure) s :=
  fun records => ⟨records, rfl⟩

theorem log (records : List Log.Record) (s : Store) : Runs (Build.log records) s (.ok ()) s :=
  fun before => ⟨before ++ records, rfl⟩

theorem bind {m : Logged (StateM Store) α} {f : α → Logged (StateM Store) β} {a : α}
    {r : Except Failure β} (hm : Runs m before (.ok a) mid) (hf : Runs (f a) mid r after) :
    Runs (m >>= f) before r after := by
  intro records
  obtain ⟨inside, hfirst⟩ := hm records
  obtain ⟨records', hsecond⟩ := hf inside
  refine ⟨records', ?_⟩
  rw [bind_apply, hfirst]
  exact hsecond

/-- What follows a failure is not begun. -/
theorem bind_error {m : Logged (StateM Store) α} (f : α → Logged (StateM Store) β)
    {failure : Failure} (hm : Runs m before (.error failure) after) :
    Runs (m >>= f) before (.error failure) after := by
  intro records
  obtain ⟨inside, hfirst⟩ := hm records
  refine ⟨inside, ?_⟩
  rw [bind_apply, hfirst]

theorem inStep {m : Logged (StateM Store) α} {r : Except Failure α} (title : String)
    (hm : Runs m before r after) : Runs (inStep title m) before r after := by
  intro records
  obtain ⟨inside, hrun⟩ := hm []
  refine ⟨records ++ Log.step title Binary64.zero Log.noticeable inside, ?_⟩
  change (match m [] before with
    | ((outcome, inside), mid) =>
      ((outcome, records ++ Log.step title Binary64.zero Log.noticeable inside), mid)) = _
  rw [hrun]

theorem filing {operation : StateM Store (Except FileError α)} {r : Except FileError α}
    (h : operation before = (r, after)) :
    Runs (filing operation) before (r.mapError .file) after := by
  intro records
  refine ⟨records, ?_⟩
  have hlift : (liftM operation : Logged (StateM Store) (Except FileError α)) records before =
      ((.ok (operation before).1, records), (operation before).2) := rfl
  unfold Build.filing
  rw [bind_apply, hlift, h]
  cases r <;> rfl

end Runs

variable {stack : Stack} {s : Settings} {store after : Store} {bytes : List UInt8} {out : Path}

section Sources

variable {text : List Char} {source : Source} {terminator : String}

/-- What is loaded on any stack is loaded. -/
theorem load_of_loadText (h : loadText stack text = .ok source) :
    Document.load text = .ok source.replaced := by
  unfold loadText at h
  unfold Document.load
  cases hparse : Document.parse text with
  | error e =>
    rw [hparse] at h
    cases h
  | ok v =>
    rw [hparse] at h
    dsimp only [bind, Except.bind, Except.mapError] at h ⊢
    split at h
    · cases hsource : Document.sourceOf v with
      | error e =>
        rw [hsource] at h
        cases h
      | ok node =>
        rw [hsource] at h
        cases h
        rfl
    · cases h

/-- What is rendered on any stack is rendered, and if it is one of characters they are the same. -/
theorem render_of_renderText {points : List Point}
    (h : (renderText stack source terminator).1 = .ok points) :
    stack.renders source.replaced = true ∧
      ∃ java, (render source.replaced terminator).1 = .ok java ∧
        ((∀ n, Point.half n ∉ points) → points = Point.ofString java) := by
  unfold renderText at h
  split at h
  · refine ⟨‹_›, ?_⟩
    dsimp only at h
    cases hrender : (render source.replaced terminator).1 with
    | error fault =>
      rw [hrender] at h
      cases h
    | ok java =>
      rw [hrender] at h
      cases h
      exact ⟨java, rfl, Point.ofReadings_of_chars⟩
  · cases h

end Sources

def loadBytes (stack : Stack) (bytes : List UInt8) : Except Failure Source := do
  let text ← (Document.textOf bytes).mapError .load
  loadText stack text

/-- The stack suffices to load what the bytes of a file spell, if they spell a value. -/
def Reaches (stack : Stack) (bytes : List UInt8) : Prop :=
  ∀ text v, Document.textOf bytes = .ok text → Document.parse text = .ok v → stack.loads v = true

/-- A file is loaded as its bytes are if the stack suffices. -/
theorem loadBytes_cases (stack : Stack) (bytes : List UInt8) :
    ¬ Reaches stack bytes ∧ loadBytes stack bytes = .error .tooDeep ∨
      Reaches stack bytes ∧
        ((∃ e, Document.loadBytes bytes = .error e ∧ loadBytes stack bytes = .error (.load e)) ∨
          ∃ source, Document.loadBytes bytes = .ok source.replaced ∧
            loadBytes stack bytes = .ok source) := by
  unfold Reaches loadBytes Document.loadBytes
  cases Document.textOf bytes with
  | error e => exact .inr ⟨nofun, .inl ⟨e, rfl, rfl⟩⟩
  | ok text =>
    dsimp only [bind, Except.bind, Except.mapError]
    unfold loadText Document.load
    cases hparse : Document.parse text with
    | error e =>
      refine .inr ⟨?_, .inl ⟨e, rfl, rfl⟩⟩
      rintro _ _ ⟨⟩ hvalue
      cases hparse.symm.trans hvalue
    | ok v =>
      dsimp only [bind, Except.bind, Except.mapError]
      by_cases hstack : stack.loads v = true
      · rw [if_pos hstack]
        refine .inr ⟨?_, ?_⟩
        · rintro _ _ ⟨⟩ hvalue
          cases hparse.symm.trans hvalue
          exact hstack
        · cases Document.sourceOf v with
          | error e => exact .inl ⟨e, rfl, rfl⟩
          | ok node => exact .inr ⟨_, rfl, rfl⟩
      · rw [if_neg hstack]
        exact .inl ⟨fun h => hstack (h text v rfl hparse), rfl⟩

theorem loadBytes_replaced {source : Source} (h : loadBytes stack bytes = .ok source) :
    Document.loadBytes bytes = .ok source.replaced := by
  rcases loadBytes_cases stack bytes with ⟨-, hdeep⟩ | ⟨-, ⟨e, -, herror⟩ | ⟨other, hload, hok⟩⟩
  · cases h.symm.trans hdeep
  · cases h.symm.trans herror
  · cases h.symm.trans hok
    exact hload

def loaded (stack : Stack) (store : Store) (path : Path) : Except Failure Source := do
  let bytes ← (store.read path).mapError .file
  loadBytes stack bytes

theorem loaded_of_read {path : Path} (hread : store.read path = .ok bytes) :
    loaded stack store path = loadBytes stack bytes := by
  rw [loaded, hread]
  rfl

/-- What settings make of the files before anything is written: the place and the text of the
result. -/
def made (stack : Stack) (s : Settings) (store : Store) : Except Failure (Output × List Point) := do
  let out ← outputOf s
  let source ← loaded stack store s.source
  let text ← (renderText stack source s.terminator).1
  .ok (out, text)

/-- Writes the bytes of a text to a file whose directory is made where it is missing; a text that
cannot be encoded has none. -/
def written (out : Path) (text : List Point) (store : Store) : Except FileError Unit × Store :=
  match (Files.ensureDirectories out.parent : StateM Store _) store with
  | (.ok (), dirs) => dirs.write out ((Utf8.encodePoints text).toOption.getD [])
  | (.error e, dirs) => (.error e, dirs)

def delivered (out : Output) (text : List Point) (store : Store) : Except Failure Path × Store :=
  match out with
  | .nowhere => (.error .noPlace, store)
  | .file path =>
    match written path text store with
    | (.error e, after) => (.error (.file e), after)
    | (.ok (), after) =>
      match Utf8.encodePoints text with
      | .ok _ => (.ok path, after)
      | .error e => (.error (.notEncodable e), after)

def attempted (stack : Stack) (s : Settings) (store : Store) : Except Failure Path × Store :=
  match made stack s store with
  | .ok (out, text) => delivered out text store
  | .error failure => (.error failure, store)

theorem Runs.lift {α : Type} (r : Except Failure α) (store : Store) :
    Runs (liftM r : Logged (StateM Store) α) store r store := by
  cases r with
  | ok a => exact Runs.pure a store
  | error failure => exact Runs.throw failure store

theorem runs_loadSource (stack : Stack) (path : Path) (store : Store) :
    Runs (loadSource stack path) store (loaded stack store path) store := by
  have hread : Runs (filing (Files.read path)) store ((store.read path).mapError .file) store :=
    Runs.filing rfl
  cases hbytes : store.read path with
  | error e =>
    rw [hbytes] at hread
    rw [loaded, hbytes]
    exact Runs.bind_error _ hread
  | ok bytes =>
    rw [hbytes] at hread
    rw [loaded_of_read hbytes, loadBytes]
    refine hread.bind ?_
    cases Document.textOf bytes with
    | error e => exact Runs.bind_error _ (Runs.throw (.load e) store)
    | ok text => exact (Runs.pure text store).bind (Runs.lift (loadText stack text) store)

theorem runs_renderLogged (stack : Stack) (source : Source) (terminator : String) (store : Store) :
    Runs (renderLogged stack source terminator) store (renderText stack source terminator).1
      store := by
  unfold renderLogged
  rcases renderText stack source terminator with ⟨outcome, notices⟩
  exact (Runs.log _ store).bind (Runs.lift outcome store)

theorem runs_writeResult (out : Output) (text : List Point) (store : Store) :
    Runs (writeResult out text) store (delivered out text store).1
      (delivered out text store).2 := by
  cases out with
  | nowhere => exact Runs.throw _ store
  | file path =>
    rcases hdirs : (Files.ensureDirectories path.parent : StateM Store _) store with ⟨r, dirs⟩
    have hparent := Runs.filing hdirs
    rw [delivered, written, hdirs]
    cases r with
    | error e => exact Runs.bind_error _ hparent
    | ok _ =>
      refine hparent.bind ?_
      dsimp only
      rcases hwrite : dirs.write path ((Utf8.encodePoints text).toOption.getD []) with ⟨r, after⟩
      have hfile : Runs (filing (Files.write path ((Utf8.encodePoints text).toOption.getD [])))
          dirs (r.mapError .file) after := Runs.filing hwrite
      cases r with
      | error e => exact Runs.bind_error _ hfile
      | ok _ =>
        refine hfile.bind ?_
        dsimp only
        cases Utf8.encodePoints text with
        | ok _ => exact Runs.pure path after
        | error e => exact Runs.throw _ after

/-- All is made before anything is written. -/
theorem runs_run (stack : Stack) (s : Settings) (store : Store) :
    Runs (run stack s) store (attempted stack s store).1 (attempted stack s store).2 := by
  have hsource :=
    Runs.inStep ("Loading AST: " ++ s.source.text) (runs_loadSource stack s.source store)
  unfold run attempted made
  cases outputOf s with
  | error failure => exact Runs.bind_error _ (Runs.throw failure store)
  | ok out =>
    refine (Runs.pure out store).bind ?_
    cases hload : loaded stack store s.source with
    | error failure =>
      rw [hload] at hsource
      exact Runs.bind_error _ hsource
    | ok source =>
      rw [hload] at hsource
      refine hsource.bind ((Runs.log _ store).bind ?_)
      have htext :=
        Runs.inStep "Generating Java" (runs_renderLogged stack source s.terminator store)
      dsimp only [bind, Except.bind]
      cases hrender : (renderText stack source s.terminator).1 with
      | error failure =>
        rw [hrender] at htext
        exact Runs.bind_error _ htext
      | ok text =>
        rw [hrender] at htext
        exact htext.bind (Runs.inStep _ (runs_writeResult out text store))

/-- The result of a build and the files that it leaves; its log is dropped. -/
def onStore (stack : Stack) (s : Settings) (store : Store) : Except Failure Path × Store :=
  match (run stack s : Logged (StateM Store) Path) [] store with
  | ((outcome, _), after) => (outcome, after)

theorem onStore_eq (stack : Stack) (s : Settings) (store : Store) :
    onStore stack s store = attempted stack s store := by
  obtain ⟨records, hrun⟩ := runs_run stack s store []
  rw [onStore, hrun]

/-- What cannot be made leaves the files as they are. -/
theorem onStore_of_failure {failure : Failure} (h : made stack s store = .error failure) :
    onStore stack s store = (.error failure, store) := by
  rw [onStore_eq, attempted, h]

theorem onStore_of_made {o : Output} {text : List Point} (h : made stack s store = .ok (o, text)) :
    onStore stack s store = delivered o text store := by
  rw [onStore_eq, attempted, h]

theorem made_of_output {failure : Failure} (hout : outputOf s = .error failure) :
    made stack s store = .error failure := by
  rw [made, hout]
  rfl

theorem made_of_effective {o : Output} (hout : s.effectiveOutput? = some o) :
    made stack s store = (do
      let source ← loaded stack store s.source
      let text ← (renderText stack source s.terminator).1
      .ok (o, text)) := by
  unfold made outputOf
  rw [hout]
  rfl

/-- What is written is read back from where it was written. -/
theorem delivered_of_writable (text : List Point) (hwritable : store.Writable out) :
    ∃ after, written out text store = (.ok (), after) ∧
      after.read out = .ok ((Utf8.encodePoints text).toOption.getD []) := by
  obtain ⟨dirs, after, hparent, hwrite, hback⟩ :=
    hwritable.written ((Utf8.encodePoints text).toOption.getD [])
  refine ⟨after, ?_, hback⟩
  rw [written, hparent]
  exact hwrite

end JavaRender.Build
