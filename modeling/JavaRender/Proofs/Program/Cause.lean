import JavaRender.Proofs.Program.Settled
import JavaRender.Proofs.Settings.Typing

/-!
Why a run ends, and what stops a command at its configuration file. The causes that were thought of
have a status each, the others let a failure escape; main statement: a configuration file is taken,
or one of its causes stops the command and says how it ends.
-/
namespace JavaRender

def Ending.status? : Ending → Option Nat
  | .exited status => some status
  | .escaped _ => none

namespace Program

open CommandLine

/-- What a run does not reckon with. -/
inductive Oversight where
  /-- An option that is given with nothing. -/
  | valueless
  /-- A path with a null character. -/
  | nullCharacter
  /-- A configuration file that is not UTF-8. -/
  | notUtf8
  /-- A whole number in a configuration file with more digits than are read. -/
  | longWhole
  /-- A configuration file with a value of the wrong kind, or one too long to be shown. -/
  | illTyped
  /-- A source without a last name, whose result would go beside it. -/
  | namelessSource
  /-- A number in a document that no decimal holds. -/
  | numberRange
  /-- An access among the fields of a source. -/
  | fieldAccess
  /-- Half a surrogate pair in the text of the result, which cannot be encoded then. -/
  | halfPair
  /-- A file nested so deep that the stack is used up. -/
  | tooDeep
deriving DecidableEq, Repr

inductive Cause where
  | help
  | version
  | finished
  | missingConfig
  | badConfig
  | missingSource
  | badDocument
  | badArguments
  | system
  | malformedTree
  | overlooked (oversight : Oversight)
deriving DecidableEq, Repr

/-- The status of a cause; nothing catches an oversight. -/
def Cause.status? : Cause → Option Nat
  | help | version | finished => some 0
  | missingConfig | badConfig | missingSource | badDocument => some 1
  | badArguments | system => some 2
  | malformedTree => some 3
  | overlooked _ => none

def Asked (r : BuildRequest) (path : Path) : Prop :=
  ∃ text, r.config = some (.value text) ∧ path = Path.ofString text

/-- A configuration file that a request asks for, and its text. -/
def Holds (r : BuildRequest) (store : Store) (path : Path) (text : List Char) : Prop :=
  Asked r path ∧ ∃ bytes, store.read path = .ok bytes ∧ Utf8.decodeMarked bytes = .ok text

inductive ConfigStops (r : BuildRequest) (store : Store) : Cause → Prop
  | valueless : r.config = some .nothing → ConfigStops r store (.overlooked .valueless)
  | nullCharacter {path : Path} : Asked r path → path.hasNul = true →
      ConfigStops r store (.overlooked .nullCharacter)
  | missing {path : Path} : Asked r path → path.hasNul = false → store.isThere path = .ok false →
      ConfigStops r store .missingConfig
  | system {path : Path} {fault : FileFault} : Asked r path → store.isThere path ≠ .ok false →
      store.read path = .error (.system fault path) → ConfigStops r store .system
  | notUtf8 {path : Path} {bytes : List UInt8} {e : Utf8.Error} : Asked r path →
      store.read path = .ok bytes → Utf8.decodeMarked bytes = .error e →
      ConfigStops r store (.overlooked .notUtf8)
  | notToml {path : Path} {text : List Char} {flaw : Toml.Flaw} {left : Nat} :
      Holds r store path text → Toml.read (Line.unify text) = .error (.flawed flaw left) →
      ConfigStops r store .badConfig
  | longWhole {path : Path} {text : List Char} {count : Nat} : Holds r store path text →
      Toml.read (Line.unify text) = .error (.tooManyDigits count) →
      ConfigStops r store (.overlooked .longWhole)
  | tooDeep {path : Path} {text : List Char} : Holds r store path text →
      Toml.read (Line.unify text) = .error .tooDeep →
      ConfigStops r store (.overlooked .tooDeep)
  | illTyped {path : Path} {text : List Char} {data : Toml.Table} : Holds r store path text →
      Toml.read (Line.unify text) = .ok data → Settings.IllTyped data →
      ConfigStops r store (.overlooked .illTyped)
  | refused {path : Path} {text : List Char} {data : Toml.Table} : Holds r store path text →
      Toml.read (Line.unify text) = .ok data → ¬ Settings.IllTyped data → Settings.Refused data →
      ConfigStops r store .badConfig

section Paths

variable {store : Store} {path : Path}

/-- How a path is found: with a null character nothing is there, and else what is there can be read
or is refused. -/
inductive Found (store : Store) (path : Path) : Prop
  | nul : path.hasNul = true → store.isThere path = .ok false →
      store.read path = .error .nul → Found store path
  | absent {fault : FileFault} : path.hasNul = false → store.isThere path = .ok false →
      store.read path = .error (.system fault path) → Found store path
  | file {bytes : List UInt8} : path.hasNul = false → store.isThere path = .ok true →
      store.read path = .ok bytes → Found store path
  | refused {fault : FileFault} : path.hasNul = false → fault ≠ .missing →
      store.isThere path = .ok true ∨ store.isThere path = .error (.system fault path) →
      store.read path = .error (.system fault path) → Found store path

theorem found (store : Store) (path : Path) : Found store path := by
  cases hnul : path.hasNul with
  | true => refine .nul hnul ?_ ?_ <;> simp [Store.isThere, Store.read, hnul]
  | false =>
    cases hfind : store.find path with
    | ok entry =>
      have hthere : store.isThere path = .ok true := by simp [Store.isThere, hnul, hfind]
      cases entry with
      | file bytes =>
        have hread : store.read path = .ok bytes := by simp [Store.read, hnul, hfind]
        exact .file hnul hthere hread
      | directory =>
        have hread : store.read path = .error (.system .isDirectory path) := by
          simp [Store.read, hnul, hfind]
        exact .refused hnul (by decide) (.inl hthere) hread
    | error fault =>
      have hread : store.read path = .error (.system fault path) := by
        simp [Store.read, hnul, hfind]
      cases fault with
      | nameTooLong =>
        refine .refused hnul (by decide) (.inr ?_) hread
        simp [Store.isThere, hnul, hfind]
      | _ =>
        refine .absent hnul ?_ hread
        simp [Store.isThere, hnul, hfind]

theorem loadedFrom_of_absent (h : store.isThere path = .ok false) (s : Settings) :
    loadedFrom path s store = (.error (.missingFile path), s) := by
  rw [loadedFrom, h]

theorem isThere_of_nul (h : path.hasNul = true) : store.isThere path = .ok false := by
  rw [Store.isThere, if_pos h]

theorem loadedFrom_of_read {bytes : List UInt8} (h : store.read path = .ok bytes) :
    path.hasNul = false ∧
      ∀ s, loadedFrom path s store = (Settings.applyBytes path bytes).run s := by
  cases found store path with
  | file hnul hthere _ =>
    refine ⟨hnul, fun s => ?_⟩
    rw [loadedFrom, hthere]
    dsimp only
    rw [h]
  | nul _ _ hread | absent _ _ hread | refused _ _ _ hread => cases hread.symm.trans h

theorem loadedFrom_of_system {fault : FileFault} (hthere : store.isThere path ≠ .ok false)
    (h : store.read path = .error (.system fault path)) :
    path.hasNul = false ∧ fault ≠ .missing ∧
      ∀ s, loadedFrom path s store = (.error (.file (.system fault path)), s) := by
  cases found store path with
  | nul _ habsent _ | absent _ habsent _ => exact absurd habsent hthere
  | file _ _ hread => cases hread.symm.trans h
  | refused hnul hfault hfound hread =>
    cases hread.symm.trans h
    refine ⟨hnul, hfault, fun s => ?_⟩
    unfold loadedFrom
    rcases hfound with hfound | hfound
    · rw [hfound]
      dsimp only
      rw [h]
    · rw [hfound]

end Paths

section Bytes

open Settings

variable {path : Path} {bytes : List UInt8} {text : List Char}

theorem ends_of_notUtf8 {e : Utf8.Error} (h : Utf8.decodeMarked bytes = .error e) :
    Ends (applyBytes path bytes) (.error (.notUtf8 e)) := by
  intro s
  unfold applyBytes
  rw [h]
  rfl

theorem ends_of_document_error {e : SettingsError} (h : Utf8.decodeMarked bytes = .ok text)
    (hdocument : document path (Line.unify text) = .error e) :
    Ends (applyBytes path bytes) (.error e) := by
  intro s
  unfold applyBytes
  rw [h]
  dsimp only
  rw [hdocument]
  rfl

theorem ends_of_document {data : Toml.Table} {r : Except SettingsError Unit}
    (h : Utf8.decodeMarked bytes = .ok text) (hread : Toml.read (Line.unify text) = .ok data)
    (hr : Ends (applyDocument path data) r) : Ends (applyBytes path bytes) r := by
  intro s
  unfold applyBytes document
  rw [h]
  dsimp only
  rw [hread]
  exact hr s

end Bytes

section Configurations

variable {r : BuildRequest} {store : Store}

theorem concluded_userError {blame : Blame}
    (hblame : ∀ path, blame = .file path → path.hasNul = false) (here : Path) (message : String) :
    concluded here (.ok (.userError message blame)) = .exited 1 := by
  cases blame with
  | unnamed => rfl
  | unknown => rfl
  | file path =>
    unfold concluded conclude Exit.records Exit.blameText
    dsimp only
    rw [hblame path rfl]
    rfl

/-- A failure of the settings ends a command with its status. The configuration file is named then,
which must be possible. -/
theorem concluded_settings {config : Option Path}
    (hconfig : ∀ path, config = some path → path.hasNul = false) (here source : Path)
    (e : SettingsError) :
    (concluded here (ending config source (.error (.settings e)))).status? =
      Settings.errorStatus? e := by
  cases e with
  | missingFile | invalid | noSystem | noVersion | unknownVersion | unknownNewline =>
    refine congrArg Ending.status? (concluded_userError ?_ here _)
    cases config with
    | none => exact nofun
    | some path =>
      rintro _ ⟨⟩
      exact hconfig path rfl
  | file e =>
    cases e with
    | system fault path => cases fault <;> rfl
    | nul => rfl
  | _ => rfl

def Fails (r : BuildRequest) (store : Store) (status? : Option Nat) : Prop :=
  ∃ e c, configuration r store = (.error e, c) ∧
    ∀ here source, (concluded here (ending (configPath r) source (.error (.settings e)))).status? =
      status?

theorem configuration_of_asked {path : Path} (h : Asked r path) (store : Store) :
    configPath r = some path ∧ ∃ s, configuration r store = loadedFrom path s store := by
  obtain ⟨text, htext, rfl⟩ := h
  refine ⟨by rw [configPath, htext]; rfl, { Settings.default with verbose := r.verbose }, ?_⟩
  unfold configuration
  rw [htext]

theorem fails_of_asked {path : Path} {e : SettingsError} (hasked : Asked r path)
    (hnul : path.hasNul = false)
    (hload : ∀ s, (loadedFrom path s store).1 = .error e) :
    Fails r store (Settings.errorStatus? e) := by
  obtain ⟨hpath, s, hconfiguration⟩ := configuration_of_asked hasked store
  refine ⟨e, (loadedFrom path s store).2, ?_, fun here source => ?_⟩
  · rw [hconfiguration, ← hload s]
  · refine concluded_settings (fun path' hpath' => ?_) here source e
    cases hpath.symm.trans hpath'
    exact hnul

/-- The settings of a file that is read fail as its bytes do. -/
theorem fails_of_bytes {path : Path} {bytes : List UInt8} {e : SettingsError}
    (hasked : Asked r path) (hread : store.read path = .ok bytes)
    (hends : Settings.Ends (Settings.applyBytes path bytes) (.error e)) :
    Fails r store (Settings.errorStatus? e) := by
  obtain ⟨hnul, hload⟩ := loadedFrom_of_read hread
  refine fails_of_asked hasked hnul fun s => ?_
  rw [hload]
  exact hends s

/-- What stops a command at its configuration file says how the command ends. -/
theorem ConfigStops.fails {cause : Cause} (h : ConfigStops r store cause) :
    Fails r store cause.status? := by
  cases h with
  | valueless hconfig =>
    refine ⟨.unnamedFile, _, by rw [configuration, hconfig], fun here source => ?_⟩
    rw [concluded_settings _ here source]
    · rfl
    · intro path hpath
      rw [configPath, hconfig] at hpath
      cases hpath
  | @nullCharacter path hasked hnul =>
    obtain ⟨hpath, s, hconfiguration⟩ := configuration_of_asked hasked store
    refine ⟨.missingFile path, s, ?_, fun here source => ?_⟩
    · rw [hconfiguration, loadedFrom_of_absent (isThere_of_nul hnul)]
    · -- the message about the file fails itself
      rw [hpath]
      unfold concluded ending conclude Exit.records Exit.blameText
      dsimp only
      rw [hnul]
      rfl
  | @missing path hasked hnul habsent =>
    have hload : ∀ s, (loadedFrom path s store).1 = .error (.missingFile path) := fun s => by
      rw [loadedFrom_of_absent habsent]
    exact fails_of_asked hasked hnul hload
  | @system path fault hasked hthere hread =>
    obtain ⟨hnul, hfault, hload⟩ := loadedFrom_of_system hthere hread
    have hfails : Fails r store (Settings.errorStatus? (.file (.system fault path))) :=
      fails_of_asked hasked hnul fun s => by rw [hload]
    cases fault with
    | missing => exact absurd rfl hfault
    | _ => exact hfails
  | notUtf8 hasked hread hdecode => exact fails_of_bytes hasked hread (ends_of_notUtf8 hdecode)
  | @notToml path text flaw left hholds htoml =>
    obtain ⟨hasked, bytes, hread, hdecode⟩ := hholds
    have hdocument : Settings.document path (Line.unify text) =
        .error (.invalid path (Toml.flawText (Line.unify text) flaw left)) := by
      rw [Settings.document, htoml]
    exact fails_of_bytes hasked hread (ends_of_document_error hdecode hdocument)
  | @longWhole path text count hholds htoml =>
    obtain ⟨hasked, bytes, hread, hdecode⟩ := hholds
    have hdocument : Settings.document path (Line.unify text) =
        .error (.longWhole (some count)) := by
      rw [Settings.document, htoml]
    exact fails_of_bytes hasked hread (ends_of_document_error hdecode hdocument)
  | @tooDeep path text hholds htoml =>
    obtain ⟨hasked, bytes, hread, hdecode⟩ := hholds
    have hdocument : Settings.document path (Line.unify text) = .error .tooDeep := by
      rw [Settings.document, htoml]
    exact fails_of_bytes hasked hread (ends_of_document_error hdecode hdocument)
  | @illTyped path text data hholds htoml hill =>
    obtain ⟨hasked, bytes, hread, hdecode⟩ := hholds
    obtain ⟨e, hends, hstatus⟩ := Settings.ends_of_illTyped path hill
    rw [Cause.status?, ← hstatus]
    exact fails_of_bytes hasked hread (ends_of_document hdecode htoml hends)
  | @refused path text data hholds htoml hwell hrefused =>
    obtain ⟨hasked, bytes, hread, hdecode⟩ := hholds
    obtain ⟨e, hends, hstatus⟩ := Settings.ends_of_refused path hwell hrefused
    rw [Cause.status?, ← hstatus]
    exact fails_of_bytes hasked hread (ends_of_document hdecode htoml hends)

end Configurations

end Program

end JavaRender
