import Mathlib.Control.Monad.Basic
import JavaRender.Proofs.Program.Cause
import JavaRender.Proofs.Settings.Taking

/-!
What loading a configuration file leaves. Only a document of version one comes so far that settings
change; main statement: a load that fails leaves the newline style and the verbosity as they were,
and of the source and the output it changes what stands before the fault in the build section.
-/
namespace JavaRender.Program

open Settings

variable {store : Store} {path : Path} {data : Toml.Table} {s : Settings}

inductive VersionOne (store : Store) (path : Path) (data : Toml.Table) : Prop
  | intro {bytes : List UInt8} {text : List Char} {v : Toml.Value} : store.read path = .ok bytes →
      Utf8.decodeMarked bytes = .ok text → Toml.read (Line.unify text) = .ok data →
      Version data v → v.spelling? = some "1" → VersionOne store path data

/-- Loading such a file is taking its build section. -/
theorem VersionOne.loadedFrom (h : VersionOne store path data) (s : Settings) :
    loadedFrom path s store = (applyBuild data path.parent).run s := by
  obtain ⟨hread, hdecode, htoml, hversion, hone⟩ := h
  have hversionOf : versionOf path data = .ok "1" := by
    obtain ⟨members, hsystem, hv⟩ := hversion
    simp only [versionOf, hsystem, hv, hone]
  rw [(loadedFrom_of_read hread).2, applyBytes, hdecode]
  dsimp only
  rw [document, htoml]
  change (applyDocument path data).run s = _
  rw [applyDocument, hversionOf]
  rfl

/-- A document of another version, or of none that can be read, changes nothing. -/
theorem applyDocument_unchanged (h : ∀ v, Version data v → v.spelling? ≠ some "1") (path : Path)
    (s : Settings) : ∃ e, (applyDocument path data).run s = (.error e, s) := by
  rw [applyDocument]
  rcases versionOf_cases path data with ⟨e, hversionOf, -⟩ | ⟨v, shown, hversionOf, hv, hshown⟩
  · rw [hversionOf]
    exact ⟨e, rfl⟩
  · have hother : shown ≠ "1" := by
      rintro rfl
      exact h v hv hshown
    refine ⟨.unknownVersion path shown, ?_⟩
    rw [hversionOf]
    change (if shown = "1" then applyBuild data path.parent
      else throw (.unknownVersion path shown) : Change Unit).run s = _
    rw [if_neg hother]
    rfl

/-- A text that is no document has a fault. -/
theorem document_of_error {text : List Char} {fault : Toml.Fault}
    (h : Toml.read text = .error fault) (path : Path) : ∃ e, document path text = .error e := by
  rw [document, h]
  cases fault with
  | flawed flaw left => exact ⟨_, rfl⟩
  | tooDeep => exact ⟨_, rfl⟩
  | tooManyDigits count => exact ⟨_, rfl⟩

/-- Loading any other file fails and changes nothing. -/
theorem loadedFrom_unchanged (h : ∀ data, ¬ VersionOne store path data) (s : Settings) :
    ∃ e, loadedFrom path s store = (.error e, s) := by
  cases found store path with
  | nul _ habsent _ | absent _ habsent _ => exact ⟨_, loadedFrom_of_absent habsent s⟩
  | refused _ _ hfound hread =>
    refine ⟨_, (loadedFrom_of_system ?_ hread).2.2 s⟩
    rcases hfound with hfound | hfound <;> rw [hfound] <;> exact nofun
  | @file bytes _ _ hread =>
    rw [(loadedFrom_of_read hread).2, applyBytes]
    cases hdecode : Utf8.decodeMarked bytes with
    | error e => exact ⟨.notUtf8 e, rfl⟩
    | ok text =>
      dsimp only
      cases htoml : Toml.read (Line.unify text) with
      | error fault =>
        obtain ⟨e, hdocument⟩ := document_of_error htoml path
        rw [hdocument]
        exact ⟨e, rfl⟩
      | ok data =>
        rw [document, htoml]
        refine applyDocument_unchanged (fun v hv hone => ?_) path s
        exact h data (.intro hread hdecode htoml hv hone)

/-- A load that fails leaves the files as they are, and of the settings the newline style and the
verbosity. A document of version one is taken up to its fault, any other file not at all. -/
theorem load_interrupted {path : Path} {s after : Settings} {store store' : Store}
    {e : SettingsError}
    (h : (Settings.load path s : StateM Store _) store = ((.error e, after), store')) :
    store' = store ∧ after.terminator = s.terminator ∧ after.verbose = s.verbose ∧
      ((∀ data, ¬ VersionOne store path data) ∧ after = s ∨
        ∃ data, VersionOne store path data ∧ Interrupted path.parent data s after) := by
  rw [load_apply, Prod.mk.injEq] at h
  obtain ⟨hload, rfl⟩ := h
  by_cases hone : ∃ data, VersionOne store path data
  · obtain ⟨data, hdata⟩ := hone
    rw [hdata.loadedFrom] at hload
    rcases applyBuild_cases path.parent data s with ⟨e', after', hrun, hinterrupted⟩ | ⟨-, hrun⟩
    · rw [hrun] at hload
      cases hload
      obtain ⟨hterminator, hverbose⟩ := hinterrupted.frame
      exact ⟨rfl, hterminator, hverbose, .inr ⟨data, hdata, hinterrupted⟩⟩
    · rw [hrun] at hload
      cases hload
  · have hnone := not_exists.mp hone
    obtain ⟨e', hrun⟩ := loadedFrom_unchanged hnone s
    rw [hrun] at hload
    cases hload
    exact ⟨rfl, rfl, rfl, .inl ⟨hnone, rfl⟩⟩

def unknownStyle : Store :=
  ⟨[(["plc2java.toml"], .file (Utf8.encode
    "[system]\nversion = 1\n[build]\nsource = \"a.json\"\nnewline = \"cr\"\n".toList))], []⟩

theorem load_unknownStyle :
    (Settings.load (Path.ofString "plc2java.toml") Settings.default : StateM Store _)
        unknownStyle =
      ((.error (.unknownNewline "'cr'"),
        { Settings.default with source := Path.ofString "a.json" }), unknownStyle) := by
  have hload : loadedFrom (Path.ofString "plc2java.toml") Settings.default unknownStyle =
      (.error (.unknownNewline "'cr'"),
        { Settings.default with source := Path.ofString "a.json" }) := by
    decide +kernel
  rw [load_apply, hload]

/-- The source is changed although the load fails. -/
theorem interrupted_of_unknownStyle :
    ∃ data, VersionOne unknownStyle (Path.ofString "plc2java.toml") data ∧
      Interrupted (Path.ofString "plc2java.toml").parent data Settings.default
        { Settings.default with source := Path.ofString "a.json" } := by
  obtain ⟨-, -, -, ⟨-, hsame⟩ | hinterrupted⟩ := load_interrupted load_unknownStyle
  · exact absurd hsame (by decide)
  · exact hinterrupted

/-- A load that fails may leave other settings than it found. -/
theorem load_changes_settings :
    ¬ ∀ (path : Path) (s after : Settings) (store store' : Store) (e : SettingsError),
      (Settings.load path s : StateM Store _) store = ((.error e, after), store') →
        after = s := by
  intro hall
  have hsame := hall _ _ _ _ _ _ load_unknownStyle
  revert hsame
  decide

end JavaRender.Program
