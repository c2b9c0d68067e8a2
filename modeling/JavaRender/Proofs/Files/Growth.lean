import JavaRender.Proofs.Files.Written

/-!
What an operation on files leaves alone. Making directories along a path only adds directories, in
places to which the path leads, and a write changes one file at most; main statement: a file that is
written after its directories were made is the only file that may have changed.
-/
namespace JavaRender.Store

def OnTheWay (p : Path) (s : Store) (names : List String) : Prop :=
  ∃ count, s.locate ⟨p.anchor, p.names.take count⟩ = .ok names

/-- The second store is the first one with more directories on the way along a path. -/
structure Grown (p : Path) (before after : Store) : Prop where
  here : after.here = before.here
  entry : ∀ names, after.entry? names = before.entry? names ∨
    before.entry? names = none ∧ after.entry? names = some .directory ∧ OnTheWay p after names

def SameFiles (before after : Store) : Prop :=
  ∀ names bytes, after.entry? names = some (.file bytes) ↔ before.entry? names = some (.file bytes)

namespace Grown

variable {p : Path} {before mid after s : Store} {names : List String}

theorem refl (p : Path) (s : Store) : Grown p s s := ⟨rfl, fun _ => .inl rfl⟩

theorem kept (h : Grown p before after) {entry : Entry}
    (hentry : before.entry? names = some entry) : after.entry? names = some entry := by
  rcases h.entry names with hsame | ⟨hnone, -⟩
  · exact hsame.trans hentry
  · cases hnone.symm.trans hentry

theorem locate (h : Grown p before after) {q : Path} (hq : before.locate q = .ok names) :
    after.locate q = .ok names :=
  locate_mono h.here (fun _ hdir => h.kept hdir) hq

theorem trans (hfirst : Grown p before mid) (hsecond : Grown p mid after) :
    Grown p before after := by
  refine ⟨hsecond.here.trans hfirst.here, fun names => ?_⟩
  rcases hsecond.entry names with hsame | ⟨hnone, hdirectory, hway⟩
  · rcases hfirst.entry names with hsame' | ⟨hnone, hdirectory, count, hcount⟩
    · exact .inl (hsame.trans hsame')
    · exact .inr ⟨hnone, hsame.trans hdirectory, count, hsecond.locate hcount⟩
  · rcases hfirst.entry names with hsame' | ⟨-, hdirectory', -⟩
    · exact .inr ⟨hsame'.symm.trans hnone, hdirectory, hway⟩
    · cases hnone.symm.trans hdirectory'

/-- More directories do not change a file. -/
theorem sameFiles (h : Grown p before after) : SameFiles before after := by
  intro names bytes
  rcases h.entry names with hsame | ⟨hnone, hdirectory, -⟩
  · rw [hsame]
  · rw [hnone, hdirectory]
    exact ⟨nofun, nofun⟩

/-- What is on the way to a directory is on the way to what it holds. -/
theorem of_parent (h : Grown p.parent before after) : Grown p before after := by
  refine ⟨h.here, fun names => (h.entry names).imp_right fun ⟨hnone, hdirectory, count, hway⟩ => ?_⟩
  refine ⟨hnone, hdirectory, min count (p.names.length - 1), ?_⟩
  rw [← List.take_take, ← List.dropLast_eq_take]
  exact hway

end Grown

theorem SameFiles.refl (s : Store) : SameFiles s s := fun _ _ => Iff.rfl

section Operations

variable {p : Path} {s after : Store}

def Grows {α : Type} (p : Path) (operation : StateM Store α) : Prop :=
  ∀ s : Store, Grown p s (operation s).2

theorem Grows.pure {α : Type} (a : α) : Grows p (pure a : StateM Store α) := fun s => .refl p s

theorem Grows.bind {α β : Type} {m : StateM Store α} {f : α → StateM Store β} (hm : Grows p m)
    (hf : ∀ a, Grows p (f a)) : Grows p (m >>= f) :=
  fun s => (hm s).trans (hf (m s).1 (m s).2)

theorem grows_isDirectory (q : Path) : Grows p (Files.isDirectory q : StateM Store _) :=
  fun s => .refl p s

theorem grows_makeDirectory (count : Nat) :
    Grows p (Files.makeDirectory ⟨p.anchor, p.names.take count⟩ : StateM Store _) := by
  intro s
  change Grown p s (s.makeDirectory ⟨p.anchor, p.names.take count⟩).2
  unfold makeDirectory
  split
  · exact .refl p s
  cases hlocate : s.locate ⟨p.anchor, p.names.take count⟩ with
  | error fault => exact .refl p s
  | ok names =>
    dsimp only
    cases hentry : s.entry? names with
    | some entry => exact .refl p s
    | none =>
      have hplace : s.entry? names ≠ some .directory := by
        rw [hentry]
        exact nofun
      refine ⟨here_put, fun other => ?_⟩
      by_cases hother : other = names
      · subst hother
        exact .inr ⟨hentry, entry_put_self (ne_root hplace) _, count, locate_put hplace hlocate⟩
      · exact .inl (entry_put_of_ne hother _)

theorem grows_unlessDirectory (q : Path) (e : FileError) :
    Grows p (Files.unlessDirectory q e : StateM Store _) := by
  cases e with
  | nul => exact .pure _
  | system fault path =>
    refine (grows_isDirectory q).bind fun r => ?_
    split <;> exact .pure _

theorem grows_ensureDirectory (count : Nat) :
    Grows p (Files.ensureDirectory ⟨p.anchor, p.names.take count⟩ : StateM Store _) := by
  refine (grows_makeDirectory count).bind fun r => ?_
  split
  · exact .pure _
  · exact .pure _
  · exact grows_unlessDirectory _ _

/-- Making a directory and those above it only adds directories along its path. -/
theorem grows_ensureDirectories (p : Path) :
    Grows p (Files.ensureDirectories p : StateM Store _) := by
  have hfrom : ∀ depth, Grows p (Files.ensureFrom p depth : StateM Store _) := by
    intro depth
    induction depth with
    | zero =>
      have hstart := grows_ensureDirectory (p := p) 0
      rwa [List.take_zero] at hstart
    | succ depth ih =>
      refine (grows_makeDirectory (depth + 1)).bind fun r => ?_
      split
      · exact .pure _
      · refine ih.bind fun r => ?_
        split
        · exact grows_ensureDirectory (depth + 1)
        · exact .pure _
      · exact grows_unlessDirectory _ _
  exact hfrom p.names.length

/-- A write that is refused changes nothing. -/
theorem write_error {bytes : List UInt8} {e : FileError} (h : s.write p bytes = (.error e, after)) :
    after = s := by
  unfold write at h
  split at h
  · exact (Prod.mk.inj h).2.symm
  cases hlocate : s.locate p with
  | error fault =>
    rw [hlocate] at h
    exact (Prod.mk.inj h).2.symm
  | ok names =>
    rw [hlocate] at h
    dsimp only at h
    split at h
    · exact (Prod.mk.inj h).2.symm
    · cases h

/-- A write puts a file where the path leads, and no directory was there. -/
theorem write_ok {bytes : List UInt8} (h : s.write p bytes = (.ok (), after)) :
    ∃ names, s.locate p = .ok names ∧ s.entry? names ≠ some .directory ∧
      after = s.put names (.file bytes) := by
  unfold write at h
  split at h
  · cases h
  cases hlocate : s.locate p with
  | error fault =>
    rw [hlocate] at h
    cases h
  | ok names =>
    rw [hlocate] at h
    dsimp only at h
    split at h
    · cases h
    · exact ⟨names, rfl, ‹_›, (Prod.mk.inj h).2.symm⟩

end Operations

/-- After the file at `out` was written: it holds the bytes and was no directory before; all else is
as it was, but for new directories on the way along the path of the file. -/
def Delivered (before after : Store) (out : Path) (bytes : List UInt8) : Prop :=
  ∃ place, after.locate out = .ok place ∧ after.entry? place = some (.file bytes) ∧
    before.entry? place ≠ some .directory ∧
    ∀ names, names ≠ place → after.entry? names = before.entry? names ∨
      before.entry? names = none ∧ after.entry? names = some .directory ∧
        OnTheWay out after names

/-- A file written behind its directories is all that may have changed. -/
theorem delivered_of_write {before dirs after : Store} {out : Path} {bytes : List UInt8}
    (hgrown : Grown out before dirs) (hwrite : dirs.write out bytes = (.ok (), after)) :
    Delivered before after out bytes := by
  obtain ⟨place, hlocate, hplace, rfl⟩ := write_ok hwrite
  refine ⟨place, locate_put hplace hlocate, entry_put_self (ne_root hplace) _,
    fun hdirectory => hplace (hgrown.kept hdirectory), fun names hnames => ?_⟩
  rw [entry_put_of_ne hnames]
  refine (hgrown.entry names).imp_right fun ⟨hnone, hdirectory, count, hway⟩ => ?_
  exact ⟨hnone, hdirectory, count, locate_put hplace hway⟩

end JavaRender.Store
