import Mathlib.Data.List.Basic
import JavaRender.Files.Store

/-!
Files that were written. A new entry is found under its names and hides no other; where no directory
stood nothing was reached through it, so every path leads where it led before. Main statement: where
the directory of a file is there or can be made, what is written is read back.
-/
namespace JavaRender.Store

variable {s : Store} {names other : List String} {entry : Entry}

theorem lookup_replace (entries : List (List String × Entry)) (other : List String) :
    (entries.map fun (key, old) => if key = names then (key, entry) else (key, old)).lookup other =
      (entries.lookup other).map fun old => if other = names then entry else old := by
  induction entries with
  | nil => rfl
  | cons e rest ih =>
    obtain ⟨key, old⟩ := e
    rw [List.map_cons]
    dsimp only
    by_cases hkey : other = key
    · subst hkey
      by_cases hnames : other = names
      · simp [hnames]
      · simp [hnames]
    · have hne : (other == key) = false := by simpa using hkey
      have hbehind : ((key, old) :: rest).lookup other = rest.lookup other := by
        rw [List.lookup_cons, hne]
      rw [hbehind, ← ih]
      by_cases hnames : key = names
      · rw [if_pos hnames, List.lookup_cons, hne]
      · rw [if_neg hnames, List.lookup_cons, hne]

/-- What is put under names is found there. -/
theorem entry_put_self (h : names ≠ []) (entry : Entry) :
    entry? (s.put names entry) names = some entry := by
  have hplace : names.isEmpty = false := by simpa using h
  unfold entry? put
  by_cases hthere : (s.entries.lookup names).isSome = true
  · obtain ⟨old, hold⟩ := Option.isSome_iff_exists.mp hthere
    rw [if_pos hthere]
    simp [hplace, lookup_replace, hold]
  · have hnone : s.entries.lookup names = none := Option.not_isSome_iff_eq_none.mp hthere
    rw [if_neg hthere]
    simp [hplace, List.lookup_append, hnone]

theorem entry_put_of_ne (h : other ≠ names) (entry : Entry) :
    entry? (s.put names entry) other = s.entry? other := by
  unfold entry? put
  by_cases hthere : (s.entries.lookup names).isSome = true
  · rw [if_pos hthere]
    simp [lookup_replace, h]
  · have hne : (other == names) = false := by simpa using h
    have hlast : [(names, entry)].lookup other = none := by simp [List.lookup_cons, hne]
    rw [if_neg hthere]
    simp [List.lookup_append, hlast]

theorem here_put : (s.put names entry).here = s.here := by
  unfold put
  split <;> rfl

section Places

variable {t : Store} {dir place : List String}

theorem directory_of_enter {name : String} (h : s.enter dir name = .ok place) :
    s.entry? dir = some .directory := by
  unfold enter at h
  split at h
  · cases h
  · cases h
  · assumption

/-- Where no directory goes, a path leads where it led before. -/
theorem locate_mono (hhere : t.here = s.here)
    (hdirectories : ∀ dir, s.entry? dir = some .directory → t.entry? dir = some .directory)
    {p : Path} (h : s.locate p = .ok place) : t.locate p = .ok place := by
  have henter : ∀ {dir name next}, s.enter dir name = .ok next → t.enter dir name = .ok next := by
    intro dir name next hnext
    have hdirectory := directory_of_enter hnext
    unfold enter at hnext ⊢
    rw [hdirectory] at hnext
    rw [hdirectories dir hdirectory]
    exact hnext
  have hfold : ∀ (path start : List String), path.foldlM s.enter start = .ok place →
      path.foldlM t.enter start = .ok place := by
    intro path
    induction path with
    | nil => exact fun _ hstart => hstart
    | cons name rest ih =>
      intro start hstart
      rw [List.foldlM_cons] at hstart ⊢
      cases hnext : s.enter start name with
      | error fault =>
        rw [hnext] at hstart
        cases hstart
      | ok next =>
        rw [hnext] at hstart
        rw [henter hnext]
        exact ih next hstart
  unfold locate at h ⊢
  rw [hhere]
  split at h
  · cases h
  · rw [if_neg ‹_›]
    exact hfold p.names _ h

variable (hplace : s.entry? names ≠ some .directory)
include hplace

theorem entry_put_directory (entry : Entry) (h : s.entry? dir = some .directory) :
    entry? (s.put names entry) dir = some .directory := by
  have hne : dir ≠ names := by
    rintro rfl
    exact hplace h
  rw [entry_put_of_ne hne]
  exact h

/-- A path leads where it led before. -/
theorem locate_put {p : Path} (h : s.locate p = .ok place) :
    (s.put names entry).locate p = .ok place :=
  locate_mono here_put (fun _ hdir => entry_put_directory hplace entry hdir) h

/-- The root is a directory. -/
theorem ne_root : names ≠ [] := by
  rintro rfl
  exact hplace rfl

end Places

theorem find_of_locate {p : Path} (h : s.locate p = .ok names) :
    s.find p = match s.entry? names with
      | some entry => .ok entry
      | none => .error .missing := by
  unfold find
  rw [h]
  rfl

/-- What is written where no directory stands is read back. -/
theorem read_write {p : Path} {bytes : List UInt8} (hnul : p.hasNul = false)
    (hlocate : s.locate p = .ok names) (hplace : s.entry? names ≠ some .directory) :
    ∃ after, s.write p bytes = (.ok (), after) ∧ after.read p = .ok bytes := by
  refine ⟨s.put names (.file bytes), ?_, ?_⟩
  · unfold write
    rw [if_neg (by rw [hnul]; exact Bool.false_ne_true), hlocate]
    dsimp only
    split
    · exact absurd ‹_› hplace
    · rfl
  · have hfound : (s.put names (.file bytes)).find p = .ok (.file bytes) := by
      rw [find_of_locate (locate_put hplace hlocate), entry_put_self (ne_root hplace)]
    unfold read
    rw [if_neg (by rw [hnul]; exact Bool.false_ne_true), hfound]

section Directories

variable {s : Store} {p : Path}

def Leaves (p : Path) (operation : StateM Store (Except FileError Unit)) : Prop :=
  ∀ s after, operation s = (.ok (), after) → after.find p = .ok .directory

theorem Leaves.error (p : Path) (e : FileError) : Leaves p (pure (.error e)) :=
  fun _ _ h => nomatch h

theorem Leaves.bind {α : Type} {m : StateM Store α} {f : α → StateM Store (Except FileError Unit)}
    (h : ∀ a, Leaves p (f a)) : Leaves p (m >>= f) :=
  fun s => h (m s).1 (m s).2

theorem find_of_makeDirectory {after : Store} (h : s.makeDirectory p = (.ok (), after)) :
    after.find p = .ok .directory := by
  unfold makeDirectory at h
  split at h
  · cases h
  cases hlocate : s.locate p with
  | error fault =>
    rw [hlocate] at h
    cases h
  | ok names =>
    rw [hlocate] at h
    dsimp only at h
    cases hentry : s.entry? names with
    | some entry =>
      rw [hentry] at h
      cases h
    | none =>
      rw [hentry] at h
      have hplace : s.entry? names ≠ some .directory := by
        rw [hentry]
        exact nofun
      cases h
      rw [find_of_locate (locate_put hplace hlocate), entry_put_self (ne_root hplace)]

theorem find_of_isDirectory (h : s.isDirectory p = .ok true) : s.find p = .ok .directory := by
  unfold isDirectory at h
  split at h
  · cases h
  · split at h
    · assumption
    all_goals cases h

/-- What follows the making of a directory need not care about its success. -/
theorem Leaves.make {f : Except FileError Unit → StateM Store (Except FileError Unit)}
    (hok : f (.ok ()) = pure (.ok ())) (h : ∀ e, Leaves p (f (.error e))) :
    Leaves p (Files.makeDirectory p >>= f) := by
  intro s after hafter
  change f (s.makeDirectory p).1 (s.makeDirectory p).2 = _ at hafter
  rcases hmake : s.makeDirectory p with ⟨r, mid⟩
  rw [hmake] at hafter
  cases r with
  | error e => exact h e mid after hafter
  | ok u =>
    rw [hok] at hafter
    cases hafter
    exact find_of_makeDirectory hmake

theorem Leaves.check {f : Except FileError Bool → StateM Store (Except FileError Unit)}
    (hthere : f (.ok true) = pure (.ok ())) (h : ∀ r, r ≠ .ok true → Leaves p (f r)) :
    Leaves p (Files.isDirectory p >>= f) := by
  intro s after hafter
  change f (s.isDirectory p) s = _ at hafter
  by_cases hdirectory : s.isDirectory p = .ok true
  · rw [hdirectory, hthere] at hafter
    cases hafter
    exact find_of_isDirectory hdirectory
  · exact h _ hdirectory s after hafter

theorem leaves_unlessDirectory (p : Path) (e : FileError) :
    Leaves p (Files.unlessDirectory p e) := by
  cases e with
  | nul => exact Leaves.error p _
  | system fault path =>
    refine Leaves.check rfl fun r hr => ?_
    split
    · contradiction
    all_goals exact Leaves.error p _

theorem leaves_ensureDirectory (p : Path) : Leaves p (Files.ensureDirectory p) := by
  refine Leaves.make rfl fun e => ?_
  split
  · contradiction
  · exact Leaves.error p _
  · exact leaves_unlessDirectory p _

theorem leaves_ensureFrom (p : Path) (depth : Nat) :
    Leaves ⟨p.anchor, p.names.take depth⟩ (Files.ensureFrom p depth) := by
  cases depth with
  | zero =>
    rw [List.take_zero]
    exact leaves_ensureDirectory _
  | succ depth =>
    rw [Files.ensureFrom]
    refine Leaves.make rfl fun e => ?_
    split
    · contradiction
    · refine Leaves.bind fun r => ?_
      cases r with
      | ok u => exact leaves_ensureDirectory _
      | error e => exact Leaves.error _ e
    · exact leaves_unlessDirectory _ _

/-- A directory that was asked for is there, whatever had to be made for it. -/
theorem leaves_ensureDirectories (p : Path) : Leaves p (Files.ensureDirectories p) := by
  have hwhole := leaves_ensureFrom p p.names.length
  rwa [List.take_length] at hwhole

theorem locate_of_find {entry : Entry} (h : s.find p = .ok entry) :
    ∃ names, s.locate p = .ok names ∧ s.entry? names = some entry := by
  cases hlocate : s.locate p with
  | error fault =>
    rw [find, hlocate] at h
    cases h
  | ok names =>
    rw [find_of_locate hlocate] at h
    split at h
    · cases h
      exact ⟨names, rfl, ‹_›⟩
    · cases h

/-- In a directory a path leads somewhere unless a name or the path itself is too long. -/
theorem locate_in_directory (hnames : p.names ≠ []) (hparent : s.find p.parent = .ok .directory) :
    (∃ names, s.locate p = .ok names) ∨ s.locate p = .error .nameTooLong := by
  obtain ⟨dir, hlocate, hdirectory⟩ := locate_of_find hparent
  have habove : p.names.dropLast.foldlM s.enter (if p.anchor = .here then s.here else []) =
      .ok dir := by
    unfold locate at hlocate
    split at hlocate
    · cases hlocate
    · exact hlocate
  unfold locate
  split
  · exact .inr rfl
  rw [← List.dropLast_concat_getLast hnames, List.foldlM_append, habove]
  change (∃ names, [p.names.getLast hnames].foldlM s.enter dir = .ok names) ∨
    [p.names.getLast hnames].foldlM s.enter dir = .error .nameTooLong
  rw [List.foldlM_cons, enter, hdirectory]
  dsimp only
  split
  · exact .inl ⟨_, rfl⟩
  split
  · exact .inr rfl
  · exact .inl ⟨_, rfl⟩

/-- A file can be written: no name has a null character, the directory it belongs in is there or
can be made, and no directory stands under the path then. -/
structure Writable (s : Store) (p : Path) : Prop where
  plain : p.hasNul = false
  place : ∃ dirs, (Files.ensureDirectories p.parent : StateM Store _) s = (.ok (), dirs) ∧
    dirs.isDirectory p = .ok false

/-- What is written to a file that can be written is read back. -/
theorem Writable.written (h : s.Writable p) (bytes : List UInt8) :
    ∃ dirs after, (Files.ensureDirectories p.parent : StateM Store _) s = (.ok (), dirs) ∧
      dirs.write p bytes = (.ok (), after) ∧ after.read p = .ok bytes := by
  obtain ⟨dirs, hparent, hfile⟩ := h.place
  have hdirectory := leaves_ensureDirectories _ s dirs hparent
  have hfind : ∀ entry, dirs.find p = .ok entry → entry ≠ .directory := by
    rintro _ hfind rfl
    simp [isDirectory, h.plain, hfind] at hfile
  have hnames : p.names ≠ [] := by
    intro hnames
    have hself : p.parent = p := by
      rw [Path.parent, hnames]
      exact congrArg (Path.mk p.anchor) hnames.symm
    exact hfind _ (hself ▸ hdirectory) rfl
  rcases locate_in_directory hnames hdirectory with ⟨names, hlocate⟩ | hlong
  · have hplace : dirs.entry? names ≠ some .directory := by
      intro hentry
      refine hfind .directory ?_ rfl
      rw [find_of_locate hlocate, hentry]
    obtain ⟨after, hwrite, hread⟩ := read_write h.plain hlocate hplace
    exact ⟨dirs, after, hparent, hwrite, hread⟩
  · have hnowhere : dirs.find p = .error .nameTooLong := by
      simp only [find, hlong, Bind.bind, Except.bind]
    simp [isDirectory, h.plain, hnowhere] at hfile

end Directories

end JavaRender.Store
