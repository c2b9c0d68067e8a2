import JavaRender.Proofs.Files.Written

/-!
What keeps a file from being written. A directory is made where those above it are there, and they
are made first, so nothing is found missing in the end; main statement: a file is refused for a null
character in its path, or for a fault of the system other than a missing file.
-/
namespace JavaRender.Store

variable {p q : Path} {s dirs after : Store} {e : FileError}

/-- An error that can stop what is done for a path: a null character in it, or a fault of the system
other than a missing file. -/
def Stops (p : Path) : FileError → Prop
  | .nul => p.hasNul = true
  | .system fault _ => fault ≠ .missing

def Obstructed {α : Type} (p : Path) (operation : StateM Store (Except FileError α)) (s : Store) :
    Prop :=
  ∀ e, (operation s).1 = .error e → Stops p e

theorem Obstructed.ok {α : Type} (a : α) : Obstructed p (pure (.ok a)) s := fun _ h => nomatch h

theorem Obstructed.error {α : Type} (h : Stops p e) :
    Obstructed p (pure (.error e) : StateM Store (Except FileError α)) s := by
  intro e' h'
  cases h'
  exact h

theorem isDirectory_error (h : s.isDirectory q = .error e) : e = .system .nameTooLong q := by
  unfold isDirectory at h
  split at h
  · cases h
  · split at h <;> cases h
    rfl

theorem Obstructed.check {f : Except FileError Bool → StateM Store (Except FileError Unit)}
    (h : ∀ r, s.isDirectory q = r → Obstructed p (f r) s) :
    Obstructed p (Files.isDirectory q >>= f) s :=
  fun e he => h _ rfl e he

/-- A fault that matters only where there is no directory. -/
theorem obstructed_unlessDirectory (q : Path) (h : Stops p e) :
    Obstructed p (Files.unlessDirectory q e) s := by
  cases e with
  | nul => exact .error h
  | system fault path =>
    refine Obstructed.check fun r hr => ?_
    cases r with
    | error e' =>
      have hlong : FileFault.nameTooLong ≠ .missing := by decide
      rw [isDirectory_error hr]
      exact .error hlong
    | ok there =>
      cases there with
      | true => exact .ok ()
      | false => exact .error h

theorem makeDirectory_error (h : (s.makeDirectory q).1 = .error e) :
    e = .nul ∧ q.hasNul = true ∨
      ∃ fault, e = .system fault q ∧ (fault = .missing → s.locate q = .error .missing) := by
  unfold makeDirectory at h
  split at h
  · cases h
    exact .inl ⟨rfl, ‹_›⟩
  · cases hlocate : s.locate q with
    | error fault =>
      rw [hlocate] at h
      cases h
      exact .inr ⟨fault, rfl, fun hmissing => by rw [hmissing]⟩
    | ok names =>
      rw [hlocate] at h
      dsimp only at h
      split at h
      · cases h
        exact .inr ⟨.alreadyThere, rfl, nofun⟩
      · cases h

theorem hasNul_of_take {count : Nat} (h : Path.hasNul ⟨p.anchor, p.names.take count⟩ = true) :
    p.hasNul = true := by
  obtain ⟨name, hname, hnul⟩ := List.any_eq_true.mp h
  exact List.any_eq_true.mpr ⟨name, List.mem_of_mem_take hname, hnul⟩

/-- A path without names leads somewhere, and so does one that is followed from a directory. -/
theorem locate_ne_missing (h : q.names = [] ∨ s.find q.parent = .ok .directory) :
    s.locate q ≠ .error .missing := by
  by_cases hnames : q.names = []
  · unfold locate
    rw [hnames]
    split <;> exact nofun
  · rcases locate_in_directory hnames (h.resolve_left hnames) with ⟨names, hlocate⟩ | hlong
    · rw [hlocate]
      exact nofun
    · rw [hlong]
      exact nofun

/-- An operation is obstructed as its first part is, and what follows that part is. -/
theorem Obstructed.bind {m : StateM Store (Except FileError Unit)}
    {f : Except FileError Unit → StateM Store (Except FileError Unit)}
    (hok : ∀ after, m s = (.ok (), after) → Obstructed p (f (.ok ())) after)
    (herror : ∀ e after, m s = (.error e, after) → Obstructed p (f (.error e)) after) :
    Obstructed p (m >>= f) s := by
  change Obstructed p (fun s => f (m s).1 (m s).2) s
  intro e he
  dsimp only at he
  rcases hrun : m s with ⟨r, after⟩
  rw [hrun] at he
  cases r with
  | ok _ => exact hok after hrun e he
  | error e' => exact herror e' after hrun e he

/-- One directory is made, or is there, where the path to it is. -/
theorem obstructed_ensureDirectory {count : Nat}
    (hreached : s.locate ⟨p.anchor, p.names.take count⟩ ≠ .error .missing) :
    Obstructed p (Files.ensureDirectory ⟨p.anchor, p.names.take count⟩) s := by
  refine Obstructed.bind (fun _ _ => .ok ()) fun e after hmake => ?_
  rcases makeDirectory_error (congrArg Prod.fst hmake) with ⟨rfl, hnul⟩ | ⟨fault, rfl, hmissing⟩
  · exact obstructed_unlessDirectory _ (hasNul_of_take hnul)
  · have hfault : fault ≠ .missing := fun h => hreached (hmissing h)
    cases fault with
    | missing => exact absurd rfl hfault
    | _ => exact obstructed_unlessDirectory _ hfault

theorem obstructed_ensureFrom (p : Path) {depth : Nat} (hdepth : depth ≤ p.names.length)
    (s : Store) : Obstructed p (Files.ensureFrom p depth) s := by
  induction depth generalizing s with
  | zero =>
    have hstart : Obstructed p (Files.ensureDirectory ⟨p.anchor, p.names.take 0⟩) s :=
      obstructed_ensureDirectory (locate_ne_missing (.inl rfl))
    rwa [List.take_zero] at hstart
  | succ depth ih =>
    have hparent : (Path.mk p.anchor (p.names.take (depth + 1))).parent =
        ⟨p.anchor, p.names.take depth⟩ := by
      refine congrArg (Path.mk p.anchor) ?_
      rw [List.dropLast_eq_take, List.length_take, Nat.min_eq_left hdepth, List.take_take,
        Nat.add_sub_cancel, Nat.min_eq_left (Nat.le_succ depth)]
    rw [Files.ensureFrom]
    refine Obstructed.bind (fun _ _ => .ok ()) fun e after hmake => ?_
    rcases makeDirectory_error (congrArg Prod.fst hmake) with ⟨rfl, hnul⟩ | ⟨fault, rfl, -⟩
    · exact obstructed_unlessDirectory _ (hasNul_of_take hnul)
    · by_cases hfault : fault = .missing
      · subst hfault
        refine Obstructed.bind (fun dirs habove => ?_) fun e dirs habove => ?_
        · -- the directory above was made
          have hthere := leaves_ensureFrom p depth after dirs habove
          exact obstructed_ensureDirectory (locate_ne_missing (.inr (hparent ▸ hthere)))
        · exact .error (ih (Nat.le_of_succ_le hdepth) after e (congrArg Prod.fst habove))
      · cases fault with
        | missing => exact absurd rfl hfault
        | _ => exact obstructed_unlessDirectory _ hfault

theorem obstructed_ensureDirectories (p : Path) (s : Store) :
    Obstructed p (Files.ensureDirectories p) s :=
  obstructed_ensureFrom p (Nat.le_refl _) s

/-- A write into a directory that is there. -/
theorem write_stops {bytes : List UInt8} (hparent : dirs.find p.parent = .ok .directory)
    (h : dirs.write p bytes = (.error e, after)) : Stops p e := by
  unfold write at h
  split at h
  · cases h
    exact ‹_›
  · have hreached : dirs.locate p ≠ .error .missing := locate_ne_missing (.inr hparent)
    cases hlocate : dirs.locate p with
    | error fault =>
      rw [hlocate] at h hreached
      cases h
      rintro rfl
      exact hreached rfl
    | ok names =>
      rw [hlocate] at h
      dsimp only at h
      split at h
      · cases h
        exact nofun
      · cases h

end JavaRender.Store
