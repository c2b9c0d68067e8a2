import JavaRender.Proofs.Settings.Typing

/-!
What the build section of a document does to settings. Its settings are taken one after the other,
each with a look at nothing but its own name; main statement: the section is taken as a whole, or
what came before its first fault stays.
-/
namespace JavaRender.Settings

open Toml

def given {α : Type} (name : String) (act : Value → Except SettingsError α) (build : Value) :
    Option α :=
  match lookUp name build with
  | .ok (some v) => (act v).toOption
  | _ => none

def withSource (base : Path) (data : Table) (s : Settings) : Settings :=
  { s with source := (given "source" (pathFrom base) (buildOf data)).getD s.source }

def withOutput (base : Path) (data : Table) (s : Settings) : Settings :=
  { s with output := ((given "output" (pathFrom base) (buildOf data)).map .file).or s.output }

def withTerminator (data : Table) (s : Settings) : Settings :=
  { s with terminator := (given "newline" terminatorOf (buildOf data)).getD s.terminator }

/-- The settings after a fault in the build section of a document: the source, the output and the
newline style are taken in this order up to the first that is at fault. -/
inductive Interrupted (base : Path) (data : Table) (s : Settings) : Settings → Prop
  | atSource : Misplaced IsText "source" (buildOf data) → Interrupted base data s s
  | atOutput : ¬ Misplaced IsText "source" (buildOf data) →
      Misplaced IsText "output" (buildOf data) → Interrupted base data s (withSource base data s)
  | atNewline : ¬ Misplaced IsText "source" (buildOf data) →
      ¬ Misplaced IsText "output" (buildOf data) →
      Misplaced Comparable "newline" (buildOf data) ∨ UnknownStyle data →
      Interrupted base data s (withOutput base data (withSource base data s))

/-- The other two settings are as they were. -/
theorem Interrupted.frame {base : Path} {data : Table} {s after : Settings}
    (h : Interrupted base data s after) :
    after.terminator = s.terminator ∧ after.verbose = s.verbose := by
  cases h <;> exact ⟨rfl, rfl⟩

section Sections

theorem Judges.of_error {bad wrong : Prop} {e : SettingsError} (h : Judges bad wrong (.error e)) :
    bad ∨ wrong := by
  cases h with
  | told _ _ hwrong => exact .inr hwrong
  | untold _ hbad => exact .inl hbad

theorem Judges.of_ok {bad wrong : Prop} (h : Judges bad wrong (.ok ())) : ¬ bad ∧ ¬ wrong := by
  cases h with
  | ok hfine hright => exact ⟨hfine, hright⟩

variable {α : Type} {name : String} {act : Value → Except SettingsError α}
  {good wrong : Value → Prop}

/-- A setting that cannot be taken changes nothing, and any other one only what it gives. -/
theorem taking_cases (hname : name.toList ≠ [])
    (hact : ∀ v, Judges (¬ good v) (wrong v) ((act v).map fun _ => ())) (build : Value)
    (update : α → Settings → Settings) (next : Change Unit) (s : Settings) :
    (∃ e, (taking name act build update next).run s = (.error e, s) ∧
        (Misplaced good name build ∨ ∃ v, Under name v build ∧ wrong v)) ∨
      (¬ Misplaced good name build ∧ ¬ ∃ v, Under name v build ∧ wrong v) ∧
        (taking name act build update next).run s =
          next.run ((given name act build).elim s fun a => update a s) := by
  have hjudged := judges_taken name hname hact build
  rw [taken] at hjudged
  rw [taking_run, given]
  cases hlook : lookUp name build with
  | error e =>
    rw [hlook] at hjudged
    exact .inl ⟨e, rfl, hjudged.of_error⟩
  | ok found =>
    rw [hlook] at hjudged
    cases found with
    | none => exact .inr ⟨hjudged.of_ok, rfl⟩
    | some v =>
      dsimp only at hjudged ⊢
      cases hv : act v with
      | error e =>
        rw [hv] at hjudged
        exact .inl ⟨e, rfl, hjudged.of_error⟩
      | ok a =>
        rw [hv] at hjudged
        exact .inr ⟨hjudged.of_ok, rfl⟩

/-- A path is taken unless the value under its name is of the wrong kind. -/
theorem taking_path (hname : name.toList ≠ []) (base : Path) (build : Value)
    (update : Path → Settings → Settings) (next : Change Unit) (s : Settings) :
    (Misplaced IsText name build ∧
        ∃ e, (taking name (pathFrom base) build update next).run s = (.error e, s)) ∨
      ¬ Misplaced IsText name build ∧ (taking name (pathFrom base) build update next).run s =
        next.run ((given name (pathFrom base) build).elim s fun p => update p s) := by
  rcases taking_cases hname (judges_pathFrom base) build update next s with
    ⟨e, hrun, hfault⟩ | ⟨⟨hfine, -⟩, hrun⟩
  · refine .inl ⟨hfault.resolve_right ?_, e, hrun⟩
    rintro ⟨-, -, hnever⟩
    exact hnever
  · exact .inr ⟨hfine, hrun⟩

/-- A value that is as it should be is taken from a table. -/
theorem taking_table {β : Type} {members : List (String × Value)} {found : Option β}
    {value : β → Value} {result : β → α} (hlookup : members.lookup name = found.map value)
    (hact : ∀ b, act (value b) = .ok (result b)) (update : α → Settings → Settings)
    (next : Change Unit) (s : Settings) :
    (taking name act (.table members) update next).run s =
      next.run ((found.map result).elim s fun a => update a s) := by
  rw [taking_run, lookUp, hlookup]
  cases found with
  | none => rfl
  | some b =>
    dsimp only [Option.map_some, Option.elim_some]
    rw [hact]

end Sections

/-- A build section is taken as a whole, or up to its first fault. -/
theorem applyBuild_cases (base : Path) (data : Table) (s : Settings) :
    (∃ e after, (applyBuild data base).run s = (.error e, after) ∧
        Interrupted base data s after) ∨
      (¬ BadBuild data ∧ ¬ UnknownStyle data) ∧ (applyBuild data base).run s =
        (.ok (), withTerminator data (withOutput base data (withSource base data s))) := by
  have hsource : ((given "source" (pathFrom base) (buildOf data)).elim s fun p =>
      { s with source := p }) = withSource base data s := by
    rw [withSource]
    cases given "source" (pathFrom base) (buildOf data) <;> rfl
  have houtput (s : Settings) : ((given "output" (pathFrom base) (buildOf data)).elim s fun p =>
      { s with output := some (.file p) }) = withOutput base data s := by
    rw [withOutput]
    cases given "output" (pathFrom base) (buildOf data) <;> rfl
  have hnewline (s : Settings) : ((given "newline" terminatorOf (buildOf data)).elim s fun t =>
      { s with terminator := t }) = withTerminator data s := by
    rw [withTerminator]
    cases given "newline" terminatorOf (buildOf data) <;> rfl
  -- each step either stops with what the steps before it have changed or hands it on
  rw [applyBuild_eq]
  rcases taking_path (show "source".toList ≠ [] by decide) base (buildOf data) _ _ s with
    ⟨hbad, e, hrun⟩ | ⟨hfine, hrun⟩
  · exact .inl ⟨e, s, hrun, .atSource hbad⟩
  rw [hrun, hsource]
  rcases taking_path (show "output".toList ≠ [] by decide) base (buildOf data) _ _ _ with
    ⟨hbad, e, hrun⟩ | ⟨hfine', hrun⟩
  · exact .inl ⟨e, _, hrun, .atOutput hfine hbad⟩
  rw [hrun, houtput]
  rcases taking_cases (show "newline".toList ≠ [] by decide) judges_terminatorOf (buildOf data)
    _ _ _ with ⟨e, hrun, hbad⟩ | ⟨⟨hfine'', hknown⟩, hrun⟩
  · exact .inl ⟨e, _, hrun, .atNewline hfine hfine' hbad⟩
  · rw [hrun, hnewline]
    exact .inr ⟨⟨by simp only [BadBuild, hfine, hfine', hfine'', or_self, not_false_eq_true],
      hknown⟩, rfl⟩

end JavaRender.Settings
