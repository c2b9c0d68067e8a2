import Mathlib.Data.List.Infix
import JavaRender.Settings.Load

/-!
Documents of configuration files and what is wrong with them. A document is refused for what it
lacks or names wrongly, and nobody asks of which kind its values are; main statement: taking its
settings fails exactly on refused and on ill-typed documents, and only a refusal is reported.
-/
namespace JavaRender.Settings

open Toml

/-- The status of a run that fails for its settings, if the failure is reported at all. -/
def errorStatus? : SettingsError → Option Nat
  | .missingFile _ | .invalid _ _ | .noSystem _ | .noVersion _ | .unknownVersion _ _
  | .unknownNewline _ | .file (.system .missing _) => some 1
  | .file (.system _ _) => some 2
  | _ => none

inductive Under (name : String) (v : Value) : Value → Prop
  | intro {members : List (String × Value)} : members.lookup name = some v →
      Under name v (.table members)

/-- A section in which a name cannot be looked up: no table, and not a list or a text without the
name. -/
def Unsearchable (name : String) : Value → Prop
  | .table _ => False
  | .array items => .text name ∈ items
  | .text s => name.toList <:+: s.toList
  | _ => True

def Misplaced (good : Value → Prop) (name : String) (build : Value) : Prop :=
  Unsearchable name build ∨ ∃ v, Under name v build ∧ ¬ good v

def IsText (v : Value) : Prop := ∃ s, v = .text s

def Comparable (v : Value) : Prop :=
  (∀ items, v ≠ .array items) ∧ (∀ members, v ≠ .table members) ∧ v.hasLongWhole = false

def buildOf (data : Table) : Value := (data.lookup "build").getD (.table [])

def BadBuild (data : Table) : Prop :=
  Misplaced IsText "source" (buildOf data) ∨ Misplaced IsText "output" (buildOf data) ∨
    Misplaced Comparable "newline" (buildOf data)

def UnknownStyle (data : Table) : Prop :=
  ∃ style, Under "newline" style (buildOf data) ∧ ∀ n : Newline, style ≠ .text n.name

def Version (data : Table) (v : Value) : Prop :=
  ∃ members, data.lookup "system" = some (.table members) ∧ members.lookup "version" = some v

/-- A document in which a value is not of the kind that is taken for granted, or the version is too
long to be spelled. -/
inductive IllTyped (data : Table) : Prop
  | system {v : Value} : data.lookup "system" = some v → (∀ members, v ≠ .table members) →
      IllTyped data
  | version {v : Value} : Version data v → v.spelling? = none → IllTyped data
  | build {v : Value} : Version data v → v.spelling? = some "1" → BadBuild data → IllTyped data

inductive Refused (data : Table) : Prop
  | noSystem : data.lookup "system" = none → Refused data
  | noVersion {members : List (String × Value)} : data.lookup "system" = some (.table members) →
      members.lookup "version" = none → Refused data
  | otherVersion {v : Value} {shown : String} : Version data v → v.spelling? = some shown →
      shown ≠ "1" → Refused data
  | newline {v : Value} : Version data v → v.spelling? = some "1" → UnknownStyle data →
      Refused data

/-- A result is a failure that nobody reports if something is `bad`, which comes first, else one of
which the user is told if something is `wrong`. -/
inductive Judges (bad wrong : Prop) : Except SettingsError Unit → Prop
  | ok : ¬ bad → ¬ wrong → Judges bad wrong (.ok ())
  | told {e : SettingsError} : errorStatus? e = some 1 → ¬ bad → wrong → Judges bad wrong (.error e)
  | untold {e : SettingsError} : errorStatus? e = none → bad → Judges bad wrong (.error e)

theorem Judges.congr {bad bad' wrong wrong' : Prop} {r : Except SettingsError Unit}
    (h : Judges bad wrong r) (hbad : bad ↔ bad') (hwrong : wrong ↔ wrong') :
    Judges bad' wrong' r := by
  rw [← propext hbad, ← propext hwrong]
  exact h

/-- What comes behind a success adds what is bad or wrong with itself. -/
theorem Judges.bind {bad bad' wrong : Prop} {r next : Except SettingsError Unit}
    (h : Judges bad False r) (hnext : Judges bad' wrong next) :
    Judges (bad ∨ bad') wrong (r.bind fun _ => next) := by
  cases h with
  | ok hfine _ => exact hnext.congr (by rw [or_iff_right hfine]) Iff.rfl
  | told _ _ hwrong => exact hwrong.elim
  | untold huntold hbad => exact .untold huntold (.inl hbad)

section Sections

variable {name : String} {build : Value}

theorem isSome_splitAtMark? {mark : List Char} (hmark : mark ≠ []) (cs : List Char) :
    (splitAtMark? mark cs).isSome = true ↔ mark <:+: cs := by
  induction cs with
  | nil => simp [splitAtMark?, hmark]
  | cons c rest ih =>
    rw [splitAtMark?, List.infix_cons_iff, ← ih]
    by_cases hstart : mark.isPrefixOf (c :: rest) = true
    · rw [if_pos hstart]
      exact iff_of_true rfl (.inl (List.isPrefixOf_iff_prefix.mp hstart))
    · rw [if_neg hstart, Option.isSome_map]
      exact (or_iff_right (mt List.isPrefixOf_iff_prefix.mpr hstart)).symm

/-- Looking a name up fails exactly where it cannot be looked up, and this is never reported. -/
theorem lookUp_cases (hname : name.toList ≠ []) (build : Value) :
    (∃ e, lookUp name build = .error e ∧ errorStatus? e = none ∧ Unsearchable name build) ∨
      (lookUp name build = .ok none ∧ ¬ Unsearchable name build ∧ ∀ v, ¬ Under name v build) ∨
      ∃ v, lookUp name build = .ok (some v) ∧ ¬ Unsearchable name build ∧ Under name v build ∧
        ∀ v', Under name v' build → v' = v := by
  have hnowhere : (∀ members, build ≠ .table members) → ∀ v, ¬ Under name v build := by
    rintro htable v ⟨-⟩
    exact htable _ rfl
  cases build with
  | table members =>
    cases hlookup : members.lookup name with
    | none =>
      refine .inr (.inl ⟨by rw [lookUp, hlookup], id, ?_⟩)
      rintro v ⟨hv⟩
      cases hlookup.symm.trans hv
    | some v =>
      refine .inr (.inr ⟨v, by rw [lookUp, hlookup], id, ⟨hlookup⟩, ?_⟩)
      rintro v' ⟨hv'⟩
      exact Option.some.inj (hv'.symm.trans hlookup)
  | array items =>
    by_cases hinside : .text name ∈ items
    · refine .inl ⟨.listIndexed, ?_, rfl, hinside⟩
      unfold lookUp
      exact if_pos (List.any_eq_true.mpr ⟨_, hinside, beq_self_eq_true name⟩)
    · refine .inr (.inl ⟨?_, hinside, hnowhere nofun⟩)
      unfold lookUp
      refine if_neg fun hany => hinside ?_
      obtain ⟨v, hv, hsame⟩ := List.any_eq_true.mp hany
      cases v with
      | text s =>
        obtain rfl := eq_of_beq hsame
        exact hv
      | _ => cases hsame
  | text s =>
    by_cases hinside : (splitAtMark? name.toList s.toList).isSome = true
    · refine .inl ⟨.textIndexed, ?_, rfl, (isSome_splitAtMark? hname _).mp hinside⟩
      rw [lookUp, if_pos hinside]
    · refine .inr (.inl ⟨?_, mt (isSome_splitAtMark? hname _).mpr hinside, hnowhere nofun⟩)
      rw [lookUp, if_neg hinside]
  | _ => exact .inl ⟨_, rfl, rfl, trivial⟩

def taken {α : Type} (name : String) (act : Value → Except SettingsError α) (build : Value) :
    Except SettingsError Unit :=
  match lookUp name build with
  | .error e => .error e
  | .ok none => .ok ()
  | .ok (some v) => (act v).map fun _ => ()

theorem judges_taken {α : Type} (name : String) {act : Value → Except SettingsError α}
    {good wrong : Value → Prop} (hname : name.toList ≠ [])
    (hact : ∀ v, Judges (¬ good v) (wrong v) ((act v).map fun _ => ())) (build : Value) :
    Judges (Misplaced good name build) (∃ v, Under name v build ∧ wrong v)
      (taken name act build) := by
  unfold taken Misplaced
  rcases lookUp_cases hname build with
    ⟨e, hlook, huntold, hbad⟩ | ⟨hlook, hfine, hnone⟩ | ⟨v, hlook, hfine, hv, hunique⟩
  · rw [hlook]
    exact .untold huntold (.inl hbad)
  · rw [hlook]
    refine .ok ?_ fun ⟨v, hv, _⟩ => hnone v hv
    rintro (hbad | ⟨v, hv, -⟩)
    · exact hfine hbad
    · exact hnone v hv
  · rw [hlook]
    refine (hact v).congr ?_ ?_
    · rw [or_iff_right hfine]
      refine ⟨fun hbad => ⟨v, hv, hbad⟩, fun ⟨v', hv', hbad⟩ => ?_⟩
      rwa [← hunique v' hv']
    · refine ⟨fun hwrong => ⟨v, hv, hwrong⟩, fun ⟨v', hv', hwrong⟩ => ?_⟩
      rwa [← hunique v' hv']

theorem judges_pathFrom (base : Path) (v : Value) :
    Judges (¬ IsText v) False ((pathFrom base v).map fun _ => ()) := by
  cases v with
  | text s => exact .ok (not_not_intro ⟨s, rfl⟩) id
  | _ => exact .untold rfl fun ⟨_, h⟩ => nomatch h

theorem ofName?_eq_some {s : String} {n : Newline} : Newline.ofName? s = some n ↔ s = n.name := by
  constructor
  · intro h
    have hfound := List.find?_some h
    exact (eq_of_beq hfound).symm
  · rintro rfl
    exact Newline.ofName?_name n

/-- A value that is neither a text nor a section is no style, and is shown if it can be. -/
theorem judges_shown {v : Value} (htext : ∀ s, v ≠ .text s) (harray : ∀ items, v ≠ .array items)
    (htable : ∀ members, v ≠ .table members) :
    Judges (¬ Comparable v) (∀ n : Newline, v ≠ .text n.name)
      ((terminatorOf v).map fun _ => ()) := by
  rw [terminatorOf, Value.display?]
  · by_cases hlong : v.hasLongWhole = true
    · rw [if_pos hlong]
      exact .untold rfl fun ⟨_, _, hshort⟩ => Bool.false_ne_true (hshort.symm.trans hlong)
    · rw [if_neg hlong]
      exact .told rfl (not_not_intro ⟨harray, htable, Bool.eq_false_iff.mpr hlong⟩)
        fun n => htext n.name
  all_goals assumption

theorem judges_terminatorOf (v : Value) :
    Judges (¬ Comparable v) (∀ n : Newline, v ≠ .text n.name)
      ((terminatorOf v).map fun _ => ()) := by
  cases v with
  | text s =>
    have hcomparable : Comparable (.text s) := ⟨nofun, nofun, rfl⟩
    dsimp only [terminatorOf]
    cases hstyle : Newline.ofName? s with
    | some n =>
      obtain rfl := ofName?_eq_some.mp hstyle
      exact .ok (not_not_intro hcomparable) fun hwrong => hwrong n rfl
    | none =>
      refine .told rfl (not_not_intro hcomparable) fun n hn => ?_
      rw [ofName?_eq_some.mpr (Value.text.inj hn)] at hstyle
      cases hstyle
  | array items => exact .untold rfl fun h => h.1 items rfl
  | table members => exact .untold rfl fun h => h.2.1 members rfl
  | _ => exact judges_shown nofun nofun nofun

end Sections

def Ends (change : Change Unit) (r : Except SettingsError Unit) : Prop :=
  ∀ s : Settings, (change.run s).1 = r

def taking {α : Type} (name : String) (act : Value → Except SettingsError α) (build : Value)
    (update : α → Settings → Settings) (next : Change Unit) : Change Unit := do
  if let some v ← lookUp name build then
    let a ← act v
    modify (update a)
  next

/-- A run of it reads the setting, and only then changes something and goes on. -/
theorem taking_run {α : Type} (name : String) (act : Value → Except SettingsError α)
    (build : Value) (update : α → Settings → Settings) (next : Change Unit) (s : Settings) :
    (taking name act build update next).run s =
      match lookUp name build with
      | .error e => (.error e, s)
      | .ok none => next.run s
      | .ok (some v) =>
        match act v with
        | .error e => (.error e, s)
        | .ok a => next.run (update a s) := by
  have hlift : ∀ {β : Type} (e : Except SettingsError β) (f : β → Change Unit),
      ((liftM e : Change β) >>= f).run s =
        match e with
        | .ok b => (f b).run s
        | .error e => (.error e, s) := by
    intro β e f
    cases e <;> rfl
  unfold taking
  rw [hlift]
  cases lookUp name build with
  | error e => rfl
  | ok found =>
    cases found with
    | none => rfl
    | some v =>
      dsimp only
      rw [hlift]
      cases act v <;> rfl

theorem ends_taking {α : Type} (name : String) (act : Value → Except SettingsError α)
    (build : Value) (update : α → Settings → Settings) {next : Change Unit}
    {r : Except SettingsError Unit} (hnext : Ends next r) :
    Ends (taking name act build update next) ((taken name act build).bind fun _ => r) := by
  intro s
  rw [taking_run, taken]
  cases lookUp name build with
  | error e => rfl
  | ok found =>
    cases found with
    | none => exact hnext s
    | some v =>
      dsimp only
      cases act v with
      | error e => rfl
      | ok a => exact hnext (update a s)

theorem applyBuild_eq (data : Table) (base : Path) :
    applyBuild data base =
      taking "source" (pathFrom base) (buildOf data) (fun p s => { s with source := p })
        (taking "output" (pathFrom base) (buildOf data)
          (fun p s => { s with output := some (.file p) })
          (taking "newline" terminatorOf (buildOf data) (fun t s => { s with terminator := t })
            (pure ()))) :=
  rfl

theorem judges_applyBuild (data : Table) (base : Path) :
    ∃ r, Ends (applyBuild data base) r ∧ Judges (BadBuild data) (UnknownStyle data) r := by
  have hnothing : ∀ name, (∃ v, Under name v (buildOf data) ∧ False) ↔ False := by simp
  have hsource := judges_taken "source" (by decide) (judges_pathFrom base) (buildOf data)
  have houtput := judges_taken "output" (by decide) (judges_pathFrom base) (buildOf data)
  have hnewline := judges_taken "newline" (by decide) judges_terminatorOf (buildOf data)
  have hend : ∀ r : Except SettingsError Unit, (r.bind fun _ => .ok ()) = r := by
    intro r
    cases r <;> rfl
  refine ⟨_, ?_, (hsource.congr Iff.rfl (hnothing _)).bind
    ((houtput.congr Iff.rfl (hnothing _)).bind hnewline)⟩
  rw [applyBuild_eq, ← hend (taken "newline" _ _)]
  exact ends_taking _ _ _ _ (ends_taking _ _ _ _ (ends_taking _ _ _ _ fun _ => rfl))

section Documents

variable {data : Table}

theorem Version.unique {v v' : Value} (h : Version data v) (h' : Version data v') : v' = v := by
  obtain ⟨members, hsystem, hversion⟩ := h
  obtain ⟨members', hsystem', hversion'⟩ := h'
  cases hsystem.symm.trans hsystem'
  exact Option.some.inj (hversion'.symm.trans hversion)

/-- What is wrong with a document of a version that can be spelled. -/
theorem illTyped_iff {v : Value} {shown : String} (h : Version data v)
    (hspelling : v.spelling? = some shown) : IllTyped data ↔ shown = "1" ∧ BadBuild data := by
  constructor
  · rintro (⟨hsystem, htable⟩ | ⟨hversion, hlong⟩ | ⟨hversion, hone, hbad⟩)
    · obtain ⟨members, hmembers, -⟩ := h
      exact absurd (Option.some.inj (hsystem.symm.trans hmembers)) (htable members)
    · rw [h.unique hversion, hspelling] at hlong
      cases hlong
    · rw [h.unique hversion, hspelling] at hone
      exact ⟨Option.some.inj hone, hbad⟩
  · rintro ⟨rfl, hbad⟩
    exact .build h hspelling hbad

theorem refused_iff {v : Value} {shown : String} (h : Version data v)
    (hspelling : v.spelling? = some shown) :
    Refused data ↔ shown ≠ "1" ∨ shown = "1" ∧ UnknownStyle data := by
  constructor
  · rintro (hsystem | ⟨hsystem, hnone⟩ | ⟨hversion, hshown, hother⟩ | ⟨hversion, hone, hstyle⟩)
    · obtain ⟨members, hmembers, -⟩ := h
      cases hsystem.symm.trans hmembers
    · obtain ⟨members, hmembers, hversion⟩ := h
      cases hsystem.symm.trans hmembers
      cases hnone.symm.trans hversion
    · rw [h.unique hversion, hspelling] at hshown
      exact .inl (Option.some.inj hshown ▸ hother)
    · rw [h.unique hversion, hspelling] at hone
      exact .inr ⟨Option.some.inj hone, hstyle⟩
  · rintro (hother | ⟨rfl, hstyle⟩)
    · exact .otherVersion h hspelling hother
    · exact .newline h hspelling hstyle

/-- Without a version there is only the system section to be of the wrong kind. -/
theorem not_illTyped (hsystem : ∀ v, data.lookup "system" = some v → ∃ members, v = .table members)
    (hversion : ∀ v, ¬ Version data v) : ¬ IllTyped data := by
  rintro (⟨hv, htable⟩ | ⟨hv, -⟩ | ⟨hv, -, -⟩)
  · obtain ⟨members, hmembers⟩ := hsystem _ hv
    exact htable members hmembers
  · exact hversion _ hv
  · exact hversion _ hv

/-- The version of a document that has one which can be spelled, or why there is none. -/
theorem versionOf_cases (path : Path) (data : Table) :
    (∃ e, versionOf path data = .error e ∧ Judges (IllTyped data) (Refused data) (.error e)) ∨
      ∃ v shown, versionOf path data = .ok shown ∧ Version data v ∧ v.spelling? = some shown := by
  unfold versionOf
  cases hsystem : data.lookup "system" with
  | none =>
    refine .inl ⟨_, rfl, .told rfl (not_illTyped ?_ ?_) (.noSystem hsystem)⟩
    · intro v hv
      cases hsystem.symm.trans hv
    · rintro v ⟨members, hmembers, -⟩
      cases hsystem.symm.trans hmembers
  | some system =>
    have hill : (∀ members, system ≠ .table members) → IllTyped data := .system hsystem
    cases system with
    | table members =>
      dsimp only
      cases hversion : members.lookup "version" with
      | none =>
        refine .inl ⟨_, rfl, .told rfl (not_illTyped ?_ ?_) (.noVersion hsystem hversion)⟩
        · intro v hv
          exact ⟨members, (Option.some.inj (hsystem.symm.trans hv)).symm⟩
        · rintro v ⟨members', hmembers, hv⟩
          cases hsystem.symm.trans hmembers
          cases hversion.symm.trans hv
      | some v =>
        dsimp only
        cases hspelling : v.spelling? with
        | none =>
          exact .inl ⟨_, rfl, .untold rfl (.version ⟨members, hsystem, hversion⟩ hspelling)⟩
        | some shown => exact .inr ⟨v, shown, rfl, ⟨members, hsystem, hversion⟩, hspelling⟩
    | _ => exact .inl ⟨_, rfl, .untold rfl (hill nofun)⟩

/-- Taking the settings of a document fails exactly on ill-typed and on refused documents, and the
failure is reported only on refused ones that are not ill-typed. -/
theorem judges_applyDocument (path : Path) (data : Table) :
    ∃ r, Ends (applyDocument path data) r ∧ Judges (IllTyped data) (Refused data) r := by
  rcases versionOf_cases path data with ⟨e, herror, hjudged⟩ | ⟨v, shown, hok, hversion, hspelling⟩
  · refine ⟨.error e, fun s => ?_, hjudged⟩
    unfold applyDocument
    rw [herror]
    rfl
  · have hrun : ∀ s, (applyDocument path data).run s = (if shown = "1" then
        applyBuild data path.parent else throw (.unknownVersion path shown)).run s := by
      intro s
      unfold applyDocument
      rw [hok]
      rfl
    rw [illTyped_iff hversion hspelling, refused_iff hversion hspelling]
    by_cases hone : shown = "1"
    · obtain ⟨r, hends, hjudged⟩ := judges_applyBuild data path.parent
      refine ⟨r, fun s => ?_, hjudged.congr (by simp [hone]) (by simp [hone])⟩
      rw [hrun, if_pos hone]
      exact hends s
    · refine ⟨.error (.unknownVersion path shown), fun s => ?_, ?_⟩
      · rw [hrun, if_neg hone]
        rfl
      · exact .told rfl (fun h => hone h.1) (.inl hone)

theorem ends_of_illTyped (path : Path) (h : IllTyped data) :
    ∃ e, Ends (applyDocument path data) (.error e) ∧ errorStatus? e = none := by
  obtain ⟨r, hends, hjudged⟩ := judges_applyDocument path data
  cases hjudged with
  | ok hwell _ => exact absurd h hwell
  | told _ hwell _ => exact absurd h hwell
  | untold hstatus _ => exact ⟨_, hends, hstatus⟩

theorem ends_of_refused (path : Path) (hwell : ¬ IllTyped data) (h : Refused data) :
    ∃ e, Ends (applyDocument path data) (.error e) ∧ errorStatus? e = some 1 := by
  obtain ⟨r, hends, hjudged⟩ := judges_applyDocument path data
  cases hjudged with
  | ok _ hfine => exact absurd h hfine
  | told hstatus _ _ => exact ⟨_, hends, hstatus⟩
  | untold _ hill => exact absurd hill hwell

end Documents

end JavaRender.Settings
