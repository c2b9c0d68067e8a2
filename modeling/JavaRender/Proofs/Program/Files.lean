import JavaRender.Proofs.Build.Agreement
import JavaRender.Proofs.CommandLine.Choice
import JavaRender.Proofs.Files.Growth
import JavaRender.Proofs.Program.Settled

/-!
The files behind a run. Loading and rendering only read, so a result is made in full before a file
is opened for it, but it is encoded only then; main statement: a finished build changes one file,
which then holds the text made of its source, a build whose text cannot be encoded empties that
file, and any other run leaves every file as it was.
-/
namespace JavaRender

namespace Build

open CommandLine (ok_of_bind)

variable {stack : Stack} {s : Settings} {before after : Store} {out : Output} {text : List Point}

theorem effectiveOutput?_of_outputOf (h : outputOf s = .ok out) :
    s.effectiveOutput? = some out := by
  unfold outputOf at h
  split at h <;> cases h
  assumption

/-- A result that was reached before any text is encoded. -/
def Early {α : Type} (r : Except Failure α) : Prop := ∀ e, r ≠ .error (.notEncodable e)

namespace Early

theorem ok {α : Type} (a : α) : Early (.ok a : Except Failure α) := nofun

theorem bind {α β : Type} {r : Except Failure α} {f : α → Except Failure β} (hr : Early r)
    (hf : ∀ a, Early (f a)) : Early (r >>= f) := by
  cases r with
  | ok a => exact hf a
  | error failure => exact fun e h => hr e (congrArg Except.error (Except.error.inj h))

theorem file {α : Type} (r : Except FileError α) : Early (r.mapError .file) := by
  cases r <;> exact nofun

theorem load {α : Type} (r : Except Document.LoadError α) : Early (r.mapError .load) := by
  cases r <;> exact nofun

theorem tree {α : Type} (r : Except Tree.Fault α) : Early (r.mapError .tree) := by
  cases r <;> exact nofun

end Early

theorem early_loadText (cs : List Char) : Early (loadText stack cs) := by
  refine (Early.load _).bind fun v => ?_
  split
  · exact (Early.load _).bind fun node => .ok _
  · exact nofun

theorem early_renderText (source : Source) (terminator : String) :
    Early (renderText stack source terminator).1 := by
  unfold renderText
  split
  · exact Early.tree _
  · exact nofun

/-- Nothing is encoded while a text is made. -/
theorem early_made (stack : Stack) (s : Settings) (before : Store) :
    Early (made stack s before) := by
  have hplace : Early (outputOf s) := by
    unfold outputOf
    split <;> exact nofun
  refine hplace.bind fun out => Early.bind ?_ fun source => ?_
  · refine (Early.file _).bind fun bytes => (Early.load _).bind fun text => ?_
    exact early_loadText text
  · exact (early_renderText source s.terminator).bind fun text => .ok _

/-- What is made was loaded from the source and rendered. -/
theorem made_ok (h : made stack s before = .ok (out, text)) :
    s.effectiveOutput? = some out ∧ ∃ bytes source, before.read s.source = .ok bytes ∧
      loadBytes stack bytes = .ok source ∧ (renderText stack source s.terminator).1 = .ok text := by
  obtain ⟨o, hplace, h⟩ := ok_of_bind h
  obtain ⟨source, hloaded, h⟩ := ok_of_bind h
  obtain ⟨points, hrender, h⟩ := ok_of_bind h
  cases h
  refine ⟨effectiveOutput?_of_outputOf hplace, ?_⟩
  cases hread : before.read s.source with
  | error e =>
    rw [loaded, hread] at hloaded
    cases hloaded
  | ok bytes =>
    rw [loaded_of_read hread] at hloaded
    exact ⟨bytes, source, rfl, hloaded, hrender⟩

/-- Writing a text leaves a file that holds its bytes, or every file as it was. -/
theorem written_files {path : Path} (text : List Point) (before : Store) :
    (∃ e after, written path text before = (.error e, after) ∧ Store.SameFiles before after) ∨
      ∃ after, written path text before = (.ok (), after) ∧
        Store.Delivered before after path ((Utf8.encodePoints text).toOption.getD []) := by
  have hgrown := (Store.grows_ensureDirectories path.parent before).of_parent
  unfold written
  rcases hdirs : (Files.ensureDirectories path.parent : StateM Store _) before with ⟨r, dirs⟩
  rw [hdirs] at hgrown
  cases r with
  | error e => exact .inl ⟨e, dirs, rfl, hgrown.sameFiles⟩
  | ok _ =>
    dsimp only
    cases hwrite : dirs.write path ((Utf8.encodePoints text).toOption.getD []) with
    | mk r after =>
      cases r with
      | error e =>
        obtain rfl := Store.write_error hwrite
        exact .inl ⟨e, after, rfl, hgrown.sameFiles⟩
      | ok _ => exact .inr ⟨after, rfl, Store.delivered_of_write hgrown hwrite⟩

/-- A build leaves every file as it was or its result is all that may have changed, which is empty
if its text cannot be encoded. -/
theorem onStore_files (stack : Stack) (s : Settings) (before : Store) :
    (∃ failure after, onStore stack s before = (.error failure, after) ∧
        (∀ e, failure ≠ .notEncodable e) ∧ Store.SameFiles before after) ∨
      ∃ path text after, made stack s before = .ok (.file path, text) ∧
        ((∃ e, onStore stack s before = (.error (.notEncodable e), after) ∧
            (∃ n, .half n ∈ text) ∧ Store.Delivered before after path []) ∨
          onStore stack s before = (.ok path, after) ∧ (∀ n, .half n ∉ text) ∧
            ∃ bytes, Utf8.encodePoints text = .ok bytes ∧
              Store.Delivered before after path bytes) := by
  cases hmade : made stack s before with
  | error failure =>
    refine .inl ⟨failure, before, onStore_of_failure hmade, ?_, .refl before⟩
    rintro e rfl
    exact early_made stack s before e hmade
  | ok result =>
    obtain ⟨out, text⟩ := result
    rw [onStore_of_made hmade]
    cases out with
    | nowhere => exact .inl ⟨.noPlace, before, rfl, nofun, .refl before⟩
    | file path =>
      unfold delivered
      dsimp only
      rcases written_files text before with
        ⟨e, after, hwritten, hsame⟩ | ⟨after, hwritten, hdelivered⟩
      · rw [hwritten]
        exact .inl ⟨.file e, after, rfl, nofun, hsame⟩
      · rw [hwritten]
        refine .inr ⟨path, text, after, rfl, ?_⟩
        rcases Utf8.encodePoints_cases text with ⟨hchars, bytes, hencode⟩ | ⟨hhalf, e, hencode⟩
        · rw [hencode] at hdelivered ⊢
          exact .inr ⟨rfl, hchars, bytes, rfl, hdelivered⟩
        · rw [hencode] at hdelivered ⊢
          exact .inl ⟨e, rfl, hhalf, hdelivered⟩

end Build

namespace Program

open CommandLine

def Finishes (stack : Stack) (args : List String) (before : Store) : Prop :=
  (∃ r, CommandLine.read args = .ok (.build r)) ∧
    ((run stack args : StateM Store Outcome) before).1.ending = .exited 0

def Garbles (stack : Stack) (args : List String) (before : Store) : Prop :=
  ∃ e, ((run stack args : StateM Store Outcome) before).1.ending = .escaped (.notEncodable e)

/-- What a finished build of a request has done: the place of its result holds the text of the tree
in its source, as the bytes of the source were before, and all else is as it was. -/
def Finished (r : BuildRequest) (before after : Store) : Prop :=
  ∃ (c : Settings) (source out : Path) (terminator : String) (bytes : List UInt8) (node : Node)
    (java : String),
    (configured r : StateM Store _) before = ((.ok (), c), before) ∧
      Effective r c source out terminator ∧
      before.read source = .ok bytes ∧ Document.loadBytes bytes = .ok node ∧
      (Emitter.generate node.toTree terminator).1 = .ok java ∧
      Store.Delivered before after out (Utf8.encode java.toList)

/-- What a build of a request has done whose text cannot be encoded: half a surrogate pair is in the
text of the tree in its source, the place of the result is empty, and all else is as it was. -/
def Emptied (stack : Stack) (r : BuildRequest) (before after : Store) : Prop :=
  ∃ (c : Settings) (path out : Path) (terminator : String) (bytes : List UInt8)
    (source : Build.Source) (text : List Point) (n : Nat),
    (configured r : StateM Store _) before = ((.ok (), c), before) ∧
      Effective r c path out terminator ∧
      before.read path = .ok bytes ∧ Build.loadBytes stack bytes = .ok source ∧
      (Build.renderText stack source terminator).1 = .ok text ∧ .half n ∈ text ∧
      Store.Delivered before after out []

/-- A build command leaves every file as it was, or empties the place of its result and fails, or
its request is finished. -/
theorem runBuild_files (stack : Stack) (r : BuildRequest) (before : Store) :
    let result := (runBuild stack r : StateM Store Outcome) before
    (result.1.ending ≠ .exited 0 ∧ (∀ e, result.1.ending ≠ .escaped (.notEncodable e)) ∧
        Store.SameFiles before result.2) ∨
      (∃ e, result.1.ending = .escaped (.notEncodable e)) ∧ Emptied stack r before result.2 ∨
      result.1.ending = .exited 0 ∧ Finished r before result.2 := by
  dsimp only
  cases hsettled : settled r before with
  | error e =>
    obtain ⟨hending, hafter⟩ := runBuild_of_error stack hsettled Settings.default.source
    rw [hending, hafter, ne_eq, concluded_zero_iff]
    refine .inl ⟨nofun, fun e' => ?_, .refl before⟩
    rw [ne_eq, concluded_notEncodable_iff]
    exact nofun
  | ok s =>
    obtain ⟨hending, hafter⟩ := runBuild_of_ok stack hsettled
    obtain ⟨c, hconfigured, hoverride⟩ := settled_ok hsettled
    have happly : (configured r : StateM Store _) before = ((.ok (), c), before) := by
      rw [configured_apply, hconfigured]
    simp only [hending, hafter, ne_eq, concluded_zero_iff, concluded_notEncodable_iff]
    rcases Build.onStore_files stack s before with
      ⟨failure, after, hbuild, hearly, hsame⟩ | ⟨out, text, after, hmade, hdone⟩
    · rw [hbuild]
      refine .inl ⟨nofun, fun e he => ?_, hsame⟩
      exact hearly e (Except.error.inj he)
    · obtain ⟨hout, bytes, source, hread, hload, hrender⟩ := Build.made_ok hmade
      have heffective := effective_of_override hoverride hout
      rcases hdone with ⟨e, hbuild, ⟨n, hhalf⟩, hempty⟩ | ⟨hbuild, hchars, bytes', hencode, hfile⟩
      · rw [hbuild]
        exact .inr (.inl ⟨⟨e, rfl⟩, c, s.source, out, s.terminator, bytes, source, text, n, happly,
          heffective, hread, hload, hrender, hhalf, hempty⟩)
      · rw [hbuild]
        obtain ⟨-, java, hjava, hsame⟩ := Build.render_of_renderText hrender
        rw [hsame hchars, Utf8.encodePoints_ofString] at hencode
        cases hencode
        exact .inr (.inr ⟨⟨out, rfl⟩, c, s.source, out, s.terminator, bytes, source.replaced, java,
          happly, heffective, hread, Build.loadBytes_replaced hload, hjava, hfile⟩)

/-- A run leaves every file as it was unless it makes a text. Then the file in the place of the
result is the only one that is new or may have changed, and new directories are on the way to it: if
the text is encoded, the build is finished and the file holds it, made from the source as it was
before; if not, a failure escapes and the file is empty. -/
theorem run_files (stack : Stack) (args : List String) (before : Store) :
    (¬ Finishes stack args before ∧ ¬ Garbles stack args before ∧
        Store.SameFiles before ((run stack args : StateM Store Outcome) before).2) ∨
      (Garbles stack args before ∧ ∃ r, CommandLine.read args = .ok (.build r) ∧
        Emptied stack r before ((run stack args : StateM Store Outcome) before).2) ∨
      Finishes stack args before ∧ ∃ r, CommandLine.read args = .ok (.build r) ∧
        Finished r before ((run stack args : StateM Store Outcome) before).2 := by
  unfold Finishes Garbles
  cases hread : CommandLine.read args with
  | error stop =>
    have hrun : (run stack args : StateM Store Outcome) before =
        (⟨.exited stop.status, stop.output, stop.errors⟩, before) := by
      rw [run, hread]
      rfl
    rw [hrun]
    refine .inl ⟨?_, ?_, .refl before⟩
    · rintro ⟨⟨r, hbuild⟩, -⟩
      cases hbuild
    · rintro ⟨e, hescaped⟩
      cases hescaped
  | ok request =>
    cases request with
    | version =>
      have hrun : (run stack args : StateM Store Outcome) before =
          (⟨.exited 0, Settings.version ++ "\n", ""⟩, before) := by
        rw [run, hread]
        rfl
      rw [hrun]
      refine .inl ⟨?_, ?_, .refl before⟩
      · rintro ⟨⟨r, hbuild⟩, -⟩
        cases hbuild
      · rintro ⟨e, hescaped⟩
        cases hescaped
    | build r =>
      have hrun : (run stack args : StateM Store Outcome) before =
          (runBuild stack r : StateM Store Outcome) before := by
        rw [run, hread]
      rw [hrun]
      rcases runBuild_files stack r before with
        ⟨hending, hwhole, hsame⟩ | ⟨hgarbled, hempty⟩ | ⟨hending, hfinished⟩
      · exact .inl ⟨fun hfinishes => hending hfinishes.2, fun ⟨e, he⟩ => hwhole e he, hsame⟩
      · exact .inr (.inl ⟨hgarbled, r, rfl, hempty⟩)
      · exact .inr (.inr ⟨⟨⟨r, rfl⟩, hending⟩, r, rfl, hfinished⟩)

/-- A field whose value is half a surrogate pair is rendered, and the result of an earlier build is
lost over it. -/
theorem run_halfPair :
    ((run .ample ["build"] : StateM Store Outcome) Build.halfPairStore).1.ending =
        .escaped (.notEncodable ⟨37, 1, 0xD800⟩) ∧
      Store.entry? ((run .ample ["build"] : StateM Store Outcome) Build.halfPairStore).2
          ["Main.java"] =
        some (.file []) := by
  decide +kernel

/-- So a run that fails may leave other files than it found. -/
theorem halfPair_changes_files :
    ((run .ample ["build"] : StateM Store Outcome) Build.halfPairStore).1.ending ≠ .exited 0 ∧
      ¬ Store.SameFiles Build.halfPairStore
        ((run .ample ["build"] : StateM Store Outcome) Build.halfPairStore).2 := by
  obtain ⟨hending, hafter⟩ := run_halfPair
  have hbefore : Build.halfPairStore.entry? ["Main.java"] ≠ some (.file []) := by decide +kernel
  refine ⟨?_, fun hsame => hbefore ((hsame ["Main.java"] []).mp hafter)⟩
  rw [hending]
  exact nofun

end Program

end JavaRender
