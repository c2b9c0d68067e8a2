import JavaRender.Proofs.Build.Run
import JavaRender.Proofs.Json.Folding
import JavaRender.Proofs.Placement.Compiled
import JavaRender.Proofs.Text.Encoding
import JavaRender.Proofs.Text.Points

/-!
Building a file and compiling its text. A file is decoded and its terminators are folded before it
is read; main statement: a build comes to what compiling the text of its source comes to, writes
exactly that, and leaves every file as it is where compiling fails.
-/
namespace JavaRender

namespace Document

/-- Only numbers out of range are no refusals. -/
theorem refused_of_ofFault (text : List Char) {fault : Json.Fault} (h : fault ≠ .numberRange) :
    ∃ r, ofFault text fault = .refused r := by
  cases fault with
  | numberRange => exact absurd rfl h
  | flawed flaw left => exact ⟨_, rfl⟩
  | tooDeep bracket => exact ⟨_, rfl⟩
  | tooManyDigits count => exact ⟨_, rfl⟩

/-- Folding the terminators of a document changes nothing that is read; a refused document stays
refused, though the place of its flaw may move. -/
theorem parse_unify (cs : List Char) (half : StandIn) :
    parse (Line.unify cs) half = parse cs half ∨
      ∃ r r', parse cs half = .error (.refused r) ∧
        parse (Line.unify cs) half = .error (.refused r') := by
  unfold parse
  rcases Json.read_unify cs half with
    ⟨v, hplain, hfolded⟩ | ⟨fault, fault', hplain, hfolded, hrange⟩
  · rw [hplain, hfolded]
    exact .inl rfl
  · rw [hplain, hfolded]
    by_cases h : fault = .numberRange
    · rw [h, hrange.mp h]
      exact .inl rfl
    · obtain ⟨r, hr⟩ := refused_of_ofFault cs h
      obtain ⟨r', hr'⟩ := refused_of_ofFault (Line.unify cs) (mt hrange.mpr h)
      exact .inr ⟨r, r', congrArg Except.error hr, congrArg Except.error hr'⟩

/-- So the tree that is loaded is the same, if there is one. -/
theorem toOption_load_unify (cs : List Char) (half : StandIn) :
    (load (Line.unify cs) half).toOption = (load cs half).toOption := by
  unfold load
  rcases parse_unify cs half with hsame | ⟨r, r', hplain, hfolded⟩
  · rw [hsame]
  · rw [hplain, hfolded]
    rfl

theorem textOf_encode {cs : List Char} (h : cs.head? ≠ some '\ufeff') (marked : Bool) :
    textOf ((if marked then Utf8.mark else []) ++ Utf8.encode cs) = .ok (Line.unify cs) := by
  rw [textOf, Utf8.decodeMarked_encode h]

end Document

namespace Build

/-- Folding the terminators of a document changes nothing that is loaded from it, but for the place
of a flaw. -/
theorem loadText_unify (stack : Stack) (cs : List Char) :
    loadText stack (Line.unify cs) = loadText stack cs ∨
      ∃ r r', loadText stack cs = .error (.load (.refused r)) ∧
        loadText stack (Line.unify cs) = .error (.load (.refused r')) := by
  unfold loadText
  rw [Document.toOption_load_unify]
  rcases Document.parse_unify cs .replacement with hsame | ⟨r, r', hplain, hfolded⟩
  · rw [hsame]
    exact .inl rfl
  · rw [hplain, hfolded]
    exact .inr ⟨r, r', rfl, rfl⟩

theorem loadText_ample (text : List Char) :
    loadText .ample text = ((Document.load text).mapError Failure.load).map fun node =>
      ⟨node, (Document.load text .own).toOption.getD node⟩ := by
  have hload : Document.load text = Document.parse text >>= Document.sourceOf := rfl
  rw [hload, loadText]
  cases Document.parse text with
  | error e => rfl
  | ok v =>
    change ((Document.sourceOf v).mapError Failure.load >>= fun node =>
        .ok (Source.mk node ((Document.load text .own).toOption.getD node))) =
      ((Document.sourceOf v).mapError Failure.load).map _
    cases Document.sourceOf v <;> rfl

/-- On a stack that is not used up compiling comes to the failures of the document and of its tree,
or to the text read off from what compiling gives of the two readings. -/
theorem compileText_ample (t terminator : String) :
    compileText .ample t terminator =
      match compile t terminator with
      | .error (.load e) => .error (.load e)
      | .error (.tree fault) => .error (.tree fault)
      | .ok code =>
        let owned := (Document.load t.toList .own).toOption.bind fun node =>
          (render node terminator).1.toOption
        .ok (Point.ofReadings code.toList (owned.getD code).toList) := by
  rw [compileText, loadText_ample, compile_eq]
  cases Document.load t.toList with
  | error e => rfl
  | ok node =>
    change (((render node terminator).1.map _).mapError Failure.tree : Except Failure _) = _
    cases hrender : (render node terminator).1 with
    | error fault =>
      dsimp only
      rw [hrender]
      rfl
    | ok code =>
      dsimp only
      rw [hrender]
      cases (Document.load t.toList .own).toOption with
      | some owned => rfl
      | none =>
        dsimp only [Except.map, Except.mapError, Option.getD, Option.bind]
        rw [hrender]
        rfl

variable {stack : Stack} {s : Settings} {store : Store} {t : String} {marked : Bool} {out : Path}

/-- What compiles on any stack compiles, and if it is one of characters they are the same. -/
theorem compile_of_compileText {terminator : String} {text : List Point}
    (h : compileText stack t terminator = .ok text) :
    ∃ java, compile t terminator = .ok java ∧
      ((∀ n, Point.half n ∉ text) → text = Point.ofString java) := by
  unfold compileText at h
  cases hload : loadText stack t.toList with
  | error failure =>
    rw [hload] at h
    cases h
  | ok source =>
    rw [hload] at h
    obtain ⟨-, java, hrender, hchars⟩ := render_of_renderText h
    refine ⟨java, ?_, hchars⟩
    rw [compile_eq, load_of_loadText hload]
    dsimp only
    rw [hrender]
    rfl

section Texts

variable (hstart : t.toList.head? ≠ some '\ufeff')
  (hsource : store.read s.source = .ok ((if marked then Utf8.mark else []) ++ Utf8.encode t.toList))
  (hout : s.effectiveOutput? = some (.file out))
include hstart hsource hout

/-- What is made of a file is made of its text, but for the place of a flaw. -/
theorem made_of_text :
    made stack s store = (compileText stack t s.terminator).map (fun text => (.file out, text)) ∨
      ∃ r r', compileText stack t s.terminator = .error (.load (.refused r)) ∧
        made stack s store = .error (.load (.refused r')) ∧ ('\r' ∉ t.toList → r' = r) := by
  have hmade : made stack s store = (do
      let source ← loadText stack (Line.unify t.toList)
      let text ← (renderText stack source s.terminator).1
      .ok (.file out, text)) := by
    rw [made_of_effective hout, loaded_of_read hsource, loadBytes, Document.textOf_encode hstart]
    rfl
  rw [hmade, compileText]
  rcases loadText_unify stack t.toList with hsame | ⟨r, r', hplain, hfolded⟩
  · rw [hsame]
    refine .inl ?_
    cases loadText stack t.toList with
    | error failure => rfl
    | ok source => cases (renderText stack source s.terminator).1 <;> rfl
  · rw [hplain, hfolded]
    refine .inr ⟨r, r', rfl, rfl, fun hreturn => ?_⟩
    -- without carriage returns the text that is read is the text itself
    rw [Line.unify_of_not_mem hreturn, hplain] at hfolded
    cases hfolded
    rfl

/-- A text that compiles is delivered. -/
theorem onStore_of_compileText {text : List Point} (hwritable : store.Writable out)
    (hcompile : compileText stack t s.terminator = .ok text) :
    ∃ after, onStore stack s store =
        (((Utf8.encodePoints text).mapError .notEncodable).map fun _ => out, after) ∧
      after.read out = .ok ((Utf8.encodePoints text).toOption.getD []) := by
  obtain ⟨after, hwritten, hback⟩ := delivered_of_writable text hwritable
  refine ⟨after, ?_, hback⟩
  rcases made_of_text hstart hsource hout with hmade | ⟨r, r', hrefused, -⟩
  · rw [hcompile] at hmade
    rw [onStore_of_made hmade, delivered, hwritten]
    cases Utf8.encodePoints text <;> rfl
  · cases hcompile.symm.trans hrefused

end Texts

/-- A build agrees with compiling the text that its source holds in UTF-8, with or without a mark,
unless half a surrogate pair comes into the Java text: it succeeds exactly when the text compiles
to one without, and the bytes it writes are those of the Java text. With such a half the build
fails, and leaves the file of the result empty. A refused document fails it with a refusal, the same
one unless there are carriage returns to fold, and any other failure is the same; every file is left
as it was then. -/
theorem build_agrees (stack : Stack) (s : Settings) (store : Store) (t : String) (marked : Bool)
    (out : Path) (hstart : t.toList.head? ≠ some '\ufeff')
    (hsource : store.read s.source =
      .ok ((if marked then Utf8.mark else []) ++ Utf8.encode t.toList))
    (hout : s.effectiveOutput? = some (.file out)) (hwritable : store.Writable out) :
    ((∃ path, (onStore stack s store).1 = .ok path) ↔
        ∃ text, compileText stack t s.terminator = .ok text ∧ ∀ n, Point.half n ∉ text) ∧
      (∀ text, compileText stack t s.terminator = .ok text → (∀ n, Point.half n ∉ text) →
        ∃ java after, compile t s.terminator = .ok java ∧ text = Point.ofString java ∧
          onStore stack s store = (.ok out, after) ∧
          after.read out = .ok (Utf8.encode java.toList)) ∧
      (∀ text n, compileText stack t s.terminator = .ok text → Point.half n ∈ text →
        ∃ e after, Utf8.encodePoints text = .error e ∧
          onStore stack s store = (.error (.notEncodable e), after) ∧ after.read out = .ok []) ∧
      (∀ r, compileText stack t s.terminator = .error (.load (.refused r)) →
        ∃ r', onStore stack s store = (.error (.load (.refused r')), store) ∧
          ('\r' ∉ t.toList → r' = r)) ∧
      (∀ failure, compileText stack t s.terminator = .error failure →
        (∀ r, failure ≠ .load (.refused r)) →
        onStore stack s store = (.error failure, store)) := by
  cases hcompile : compileText stack t s.terminator with
  | ok text =>
    obtain ⟨after, hbuild, hback⟩ :=
      onStore_of_compileText hstart hsource hout hwritable hcompile
    rcases Utf8.encodePoints_cases text with ⟨hchars, -⟩ | ⟨⟨n, hhalf⟩, e, hencode⟩
    · obtain ⟨java, hjava, hsame⟩ := compile_of_compileText hcompile
      rw [hsame hchars, Utf8.encodePoints_ofString] at hbuild hback
      refine ⟨iff_of_true ⟨out, by rw [hbuild]; rfl⟩ ⟨text, rfl, hchars⟩, ?_, ?_, nofun, nofun⟩
      · rintro _ ⟨⟩ -
        exact ⟨java, after, hjava, hsame hchars, hbuild, hback⟩
      · rintro _ n ⟨⟩ hhalf
        exact absurd hhalf (hchars n)
    · rw [hencode] at hbuild hback
      refine ⟨iff_of_false (by rw [hbuild]; exact nofun) ?_, ?_, ?_, nofun, nofun⟩
      · rintro ⟨_, ⟨⟩, hchars⟩
        exact hchars n hhalf
      · rintro _ ⟨⟩ hchars
        exact absurd hhalf (hchars n)
      · rintro _ _ ⟨⟩ -
        exact ⟨e, after, hencode, hbuild, hback⟩
  | error failure =>
    have hfails : ∀ cause, made stack s store = .error cause →
        ¬ ∃ path, (onStore stack s store).1 = .ok path := by
      intro cause hmade
      rw [onStore_of_failure hmade]
      exact nofun
    rcases made_of_text hstart hsource hout with hmade | ⟨r, r', hrefused, hmade, hplain⟩
    · rw [hcompile] at hmade
      have hbuild := onStore_of_failure hmade
      refine ⟨iff_of_false (hfails failure hmade) nofun, nofun, nofun, ?_, ?_⟩
      · rintro r ⟨⟩
        exact ⟨r, hbuild, fun _ => rfl⟩
      · rintro _ ⟨⟩ -
        exact hbuild
    · cases hcompile.symm.trans hrefused
      refine ⟨iff_of_false (hfails _ hmade) nofun, nofun, nofun, ?_, ?_⟩
      · rintro _ ⟨⟩
        exact ⟨r', onStore_of_failure hmade, hplain⟩
      · rintro _ ⟨⟩ hother
        exact absurd rfl (hother r)

def emptySource : String :=
  "\x7b\"_type\": \"Source\",\r\n\"fields\": [],\r\"methods\": []\n\x7d"

def emptyJava : String :=
  "public class Main \x7b\r\n    public static void main(String[] args) \x7b\r\n" ++
    "        System.exit(new Main().main());\r\n    \x7d\r\n\x7d"

def emptyStore : Store := ⟨[(["p.json"], .file (Utf8.mark ++ Utf8.encode emptySource.toList))], []⟩

def emptySettings : Settings :=
  ⟨⟨.here, ["p.json"]⟩, some (.file ⟨.here, ["gen", "Main.java"]⟩), "\r\n", false⟩

theorem build_emptySource :
    ∃ after, onStore .ample emptySettings emptyStore = (.ok ⟨.here, ["gen", "Main.java"]⟩, after) ∧
      after.read ⟨.here, ["gen", "Main.java"]⟩ = .ok (Utf8.encode emptyJava.toList) := by
  have hsource : emptyStore.read emptySettings.source =
      .ok ((if true then Utf8.mark else []) ++ Utf8.encode emptySource.toList) := rfl
  have hwritable : emptyStore.Writable ⟨.here, ["gen", "Main.java"]⟩ :=
    ⟨by decide, emptyStore.put ["gen"] .directory, rfl, by decide +kernel⟩
  have hcompile : compileText .ample emptySource emptySettings.terminator =
      .ok (Point.ofString emptyJava) := by
    decide +kernel
  have hagree := build_agrees .ample emptySettings emptyStore emptySource true
    ⟨.here, ["gen", "Main.java"]⟩ (by decide) hsource rfl hwritable
  have hwhole := Point.half_not_mem_ofString emptyJava
  generalize emptyJava = expected at hcompile hwhole ⊢
  obtain ⟨java, after, -, htext, hbuild, hback⟩ :=
    hagree.2.1 (Point.ofString expected) hcompile hwhole
  rw [Point.ofString_injective htext]
  exact ⟨after, hbuild, hback⟩

def halfPair : String :=
  "\x7b\"_type\":\"Source\",\"methods\":[],\"fields\":[\x7b\"_type\":\"Field\"," ++
    "\"variable\":\x7b\"name\":\"s\",\"type\":\"String\"\x7d,\"value\":" ++
    "\x7b\"_type\":\"Literal\",\"kind\":\"STRING\",\"value\":\"\\ud800\"\x7d\x7d]\x7d"

/-- It is the source beside which the result of an earlier build stands. -/
def halfPairStore : Store :=
  ⟨[(["main.ast.json"], .file (Utf8.encode halfPair.toList)),
    (["Main.java"], .file (Utf8.encode "class Main \x7b\x7d".toList))], []⟩

/-- The text compiles, but its build fails and empties the result of the earlier one. -/
theorem build_halfPair :
    halfPairStore.read Settings.default.source = .ok (Utf8.encode halfPair.toList) ∧
      Settings.default.effectiveOutput? = some (.file ⟨.here, ["Main.java"]⟩) ∧
      halfPairStore.Writable ⟨.here, ["Main.java"]⟩ ∧
      (∃ text, compileText .ample halfPair Settings.default.terminator = .ok text) ∧
      ∃ after, onStore .ample Settings.default halfPairStore =
        (.error (.notEncodable ⟨37, 1, 0xD800⟩), after) ∧
          after.read ⟨.here, ["Main.java"]⟩ = .ok [] := by
  have hsource : halfPairStore.read Settings.default.source =
      .ok (Utf8.encode halfPair.toList) := rfl
  have hplace : Settings.default.effectiveOutput? = some (.file ⟨.here, ["Main.java"]⟩) := by
    decide +kernel
  have hwritable : halfPairStore.Writable ⟨.here, ["Main.java"]⟩ :=
    ⟨by decide, halfPairStore, rfl, by decide +kernel⟩
  have hchecked : (compileText .ample halfPair Settings.default.terminator).toOption.any
      (fun text => decide (Utf8.encodePoints text = .error ⟨37, 1, 0xD800⟩)) = true := by
    decide +kernel
  cases hcompile : compileText .ample halfPair Settings.default.terminator with
  | error failure =>
    rw [hcompile] at hchecked
    cases hchecked
  | ok text =>
    rw [hcompile] at hchecked
    simp only [Except.toOption, Option.any_some, decide_eq_true_eq] at hchecked
    have hplain : (if false then Utf8.mark else []) ++ Utf8.encode halfPair.toList =
        Utf8.encode halfPair.toList := List.nil_append _
    obtain ⟨after, hbuild, hback⟩ := onStore_of_compileText (by decide +kernel)
      (hsource.trans (congrArg Except.ok hplain.symm)) hplace hwritable hcompile
    rw [hchecked] at hbuild hback
    exact ⟨hsource, hplace, hwritable, ⟨text, rfl⟩, after, hbuild, hback⟩

end Build

end JavaRender
