import JavaRender.Proofs.Emission.LineEnd
import Mathlib.Data.List.Basic

/-!
What an emission writes at different terminators. Main statement: if no name has a line feed, the
text at a terminator is the text at the line feed with every line feed replaced, and it has as many
line feeds as lines are ended.
-/
namespace JavaRender.Emission

open Emitter (generate)

def written (t : Tree) (terminator : String) : List String :=
  (Emitter.emit t { terminator }).2.sink.written.toList

/-- The writes of an emission, told apart from the terminator: the same at every one. The terminator
is read by `Emitter.newline` alone, so that each call of it is one line end. -/
def IsScript (t : Tree) (writes : List Write) : Prop :=
  ∀ terminator, written t terminator = writes.map (Write.fragment terminator)

section Scripts

theorem Write.ext {w w' : Write}
    (h : ∀ terminator, w.fragment terminator = w'.fragment terminator) : w = w' := by
  -- a text is the same at two terminators, a line end is not
  have hempty := h ""
  have hfeed := h "\n"
  cases w with
  | text s =>
    cases w' with
    | text s' => exact congrArg text hempty
    | lineEnd => exact absurd (hempty.symm.trans hfeed) (by decide)
  | lineEnd =>
    cases w' with
    | text s' => exact absurd (hempty.trans hfeed.symm) (by decide)
    | lineEnd => rfl

theorem IsScript.unique {t : Tree} {writes writes' : List Write} (h : IsScript t writes)
    (h' : IsScript t writes') : writes = writes' := by
  have heq (terminator : String) : writes.map (Write.fragment terminator) =
      writes'.map (Write.fragment terminator) := (h terminator).symm.trans (h' terminator)
  have hlength : writes.length = writes'.length := by
    simpa only [List.length_map] using congrArg List.length (heq "")
  refine List.ext_getElem hlength fun i hi hi' => Write.ext fun terminator => ?_
  have hget := List.getElem_of_eq (heq terminator) (by simpa only [List.length_map] using hi)
  simpa only [List.getElem_map] using hget

end Scripts

section Replacement

def withTerminator (terminator s : String) : String :=
  String.ofList (s.toList.flatMap fun c => if c = '\n' then terminator.toList else [c])

variable {terminator s : String} {writes : List Write}

theorem withTerminator_append (s s' : String) :
    withTerminator terminator (s ++ s') =
      withTerminator terminator s ++ withTerminator terminator s' := by
  rw [withTerminator, String.toList_append, List.flatMap_append, String.ofList_append]
  rfl

theorem withTerminator_oneLine (h : OneLine s) : withTerminator terminator s = s := by
  have hkeep : s.toList.flatMap (fun c => if c = '\n' then terminator.toList else [c]) =
      s.toList.flatMap fun c => [c] :=
    List.flatMap_congr fun c hc => if_neg fun (heq : c = '\n') => h (heq ▸ hc)
  rw [withTerminator, hkeep, List.flatMap_singleton', String.ofList_toList]

theorem withTerminator_newline : withTerminator terminator "\n" = terminator := by
  have hfeed : "\n".toList = ['\n'] := rfl
  rw [withTerminator, hfeed, List.flatMap_singleton, if_pos rfl, String.ofList_toList]

theorem Write.OnOneLine.replaced {w : Write} (h : w.OnOneLine) :
    withTerminator terminator (w.fragment "\n") = w.fragment terminator := by
  cases w with
  | text s => exact withTerminator_oneLine (h s rfl)
  | lineEnd => exact withTerminator_newline

theorem Write.OnOneLine.count {w : Write} (h : w.OnOneLine) :
    (w.fragment "\n").toList.count '\n' = [w].count .lineEnd := by
  cases w with
  | text s => exact List.count_eq_zero.mpr (h s rfl)
  | lineEnd => rfl

/-- Only the line ends of a script are replaced. -/
theorem withTerminator_join (h : ∀ w ∈ writes, w.OnOneLine) :
    withTerminator terminator (String.join (writes.map (Write.fragment "\n"))) =
      String.join (writes.map (Write.fragment terminator)) := by
  induction writes with
  | nil => rfl
  | cons w rest ih =>
    obtain ⟨hw, hrest⟩ := List.forall_mem_cons.mp h
    rw [List.map_cons, List.map_cons, String.join_cons, String.join_cons, withTerminator_append,
      hw.replaced, ih hrest]

theorem count_join (h : ∀ w ∈ writes, w.OnOneLine) :
    (String.join (writes.map (Write.fragment "\n"))).toList.count '\n' =
      writes.count .lineEnd := by
  induction writes with
  | nil => rfl
  | cons w rest ih =>
    obtain ⟨hw, hrest⟩ := List.forall_mem_cons.mp h
    rw [List.map_cons, String.join_cons, String.toList_append, List.count_append, hw.count,
      ih hrest, ← List.count_append, List.singleton_append]

end Replacement

/-- An emission follows a script on one line from level zero. -/
theorem emit_linewise {t : Tree} (h : t.NamesOnOneLine) :
    ∃ (writes : List Write) (outcome : Except Tree.Fault Unit), (∀ w ∈ writes, w.OnOneLine) ∧
      IsScript t writes ∧ ∀ terminator, (generate t terminator).1 =
        outcome.map fun _ => String.join (writes.map (Write.fragment terminator)) := by
  obtain ⟨ending, hending, hemit⟩ := emit_eq t
  have hlinewise : Linewise ending fun _ => True := by
    rcases hending with rfl | ⟨n, rfl⟩
    · exact Linewise.pure trivial
    · exact Linewise.note n
  obtain ⟨pieces, outcome, hpieces, -, hplays⟩ :=
    (Linewise.visit t h).skip (fun _ => hlinewise) 0
  have hrun (terminator : String) :
      Emitter.emit t { terminator } = (outcome, { ({ terminator } : Emitter) with
        sink := taken {} ((writesOf pieces).map (Write.fragment terminator))
        notices := notices (pieces.map (Piece.event terminator)) }) := by
    rw [hemit, hplays terminator _ rfl rfl, playTo, play_spared _ _ (spares_of_none rfl _),
      fragments_script]
    rfl
  refine ⟨writesOf pieces, outcome, hpieces, fun terminator => ?_, fun terminator => ?_⟩
  · rw [written, hrun]
    simp [taken]
  · have hgenerate : (generate t terminator).1 = (Emitter.emit t { terminator }).1.map fun _ =>
        (Emitter.emit t { terminator }).2.sink.text := rfl
    rw [hgenerate, hrun]
    simp only [text_taken]

/-- With names on one line, what an emission writes is a script of texts on one line and of line
ends, the only one. The text has a line feed for each line end, and at another terminator it is the
text with its line feeds replaced. -/
theorem generate_terminators {t : Tree} (h : t.NamesOnOneLine) :
    ∃ writes, IsScript t writes ∧ (∀ writes', IsScript t writes' → writes' = writes) ∧
      (∀ text, (generate t "\n").1 = .ok text →
        text.toList.count '\n' = writes.count .lineEnd) ∧
      ∀ terminator,
        (generate t terminator).1 = (generate t "\n").1.map (withTerminator terminator) := by
  obtain ⟨writes, outcome, hwrites, hscript, hgenerate⟩ := emit_linewise h
  refine ⟨writes, hscript, fun _ hscript' => hscript'.unique hscript, fun text htext => ?_,
    fun terminator => ?_⟩
  · rw [hgenerate] at htext
    cases outcome with
    | error fault => cases htext
    | ok _ =>
      cases htext
      exact count_join hwrites
  · rw [hgenerate, hgenerate]
    cases outcome with
    | error fault => rfl
    | ok _ => exact congrArg Except.ok (withTerminator_join hwrites).symm

def feedsInLiterals : Tree :=
  .source
    (.sequence true [.field
      (.varRef (.text "s") (.text "s") (.typeRef (.text "String") (.text "String")))
      (.literal (.text "one\ntwo") (.kind .string))])
    (.sequence true [.method
      (.funRef (.text "main") (.text "main") (.typeRef (.text "Integer") (.text "int"))
        (.sequence true []))
      (.sequence true [])
      (.sequence true [.returnStmt (.literal (.text "\n") (.kind .character))])])

/-- Both literals keep their line feeds as escapes. -/
theorem terminators_of_feedsInLiterals :
    (generate feedsInLiterals "\r\n").1 =
      (generate feedsInLiterals "\n").1.map (withTerminator "\r\n") := by
  have hnames : feedsInLiterals.NamesOnOneLine := by decide
  obtain ⟨-, -, -, -, hreplaced⟩ := generate_terminators hnames
  exact hreplaced "\r\n"

end JavaRender.Emission
