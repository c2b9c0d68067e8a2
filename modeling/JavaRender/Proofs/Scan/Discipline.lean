import JavaRender.Proofs.Layout.Refinement
import JavaRender.Proofs.Scan.Nesting

/-!
Braces and indentation of a whole text. Nested lines, joined by line breaks, make a text that a
scanner over characters finds disciplined; main statement: the text of every program is.
-/
namespace JavaRender.Scan

open Typed Layout

def start (depth : Int) : State := ⟨.code, depth⟩

/-- A text as the scanner of braces finds it from an open depth to another one. It ends outside of
literals, the count of braces is never negative, neither a line feed nor a carriage return stands in
a literal, and each line is empty or indented by the braces that are open before it. -/
structure Disciplined (before : Int) (text : List Char) (after : Int) : Prop where
  ends : braces.scan (start before) text = start after
  nonneg : ∀ first second, text = first ++ second → 0 ≤ (braces.scan (start before) first).depth
  breaks : ∀ first second, ∀ c ∈ ['\n', '\r'], text = first ++ c :: second →
    (braces.scan (start before) first).mode = .code
  indented : ∀ first line second, text = first ++ line ++ second →
    (first = [] ∨ ∃ others, first = others ++ ['\n']) → '\n' ∉ line →
    (second = [] ∨ ∃ others, second = '\n' :: others) →
    line = [] ∨ Indented (braces.scan (start before) first).depth line

section Disciplined

variable {before between after : Int} {line text : List Char}

/-- A prefix of a line with a text behind it ends in the line or in the text. -/
theorem prefix_cases {first second : List Char} (h : line ++ '\n' :: text = first ++ second) :
    (∃ others, line = first ++ others ∧ second = others ++ '\n' :: text) ∨
      ∃ others, first = line ++ '\n' :: others ∧ text = others ++ second := by
  rcases List.append_eq_append_iff.mp h with ⟨middle, hfirst, hsecond⟩ | ⟨middle, hline, hsecond⟩
  · cases middle with
    | nil => exact .inl ⟨[], by simpa using hfirst.symm, by simpa using hsecond.symm⟩
    | cons c others =>
      obtain ⟨rfl, htext⟩ := List.cons.inj hsecond
      exact .inr ⟨others, hfirst, htext⟩
  · exact .inl ⟨middle, hline, hsecond⟩

theorem scan_line (hpasses : Passes braces (start before) line (start between)) (rest : List Char) :
    braces.scan (start before) (line ++ '\n' :: rest) = braces.scan (start between) rest := by
  have hbreak : braces.next (start between) '\n' = start between := rfl
  rw [scan_append, hpasses.scan_eq, Brackets.scan, List.foldl_cons, hbreak, Brackets.scan]

/-- One line alone. -/
theorem disciplined_line (hdepth : 0 ≤ before)
    (hline : line = [] ∨ Indented before line)
    (hpasses : Passes braces (start before) line (start after)) :
    Disciplined before line after where
  ends := hpasses.scan_eq
  nonneg first second h := by
    subst h
    exact hpasses.split.1.depth_nonneg (by decide) hdepth
  breaks first second c hc h := by
    subst h
    exact hpasses.code_of_break hc
  indented first middle second h hfirst _ hsecond := by
    have hbreak := hpasses.newline_notMem
    rcases hfirst with rfl | ⟨others, rfl⟩
    · rcases hsecond with rfl | ⟨others, rfl⟩
      · rw [List.nil_append, List.append_nil] at h
        exact h ▸ hline
      · exact absurd (by simp [h]) hbreak
    · exact absurd (by simp [h]) hbreak

/-- A line in front of a disciplined text. -/
theorem disciplined_cons (hdepth : 0 ≤ before)
    (hline : line = [] ∨ Indented before line)
    (hpasses : Passes braces (start before) line (start between))
    (htext : Disciplined between text after) :
    Disciplined before (line ++ '\n' :: text) after where
  ends := by rw [scan_line hpasses, htext.ends]
  nonneg first second h := by
    rcases prefix_cases h with ⟨others, rfl, -⟩ | ⟨others, rfl, hothers⟩
    · exact hpasses.split.1.depth_nonneg (by decide) hdepth
    · rw [scan_line hpasses]
      exact htext.nonneg others second hothers
  breaks first second c hc h := by
    rcases prefix_cases h with ⟨others, rfl, hsecond⟩ | ⟨others, rfl, hothers⟩
    · cases others with
      | nil =>
        rw [List.append_nil] at hpasses
        rw [hpasses.scan_eq]
        rfl
      | cons c' others =>
        obtain ⟨rfl, -⟩ := List.cons.inj hsecond
        exact hpasses.code_of_break hc
    · rw [scan_line hpasses]
      exact htext.breaks others second c hc hothers
  indented first middle second h hfirst hmiddle hsecond := by
    have hbreak := hpasses.newline_notMem
    rw [List.append_assoc] at h
    rcases prefix_cases h with ⟨others, rfl, hrest⟩ | ⟨others, rfl, hothers⟩
    · have hempty : first = [] := by
        rcases hfirst with hempty | ⟨init, rfl⟩
        · exact hempty
        · exact absurd (by simp) hbreak
      subst hempty
      rw [List.nil_append] at hline hbreak
      rcases hsecond with rfl | ⟨tail, rfl⟩
      · rw [List.append_nil] at hrest
        exact absurd (by simp [hrest]) hmiddle
      · obtain ⟨rfl, -⟩ := cut_unique hmiddle hbreak hrest
        exact hline
    · have hstarts : others = [] ∨ ∃ init, others = init ++ ['\n'] := by
        rcases List.eq_nil_or_concat others with hnil | ⟨init, last, hlast⟩
        · exact .inl hnil
        · rcases hfirst with hempty | ⟨init', hinit⟩
          · exact absurd hempty (by simp)
          · rw [hlast, List.concat_eq_append, ← List.cons_append, ← List.append_assoc] at hinit
            obtain ⟨-, hend⟩ := List.append_inj' hinit rfl
            exact .inr ⟨init, by rw [hlast, List.concat_eq_append, hend]⟩
      rw [scan_line hpasses]
      refine htext.indented others middle second ?_ hstarts hmiddle hsecond
      rw [hothers, List.append_assoc]

end Disciplined

/-- The text of nested lines, with a line break between neighbours, is disciplined. -/
theorem disciplined_of_nested {gaps : Bool} {before after : Int} {line : String}
    {rest : List String} (hdepth : 0 ≤ before) (h : Nested gaps before (line :: rest) after) :
    Disciplined before ("\n".intercalate (line :: rest)).toList after := by
  have hbreak : "\n".toList = ['\n'] := by decide
  induction rest generalizing before line with
  | nil =>
    rw [String.intercalate_singleton]
    cases h with
    | gap _ hothers =>
      cases hothers
      exact disciplined_line hdepth (.inl rfl) (.nil _)
    | line hfits hothers =>
      cases hothers
      exact disciplined_line hdepth (.inr hfits.1) hfits.2
  | cons second rest ih =>
    rw [String.intercalate_cons_cons, String.toList_append, String.toList_append, hbreak,
      List.append_assoc, List.singleton_append]
    cases h with
    | gap _ hothers => exact disciplined_cons hdepth (.inl rfl) (.nil _) (ih hdepth hothers)
    | line hfits hothers =>
      have hbetween := hfits.2.depth_nonneg (by decide) hdepth
      exact disciplined_cons hdepth (.inr hfits.1) hfits.2 (ih hbetween hothers)

/-- The generated text of a program is disciplined and closes all its braces, whatever its literals
hold. -/
theorem generated_disciplined (s : Source) (h : s.Obeys braceRules) :
    ∃ text, (Emitter.generate s.toTree "\n").1 = .ok text ∧ Disciplined 0 text.toList 0 := by
  refine ⟨"\n".intercalate (lines s), by rw [generate_eq], ?_⟩
  exact disciplined_of_nested (Int.le_refl 0) (nested_lines s h)

def bracesInLiterals : Source where
  fields := [⟨⟨"s", "s", ⟨"String", "String"⟩⟩, some (.literal (.string "\x7d \" \\ \n \x7b"))⟩]
  methods := [{
    function := ⟨"main", "main", ⟨"Integer", "int"⟩, [⟨"Character", "char"⟩]⟩
    parameters := ["c"]
    statements := [
      .ifElse (.binary "==" (.access ⟨"c", "c", ⟨"Character", "char"⟩⟩ none)
          (.literal (.character '\'')))
        [] [.forEach "x" (.literal (.string "\x7b")) []],
      .returnStmt (.literal (.integer (-1)))]
    matched := rfl }]

theorem bracesInLiterals_disciplined :
    bracesInLiterals.Obeys braceRules ∧
      ∃ text, (Emitter.generate bracesInLiterals.toTree "\n").1 = .ok text ∧
        Disciplined 0 text.toList 0 := by
  have hobeys : bracesInLiterals.Obeys braceRules := by
    simp only [bracesInLiterals, Source.Obeys, Field.Obeys, Method.Obeys, declaredObeys,
      optionObeys, stmtsObey, Stmt.Obeys, Expr.Obeys, braceRules, List.forall_mem_singleton]
    decide
  exact ⟨hobeys, generated_disciplined bracesInLiterals hobeys⟩

end JavaRender.Scan
