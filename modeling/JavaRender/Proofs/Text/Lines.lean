import JavaRender.Text.Line
import Mathlib.Data.List.Basic

/-!
The lines of a message as its boundaries end them, described apart from how they are read. Main
statement: splitting a message gives exactly its lines, so that there is one way to take them.
-/
namespace JavaRender.Line

def boundaries : List Char :=
  ['\n', '\x0b', '\x0c', '\r', '\x1c', '\x1d', '\x1e', '\u0085', '\u2028', '\u2029']

/-- A boundary in front of `rest`: a line feed behind a carriage return belongs to it. -/
inductive Ends : List Char → List Char → Prop where
  | pair (rest : List Char) : Ends ['\r', '\n'] rest
  | single {c : Char} {rest : List Char} (hc : c ∈ boundaries)
      (hpair : c = '\r' → rest.head? ≠ some '\n') : Ends [c] rest

def Unbroken (line : List Char) : Prop := ∀ c ∈ line, c ∉ boundaries

/-- A text and its lines. Every boundary ends one, which may be empty; what stands behind the last
boundary is a line only if there is something. -/
inductive Lines : List Char → List (List Char) → Prop where
  | none : Lines [] []
  | last {line : List Char} (hne : line ≠ []) (hline : Unbroken line) : Lines line [line]
  | next {line boundary rest : List Char} {lines : List (List Char)} (hline : Unbroken line)
      (hend : Ends boundary rest) (hrest : Lines rest lines) :
      Lines (line ++ boundary ++ rest) (line :: lines)

variable {c : Char} {cs line boundary rest : List Char} {lines : List (List Char)}

theorem isBoundary_iff : isBoundary c = true ↔ c ∈ boundaries := by
  have heq (d : Char) : c = d ↔ c.toNat = d.toNat := Char.toNat_inj.symm
  simp only [isBoundary, boundaries, List.mem_cons, List.not_mem_nil, or_false, heq,
    Bool.or_eq_true, Bool.and_eq_true, decide_eq_true_eq, beq_iff_eq, Char.reduceToNat]
  omega

theorem unbroken_nil : Unbroken [] := List.forall_mem_nil _

theorem unbroken_cons : Unbroken (c :: line) ↔ c ∉ boundaries ∧ Unbroken line :=
  List.forall_mem_cons

section Splitting

theorem split_boundary (hc : c ∈ boundaries) (hpair : c = '\r' → rest.head? ≠ some '\n') :
    split (c :: rest) = [] :: split rest := by
  rw [split, if_pos (isBoundary_iff.mpr hc)]
  rintro others rfl rfl
  exact hpair rfl rfl

theorem split_ends (hend : Ends boundary rest) : split (boundary ++ rest) = [] :: split rest := by
  cases hend with
  | pair rest => rw [List.cons_append, List.cons_append, List.nil_append, split]
  | single hc hpair => exact split_boundary hc hpair

/-- A character that is no boundary goes to the front of the first line. -/
theorem split_cons (hc : c ∉ boundaries) (rest : List Char) :
    split (c :: rest) = (c :: (split rest).headD []) :: (split rest).tail := by
  rw [split, if_neg (isBoundary_iff.not.mpr hc)]
  · cases split rest <;> rfl
  · rintro others rfl rfl
    exact hc (by decide)

theorem split_unbroken (hne : line ≠ []) (hline : Unbroken line) : split line = [line] := by
  induction line with
  | nil => exact absurd rfl hne
  | cons c rest ih =>
    obtain ⟨hc, hrest⟩ := unbroken_cons.mp hline
    rw [split_cons hc]
    cases rest with
    | nil => rfl
    | cons d rest => rw [ih (List.cons_ne_nil d rest) hrest]; rfl

theorem split_append (hline : Unbroken line) (hend : Ends boundary rest) :
    split (line ++ (boundary ++ rest)) = line :: split rest := by
  induction line with
  | nil => exact split_ends hend
  | cons c others ih =>
    obtain ⟨hc, hothers⟩ := unbroken_cons.mp hline
    rw [List.cons_append, split_cons hc, ih hothers]
    rfl

end Splitting

namespace Lines

theorem split_eq (h : Lines cs lines) : split cs = lines := by
  induction h with
  | none => rfl
  | last hne hline => exact split_unbroken hne hline
  | next hline hend hrest ih => rw [List.append_assoc, split_append hline hend, ih]

theorem eq_nil (h : Lines cs []) : cs = [] := by
  cases h
  rfl

theorem ne_nil (h : Lines cs lines) (hc : c ∈ cs) : lines ≠ [] := by
  rintro rfl
  rw [h.eq_nil] at hc
  exact List.not_mem_nil hc

theorem cons (h : Lines rest (line :: lines)) (hc : c ∉ boundaries) :
    Lines (c :: rest) ((c :: line) :: lines) := by
  cases h with
  | last hne hline => exact .last (List.cons_ne_nil c line) (unbroken_cons.mpr ⟨hc, hline⟩)
  | next hline hend hrest => exact .next (unbroken_cons.mpr ⟨hc, hline⟩) hend hrest

theorem of_split (cs : List Char) : Lines cs (split cs) := by
  fun_induction split cs with
  | case1 => exact .none
  | case2 rest ih => exact .next unbroken_nil (.pair rest) ih
  | case3 c rest hpair hc ih =>
    refine .next unbroken_nil (.single (isBoundary_iff.mp hc) ?_) ih
    rintro rfl hfeed
    obtain ⟨others, rfl⟩ := List.head?_eq_some_iff.mp hfeed
    exact hpair others rfl rfl
  | case4 c rest hpair hc hnone ih =>
    rw [hnone] at ih
    rw [ih.eq_nil]
    refine .last (List.cons_ne_nil c []) (unbroken_cons.mpr ⟨?_, unbroken_nil⟩)
    exact isBoundary_iff.not.mp hc
  | case5 c rest hpair hc line lines hsome ih =>
    rw [hsome] at ih
    exact ih.cons (isBoundary_iff.not.mp hc)

/-- Every line is in one piece. -/
theorem unbroken (h : Lines cs lines) : ∀ line ∈ lines, Unbroken line := by
  induction h with
  | none => exact List.forall_mem_nil _
  | last hne hline => exact List.forall_mem_singleton.mpr hline
  | next hline hend hrest ih => exact List.forall_mem_cons.mpr ⟨hline, ih⟩

end Lines

/-- A text has its lines in one way, and splitting it finds them. -/
theorem lines_iff : Lines cs lines ↔ split cs = lines :=
  ⟨Lines.split_eq, fun h => h ▸ Lines.of_split cs⟩

example : split ['\n', 'a', '\r', '\n', '\u2028'] = [[], ['a'], []] := by decide

end JavaRender.Line
