import JavaRender.Proofs.Decoding.Phrase
import JavaRender.Proofs.Layout.Outline

/-!
Statements without a body, read back from their words. The word `return` in front, the sign of an
assignment and the number of words before it tell the statements apart, for an expression never has
exactly two words.
-/
namespace JavaRender.Decoding

open Layout Scan

def joined (words : List String) : String := " ".intercalate words

inductive Sentence : Outline → List String → Prop
  | expression {words : List String} (chain : Chain words) :
      Sentence (.expression (joined words)) words
  | declaration {type name : String} (htype : Solid type ∧ type ≠ "return")
      (hname : Solid name ∧ name ≠ "=") : Sentence (.declaration type name none) [type, name]
  | initialised {type name : String} {words : List String} (htype : Solid type ∧ type ≠ "return")
      (hname : Solid name ∧ name ≠ "=") (chain : Chain words) :
      Sentence (.declaration type name (some (joined words))) (type :: name :: "=" :: words)
  | assignment {words values : List String} (chain : Chain words) (value : Chain values) :
      Sentence (.assignment (joined words) (joined values)) (words ++ "=" :: values)
  | returned {words : List String} (chain : Chain words) :
      Sentence (.returnStmt (joined words)) ("return" :: words)

def assemble : List String → List String → Outline
  | [type, name], [] => .declaration type name none
  | [type, name], _ :: words => .declaration type name (some (joined words))
  | words, [] => .expression (joined words)
  | words, _ :: values => .assignment (joined words) (joined values)

/-- Reads a statement from its words. The first word may be the sign of an assignment as well, for a
type may be called so. -/
def read : List String → Outline
  | [] => .expression ""
  | first :: rest =>
    if first = "return" then .returnStmt (joined rest)
    else assemble (first :: rest.takeWhile (· ≠ "=")) (rest.dropWhile (· ≠ "="))

/-- The words before the sign of an assignment and what follows them. -/
theorem read_of_front {first : String} {front back : List String} (hfirst : first ≠ "return")
    (hfront : "=" ∉ front) (hback : back = [] ∨ ∃ values, back = "=" :: values) :
    read (first :: (front ++ back)) = assemble (first :: front) back := by
  have hpass : ∀ w ∈ front, decide (w ≠ "=") = true := by
    intro w hw
    exact decide_eq_true fun heq => hfront (heq ▸ hw)
  have htake : back.takeWhile (· ≠ "=") = [] ∧ back.dropWhile (· ≠ "=") = back := by
    rcases hback with rfl | ⟨values, rfl⟩ <;> simp
  rw [read, if_neg hfirst, List.takeWhile_append_of_pos hpass, List.dropWhile_append_of_pos hpass,
    htake.1, htake.2, List.append_nil]

/-- A chain does not have two words, so what is assembled from it is no declaration. -/
theorem assemble_chain {words : List String} (h : Chain words) :
    assemble words [] = .expression (joined words) ∧
      ∀ sign values,
        assemble words (sign :: values) = .assignment (joined words) (joined values) := by
  cases h with
  | last => exact ⟨rfl, fun _ _ => rfl⟩
  | more _ _ others =>
    obtain ⟨w, rest, rfl, -⟩ := others.exists_cons
    exact ⟨rfl, fun _ _ => rfl⟩

/-- The first word of a chain is no `return`, and no word behind it is the sign of an assignment. -/
theorem Chain.front {words : List String} (h : Chain words) :
    ∃ first front, words = first :: front ∧ first ≠ "return" ∧ "=" ∉ front := by
  obtain ⟨first, front, rfl, hfirst⟩ := h.exists_cons
  refine ⟨first, front, rfl, fun heq => hfirst.2 (heq ▸ List.mem_cons_self), fun hmem => ?_⟩
  exact h.equals_notMem (List.mem_cons_of_mem _ hmem)

/-- Reading the words of a statement gives the statement back. -/
theorem Sentence.read_eq {o : Outline} {words : List String} (h : Sentence o words) :
    read words = o := by
  cases h with
  | expression chain =>
    obtain ⟨first, front, heq, hfirst, hfront⟩ := chain.front
    have hread := read_of_front hfirst hfront (.inl rfl)
    rw [List.append_nil, ← heq, (assemble_chain chain).1] at hread
    exact hread
  | @declaration type name htype hname =>
    have hfront : "=" ∉ [name] := fun hmem => hname.2 (List.mem_singleton.mp hmem).symm
    exact read_of_front htype.2 hfront (.inl rfl)
  | @initialised type name _ htype hname chain =>
    have hfront : "=" ∉ [name] := fun hmem => hname.2 (List.mem_singleton.mp hmem).symm
    exact read_of_front htype.2 hfront (.inr ⟨_, rfl⟩)
  | @assignment words values chain value =>
    obtain ⟨first, front, heq, hfirst, hfront⟩ := chain.front
    have hread := read_of_front hfirst hfront (.inr ⟨values, rfl⟩)
    rw [← List.cons_append, ← heq, (assemble_chain chain).2] at hread
    exact hread
  | returned chain => rw [read, if_pos rfl]

theorem Sentence.solid {o : Outline} {words : List String} (h : Sentence o words) :
    ∀ w ∈ words, Solid w := by
  have hequals : Solid "=" := Steady.unmarked (notMem_of_all rfl)
  have hreturn : Solid "return" := Steady.unmarked (notMem_of_all rfl)
  cases h with
  | expression chain => exact chain.solid
  | declaration htype hname => simp [htype.1, hname.1]
  | initialised htype hname chain => simpa [htype.1, hname.1, hequals] using chain.solid
  | assignment chain value =>
    intro w hw
    rcases List.mem_append.mp hw with hw | hw
    · exact chain.solid w hw
    · rcases List.mem_cons.mp hw with rfl | hw
      · exact hequals
      · exact value.solid w hw
  | returned chain => simpa [hreturn] using chain.solid

theorem Sentence.ne_nil {o : Outline} {words : List String} (h : Sentence o words) :
    words ≠ [] := by
  cases h with
  | expression chain => exact chain.ne_nil
  | assignment => exact List.append_ne_nil_of_right_ne_nil _ (List.cons_ne_nil _ _)
  | declaration | initialised | returned => exact List.cons_ne_nil _ _

theorem joined_cons {w : String} {words : List String} (h : words ≠ []) :
    joined (w :: words) = w ++ " " ++ joined words :=
  String.intercalate_cons_of_ne_nil h

/-- The line of a statement without a body. -/
theorem Sentence.lines_eq {o : Outline} {words : List String} (h : Sentence o words) :
    o.lines = [joined words ++ ";"] := by
  cases h with
  | expression chain => rfl
  | declaration =>
    rw [Outline.lines, declarationLine, joined, String.intercalate_cons_cons,
      String.intercalate_singleton]
  | initialised _ _ chain =>
    rw [Outline.lines, declarationLine, joined_cons (by simp), joined_cons (by simp),
      joined_cons chain.ne_nil]
    simp only [String.append_assoc]
    rfl
  | @assignment words values chain value =>
    have hsplit : joined (words ++ "=" :: values) = joined words ++ " " ++ joined ("=" :: values) :=
      String.intercalate_append_of_ne_nil chain.ne_nil (List.cons_ne_nil _ _)
    rw [Outline.lines, hsplit, joined_cons value.ne_nil]
    simp only [String.append_assoc]
    rfl
  | returned chain =>
    rw [Outline.lines, joined_cons chain.ne_nil]
    rfl

/-- Statements without a body and with the same line are the same. -/
theorem sentence_unique {o o' : Outline} {words words' : List String} (h : Sentence o words)
    (h' : Sentence o' words') (heq : joined words ++ ";" = joined words' ++ ";") : o = o' := by
  have hjoined : joined words = joined words' := (String.append_left_inj ";").mp heq
  have hwords := words_unique h.solid h'.solid h.ne_nil h'.ne_nil hjoined
  rw [← h.read_eq, ← h'.read_eq, hwords]

end JavaRender.Decoding
