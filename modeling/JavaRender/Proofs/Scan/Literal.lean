import JavaRender.Proofs.Number.Numeral
import JavaRender.Proofs.Scan.Scanner
import JavaRender.Proofs.Typed.Text
import Mathlib.Tactic.SplitIfs

/-!
The texts of literals and of the operators in the table pass every scanner. Quotes, backslashes and
line breaks of a value are escaped, so its literal ends where it should and no line ends in it.
-/
namespace JavaRender.Scan

open Literal (escapeChar)
open Numeral

section Quoted

variable {b : Brackets} {quote : Char} {depth : Int}

/-- In a literal nothing is a bracket. -/
theorem next_inside (c : Char) :
    b.next ⟨.inside quote, depth⟩ c = ⟨(Mode.inside quote).next c, depth⟩ := rfl

theorem next_escaped (c : Char) :
    b.next ⟨.escaped quote, depth⟩ c = ⟨.inside quote, depth⟩ := rfl

theorem admits_inside {c : Char} (h : c ∉ ['\n', '\r']) : b.Admits ⟨.inside quote, depth⟩ c := by
  rw [List.mem_cons, List.mem_singleton, not_or] at h
  exact ⟨h.1, fun hreturn => absurd hreturn h.2, fun hmode => nomatch hmode⟩

/-- A backslash and the character behind it. -/
theorem passes_escape {c : Char} (h : c ∉ ['\n', '\r']) :
    Passes b ⟨.inside quote, depth⟩ ['\\', c] ⟨.inside quote, depth⟩ := by
  have hback : b.next ⟨.inside quote, depth⟩ '\\' = ⟨.escaped quote, depth⟩ := rfl
  rw [List.mem_cons, List.mem_singleton, not_or] at h
  refine .cons (admits_inside (by decide)) ?_
  rw [hback]
  refine .cons ⟨h.1, fun hreturn => absurd hreturn h.2, fun hmode => nomatch hmode⟩ ?_
  rw [next_escaped]
  exact .nil _

/-- A character is escaped, or it means nothing in a literal and stands for itself. -/
theorem escapeChar_cases (hbreak : quote ∉ ['\n', '\r']) (c : Char) :
    (∃ letter, letter ∉ ['\n', '\r'] ∧ escapeChar quote c = ['\\', letter]) ∨
      c ≠ quote ∧ c ≠ '\\' ∧ c ∉ ['\n', '\r'] ∧ escapeChar quote c = [c] := by
  unfold escapeChar
  by_cases hquote : c = quote
  · exact .inl ⟨c, hquote ▸ hbreak, if_pos hquote⟩
  by_cases hback : c = '\\'
  · exact .inl ⟨'\\', by decide, by rw [if_neg hquote, if_pos hback]⟩
  by_cases hline : c = '\n'
  · exact .inl ⟨'n', by decide, by rw [if_neg hquote, if_neg hback, if_pos hline]⟩
  by_cases hreturn : c = '\r'
  · exact .inl ⟨'r', by decide, by rw [if_neg hquote, if_neg hback, if_neg hline, if_pos hreturn]⟩
  have hfree : c ∉ ['\n', '\r'] := by
    rw [List.mem_cons, List.mem_singleton, not_or]
    exact ⟨hline, hreturn⟩
  rw [if_neg hquote, if_neg hback, if_neg hline, if_neg hreturn]
  split_ifs
  · exact .inl ⟨'t', by decide, rfl⟩
  · exact .inl ⟨'b', by decide, rfl⟩
  · exact .inl ⟨'f', by decide, rfl⟩
  · exact .inr ⟨hquote, hback, hfree, rfl⟩

/-- Escaped, a character of a value does not end its literal. -/
theorem passes_escapeChar (hbreak : quote ∉ ['\n', '\r']) (c : Char) :
    Passes b ⟨.inside quote, depth⟩ (escapeChar quote c) ⟨.inside quote, depth⟩ := by
  rcases escapeChar_cases hbreak c with ⟨letter, hletter, heq⟩ | ⟨hquote, hback, hfree, heq⟩
  · rw [heq]
    exact passes_escape hletter
  · have hstay : b.next ⟨.inside quote, depth⟩ c = ⟨.inside quote, depth⟩ := by
      simp only [next_inside, Mode.next, hback, hquote, if_false]
    rw [heq]
    refine .cons (admits_inside hfree) ?_
    rw [hstay]
    exact .nil _

theorem passes_escaped (hbreak : quote ∉ ['\n', '\r']) (value : List Char) :
    Passes b ⟨.inside quote, depth⟩ (value.flatMap (escapeChar quote)) ⟨.inside quote, depth⟩ := by
  induction value with
  | nil => exact .nil _
  | cons c rest ih => exact (passes_escapeChar hbreak c).append ih

/-- A quoted value passes, whatever it is. -/
theorem Steady.quoted {floor : Int} (hquote : quote = '"' ∨ quote = '\'') (value : List Char) :
    Steady b floor ([quote] ++ value.flatMap (escapeChar quote) ++ [quote]) := by
  have hback : quote ≠ '\\' := by rcases hquote with h | h <;> subst h <;> decide
  have hbreak : quote ∉ ['\n', '\r'] := by rcases hquote with h | h <;> subst h <;> decide
  intro depth _
  have hnot : ∀ c ∈ b.opening :: b.closing :: b.sheltered, c ≠ quote := by
    intro c hc
    have := b.unquoted hc
    rcases hquote with h | h
    · exact h ▸ this.1
    · exact h ▸ this.2.1
  have hopen : b.next ⟨.code, depth⟩ quote = ⟨.inside quote, depth⟩ := by
    have hopening := (hnot b.opening List.mem_cons_self).symm
    have hclosing := (hnot b.closing (List.mem_cons_of_mem _ List.mem_cons_self)).symm
    simp only [Brackets.next, Mode.next, Brackets.count, hquote, hopening, hclosing, if_true,
      if_false]
  have hclose : b.next ⟨.inside quote, depth⟩ quote = ⟨.code, depth⟩ := by
    simp only [next_inside, Mode.next, hback, if_false, if_true]
  have hfirst : Passes b ⟨.code, depth⟩ [quote] ⟨.inside quote, depth⟩ := by
    refine .cons ⟨List.ne_of_not_mem_cons hbreak, fun _ => rfl, fun _ hc => ?_⟩ ?_
    · exact absurd rfl (hnot quote (List.mem_cons_of_mem _ (List.mem_cons_of_mem _ hc)))
    · rw [hopen]
      exact .nil _
  have hlast : Passes b ⟨.inside quote, depth⟩ [quote] ⟨.code, depth⟩ := by
    refine .cons (admits_inside hbreak) ?_
    rw [hclose]
    exact .nil _
  exact (hfirst.append (passes_escaped hbreak value)).append hlast

end Quoted

theorem isNumeral_notMem_marks {c : Char} (h : isNumeral c = true) : c ∉ marks := by
  have hall : marks.all (!isNumeral ·) = true := rfl
  intro hc
  have hmark := List.all_eq_true.mp hall c hc
  rw [h] at hmark
  exact absurd hmark Bool.false_ne_true

/-- A number passes. -/
theorem Steady.numeral {b : Brackets} {floor : Int} {text : List Char}
    (h : ∀ c ∈ text, isNumeral c = true) : Steady b floor text :=
  Steady.unmarked fun c hc => isNumeral_notMem_marks (h c hc)

/-- The text of a literal passes every scanner. -/
theorem Steady.literal {b : Brackets} {floor : Int} (l : Typed.Literal) :
    Steady b floor l.text.toList := by
  cases l with
  | string s =>
    have h : Steady b floor (['"'] ++ s.toList.flatMap (escapeChar '"') ++ ['"']) :=
      Steady.quoted (.inl rfl) s.toList
    simpa [Typed.Literal.text, Literal.escapeText, Literal.escape] using h
  | character c =>
    have h : Steady b floor (['\''] ++ [c].flatMap (escapeChar '\'') ++ ['\'']) :=
      Steady.quoted (.inr rfl) [c]
    simpa [Typed.Literal.text, Literal.escapeCharacter, Literal.escape] using h
  | integer n => exact .numeral fun c hc => isNumeral_of_mem_int hc
  | ordinal k => exact .numeral fun c hc => isNumeral_of_mem_nat hc
  | decimal d => exact .numeral fun c hc => isNumeral_of_mem_decimal hc
  | double x d h => exact .numeral fun c hc => isNumeral_of_mem_decimal hc
  | boolean truth => cases truth <;> exact .unmarked (notMem_of_all rfl)
  | nil _ =>
    have hnull : "null".toList.all (!marks.contains ·) = true := rfl
    exact .unmarked (notMem_of_all hnull)

/-- The spelling of an operator in the table has no marks. -/
theorem spelling_notMem_marks {op s : String} (h : Operator.spelling? op = some s) {c : Char}
    (hc : c ∈ s.toList) : c ∉ marks := by
  have hall : Operator.spellings.all (·.2.toList.all (!marks.contains ·)) = true := rfl
  obtain ⟨before, after, heq, -⟩ := List.lookup_eq_some_iff.mp h
  have hmem : (op, s) ∈ Operator.spellings := by
    rw [heq]
    exact List.mem_append_right _ List.mem_cons_self
  exact notMem_of_all (List.all_eq_true.mp hall (op, s) hmem) c hc

end JavaRender.Scan
