import JavaRender.Proofs.Scan.Literal
import JavaRender.Proofs.Typed.Rules

/-!
Expressions and braces. When no freely chosen text has a quote, a brace or a line break, the text of
an expression leaves the count of braces as it is and ends outside of literals; it begins with a
character that is neither blank nor a closing brace.
-/
namespace JavaRender.Scan

open Typed

def Unbraced (s : String) : Prop := ∀ c ∈ s.toList, c ∉ ['"', '\'', '\x7b', '\x7d', '\n']

instance (s : String) : Decidable (Unbraced s) := List.decidableBAll _ s.toList

def StartsVisibly (s : String) : Prop := ∃ c ∈ s.toList.head?, Blank.isBlank c = false

instance (s : String) : Decidable (StartsVisibly s) := Option.decidableExistsMem s.toList.head?

def braceRules : Rules where
  name s := StartsVisibly s ∧ Unbraced s
  type s := StartsVisibly s ∧ Unbraced s
  operator op := Operator.spelling? op = none → Unbraced op

/-- A text whose first character shows the depth of its line. -/
def Begins (s : String) : Prop :=
  ∃ c ∈ s.toList.head?, Blank.isBlank c = false ∧ c ≠ '\x7d'

instance (s : String) : Decidable (Begins s) := Option.decidableExistsMem s.toList.head?

def Level (s : String) : Prop := Steady braces 0 s.toList

theorem Unbraced.level {s : String} (h : Unbraced s) : Level s := by
  have hspecial : ∀ c ∈ braces.special, c ∈ ['"', '\'', '\x7b', '\x7d', '\n'] := by
    simp [Brackets.special, braces]
  exact Steady.plain fun c hc hmem => h c hc (hspecial c hmem)

/-- A fixed text without a mark of the scanner. -/
theorem level_of_all {s : String} (h : s.toList.all (!braces.special.contains ·) = true) :
    Level s :=
  Steady.plain (notMem_of_all h)

theorem Level.append {s t : String} (hs : Level s) (ht : Level t) : Level (s ++ t) :=
  Steady.text_append hs ht

theorem Begins.append {s : String} (h : Begins s) (t : String) : Begins (s ++ t) := by
  obtain ⟨c, hhead, hvisible⟩ := h
  obtain ⟨rest, hs⟩ := List.head?_eq_some_iff.mp hhead
  refine ⟨c, ?_, hvisible⟩
  rw [String.toList_append, hs, List.cons_append, List.head?_cons]
  rfl

theorem begins_of_unbraced {s : String} (h : StartsVisibly s ∧ Unbraced s) : Begins s := by
  obtain ⟨⟨c, hhead, hblank⟩, hunbraced⟩ := h
  refine ⟨c, hhead, hblank, ?_⟩
  rintro rfl
  exact hunbraced _ (List.mem_of_mem_head? hhead) (by decide)

theorem level_blank : Level " " := level_of_all rfl

theorem level_comma : Level ", " := level_of_all rfl

theorem level_point : Level "." := level_of_all rfl

theorem level_equals : Level " = " := level_of_all rfl

theorem level_semicolon : Level ";" := level_of_all rfl

theorem level_parentheses : Level "(" ∧ Level ")" := ⟨level_of_all rfl, level_of_all rfl⟩

theorem level_call {name : String} {texts : List String} (hname : Unbraced name)
    (h : ∀ s ∈ texts, Level s) : Level (name ++ "(" ++ ", ".intercalate texts ++ ")") := by
  obtain ⟨hopen, hclose⟩ := level_parentheses
  exact ((hname.level.append hopen).append (Steady.text_intercalate level_comma h)).append hclose

/-- A number begins with a digit or a sign. -/
theorem begins_of_numeral {s : String} (h : ∀ c ∈ s.toList, Numeral.isNumeral c = true)
    (hne : s.toList ≠ []) : Begins s := by
  obtain ⟨c, rest, hs⟩ := List.exists_cons_of_ne_nil hne
  have hc := h c (by rw [hs]; exact List.mem_cons_self)
  refine ⟨c, by rw [hs]; rfl, Numeral.isBlank_numeral hc, ?_⟩
  rintro rfl
  exact absurd hc (by decide)

theorem begins_literal (l : Typed.Literal) : Begins l.text := by
  cases l with
  | string s =>
    have hquote : Begins "\"" := by decide
    exact (hquote.append _).append _
  | character c =>
    have hquote : Begins "'" := by decide
    exact (hquote.append _).append _
  | integer n =>
    exact begins_of_numeral (fun _ hc => Numeral.isNumeral_of_mem_int hc) (Numeral.int_ne_nil n)
  | ordinal k =>
    exact begins_of_numeral (fun _ hc => Numeral.isNumeral_of_mem_nat hc) (Numeral.nat_ne_nil _)
  | decimal d =>
    exact begins_of_numeral (fun _ hc => Numeral.isNumeral_of_mem_decimal hc)
      (Numeral.decimal_ne_nil d)
  | double x d h =>
    exact begins_of_numeral (fun _ hc => Numeral.isNumeral_of_mem_decimal hc)
      (Numeral.decimal_ne_nil d)
  | boolean b =>
    have hall : ∀ b, Begins (Literal.ofBoolean b) := by decide
    exact hall b
  | nil _ =>
    have hnull : Begins "null" := by decide
    exact hnull

theorem level_spelling {op : String} (h : braceRules.operator op) : Level (spelling op) := by
  unfold spelling
  cases hknown : Operator.spelling? op with
  | none => exact (h hknown).level
  | some s => exact Steady.unmarked fun c hc => spelling_notMem_marks hknown hc

mutual

/-- The text of an expression leaves the count of braces as it is. -/
theorem level_text : ∀ e : Expr, e.Obeys braceRules → Level e.text
  | .literal l, _ => Steady.literal l
  | .group e, h => by
    obtain ⟨hopen, hclose⟩ := level_parentheses
    exact (hopen.append (level_text e h)).append hclose
  | .binary op left right, h => by
    have hfront := ((level_text left h.2.1).append level_blank).append (level_spelling h.1)
    exact (hfront.append level_blank).append (level_text right h.2.2)
  | .access var none, h => h.2.level
  | .access var (some receiver), h =>
    ((level_text receiver h.2).append level_point).append h.1.2.level
  | .call function arguments none, h => level_call h.1.2 (level_texts arguments h.2)
  | .call function arguments (some receiver), h => by
    have hcall := level_call h.1.2 (level_texts arguments h.2.1)
    exact ((level_text receiver h.2.2).append level_point).append hcall

theorem level_texts : ∀ es : List Expr, exprsObey braceRules es → ∀ s ∈ exprTexts es, Level s
  | [], _, _, hs => absurd hs List.not_mem_nil
  | e :: rest, h, s, hs => by
    rcases List.mem_cons.mp hs with rfl | hs
    · exact level_text e h.1
    · exact level_texts rest h.2 s hs

end

/-- An expression begins with a literal, a parenthesis or a name. -/
theorem begins_text : ∀ e : Expr, e.Obeys braceRules → Begins e.text
  | .literal l, _ => begins_literal l
  | .group e, _ => by
    have hopen : Begins "(" := by decide
    exact (hopen.append e.text).append ")"
  | .binary op left right, h => by
    have hleft := begins_text left h.2.1
    exact (((hleft.append " ").append (spelling op)).append " ").append right.text
  | .access var none, h => begins_of_unbraced h
  | .access var (some receiver), h => ((begins_text receiver h.2).append ".").append var.jvmName
  | .call function arguments none, h =>
    (((begins_of_unbraced h.1).append "(").append (", ".intercalate (exprTexts arguments))).append
      ")"
  | .call function arguments (some receiver), h =>
    ((begins_text receiver h.2.2).append ".").append
      (function.jvmName ++ "(" ++ ", ".intercalate (exprTexts arguments) ++ ")")

/-- A text that stands at the beginning of a line and leaves the count of braces as it is. -/
structure Leads (s : String) : Prop where
  begins : Begins s
  level : Level s

theorem Leads.append {s t : String} (hs : Leads s) (ht : Level t) : Leads (s ++ t) :=
  ⟨hs.begins.append t, hs.level.append ht⟩

theorem leads_of_unbraced {s : String} (h : StartsVisibly s ∧ Unbraced s) : Leads s :=
  ⟨begins_of_unbraced h, h.2.level⟩

theorem leads_text (e : Expr) (h : e.Obeys braceRules) : Leads e.text :=
  ⟨begins_text e h, level_text e h⟩

end JavaRender.Scan
