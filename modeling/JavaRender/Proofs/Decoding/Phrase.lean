import JavaRender.Proofs.Decoding.Name

/-!
Expressions as rows of words. A solid text has blanks in literals and between parentheses only, so a
row of solid words with blanks between them is cut into its words in one way. The text of an
expression is such a row, in which operands and operators take turns.
-/
namespace JavaRender.Decoding

open Typed Scan

/-- A text with blanks in literals and between its own parentheses only. -/
def Solid (w : String) : Prop := Steady parens 0 w.toList

def Enclosable (s : String) : Prop := Steady parens 1 s.toList

theorem Solid.append {s t : String} (hs : Solid s) (ht : Solid t) : Solid (s ++ t) :=
  Steady.text_append hs ht

theorem Enclosable.append {s t : String} (hs : Enclosable s) (ht : Enclosable t) :
    Enclosable (s ++ t) :=
  Steady.text_append hs ht

theorem Solid.enclosable {s : String} (h : Solid s) : Enclosable s := Steady.mono h (by decide)

theorem Enclosable.enclosed {s : String} (h : Enclosable s) : Solid ("(" ++ s ++ ")") := by
  have hends : "(".toList = [parens.opening] ∧ ")".toList = [parens.closing] := by decide
  rw [Solid, String.toList_append, String.toList_append, hends.1, hends.2]
  exact Steady.between h (Int.le_refl 0)

theorem enclosable_blank : Enclosable " " := by
  intro depth hdepth
  have hadmits : parens.Admits ⟨.code, depth⟩ ' ' := ⟨by decide, fun _ => rfl, fun _ _ => hdepth⟩
  exact .cons hadmits (.nil _)

theorem Enclosable.intercalate {separator : String} (hseparator : Enclosable separator)
    {parts : List String} (h : ∀ s ∈ parts, Enclosable s) :
    Enclosable (separator.intercalate parts) :=
  Steady.text_intercalate hseparator h

section Words

variable {first second rest rest' : List Char}

/-- Behind a solid text no blank can stand in a solid one. -/
theorem not_solid_cut (hfirst : Steady parens 0 first) :
    ¬ Steady parens 0 (first ++ ' ' :: rest) := by
  intro h
  have hpasses := (h 0 (Int.le_refl 0)).split.2
  rw [(hfirst 0 (Int.le_refl 0)).scan_eq] at hpasses
  cases hpasses with
  | cons hblank _ => exact absurd (hblank.2.2 rfl (by decide)) (by decide)

/-- Solid texts end at the same blank. -/
theorem solid_cut_unique (hfirst : Steady parens 0 first) (hsecond : Steady parens 0 second)
    (h : first ++ ' ' :: rest = second ++ ' ' :: rest') : first = second ∧ rest = rest' := by
  rcases List.append_eq_append_iff.mp h with ⟨middle, hlonger, hrest⟩ | ⟨middle, hlonger, hrest⟩
  · cases middle with
    | nil => exact ⟨by rw [hlonger, List.append_nil], (List.cons.inj hrest).2⟩
    | cons c others =>
      obtain ⟨rfl, -⟩ := List.cons.inj hrest
      exact absurd (hlonger ▸ hsecond) (not_solid_cut hfirst)
  · cases middle with
    | nil => exact ⟨by rw [hlonger, List.append_nil], (List.cons.inj hrest).2.symm⟩
    | cons c others =>
      obtain ⟨rfl, -⟩ := List.cons.inj hrest
      exact absurd (hlonger ▸ hfirst) (not_solid_cut hsecond)

/-- Words with blanks between them. -/
theorem joined_cons_cons (w v : String) (rest : List String) :
    (" ".intercalate (w :: v :: rest)).toList =
      w.toList ++ ' ' :: (" ".intercalate (v :: rest)).toList := by
  have hblank : " ".toList = [' '] := by decide
  rw [String.intercalate_cons_cons, String.toList_append, String.toList_append, hblank,
    List.append_assoc, List.singleton_append]

/-- A row of solid words has no other words. -/
theorem words_unique {words words' : List String} (h : ∀ w ∈ words, Solid w)
    (h' : ∀ w ∈ words', Solid w) (hne : words ≠ []) (hne' : words' ≠ [])
    (heq : " ".intercalate words = " ".intercalate words') : words = words' := by
  induction words generalizing words' with
  | nil => exact absurd rfl hne
  | cons w rest ih =>
    obtain ⟨w', rest', rfl⟩ := List.exists_cons_of_ne_nil hne'
    have hw := h w List.mem_cons_self
    have hw' := h' w' List.mem_cons_self
    cases rest with
    | nil =>
      cases rest' with
      | nil =>
        rw [String.intercalate_singleton, String.intercalate_singleton] at heq
        rw [heq]
      | cons v' others' =>
        have hcut := congrArg String.toList heq
        rw [String.intercalate_singleton, joined_cons_cons] at hcut
        rw [Solid, hcut] at hw
        exact absurd hw (not_solid_cut hw')
    | cons v others =>
      cases rest' with
      | nil =>
        have hcut := congrArg String.toList heq
        rw [String.intercalate_singleton, joined_cons_cons] at hcut
        rw [Solid, ← hcut] at hw'
        exact absurd hw' (not_solid_cut hw)
      | cons v' others' =>
        have hcut := congrArg String.toList heq
        rw [joined_cons_cons, joined_cons_cons] at hcut
        obtain ⟨hfirst, hrest⟩ := solid_cut_unique hw hw' hcut
        have hothers := ih (fun w hmem => h w (List.mem_cons_of_mem _ hmem))
          (fun w hmem => h' w (List.mem_cons_of_mem _ hmem)) (by simp) (by simp)
          (String.toList_inj.mp hrest)
        rw [String.toList_inj.mp hfirst, hothers]

end Words

/-- A word of an expression that is no operator: neither the first word of a statement that returns
nor the sign of an assignment. -/
def Operand (w : String) : Prop := Solid w ∧ w ∉ ["return", "="]

theorem operand_of_mem {w : String} (hw : Solid w) {c : Char} (hc : c ∈ w.toList)
    (hforeign : c ∉ "return".toList ++ "=".toList) : Operand w := by
  rw [List.mem_append, not_or] at hforeign
  refine ⟨hw, fun hmem => ?_⟩
  rcases List.mem_cons.mp hmem with rfl | hmem
  · exact hforeign.1 hc
  · rw [List.mem_singleton.mp hmem] at hc
    exact hforeign.2 hc

theorem operator_solid {op : String} (h : IsOperator op) : Solid op := by
  obtain ⟨tag, htag⟩ := h
  exact Steady.unmarked fun c hc => spelling_notMem_marks htag hc

theorem operator_ne_equals {op : String} (h : IsOperator op) : op ≠ "=" := by
  have hall : ∀ entry ∈ Operator.spellings, entry.2 ≠ "=" := by decide
  obtain ⟨tag, htag⟩ := h
  obtain ⟨before, after, heq, -⟩ := List.lookup_eq_some_iff.mp htag
  exact hall (tag, op) (by rw [heq]; simp)

inductive Chain : List String → Prop
  | last {w : String} (operand : Operand w) : Chain [w]
  | more {w op : String} {rest : List String} (operand : Operand w) (operator : IsOperator op)
      (others : Chain rest) : Chain (w :: op :: rest)

theorem Chain.solid {words : List String} (h : Chain words) : ∀ w ∈ words, Solid w := by
  induction h with
  | last operand =>
    intro w hw
    rw [List.mem_singleton.mp hw]
    exact operand.1
  | more operand operator _ ih =>
    intro w hw
    rcases List.mem_cons.mp hw with rfl | hw
    · exact operand.1
    · rcases List.mem_cons.mp hw with rfl | hw
      · exact operator_solid operator
      · exact ih w hw

theorem Chain.exists_cons {words : List String} (h : Chain words) :
    ∃ w rest, words = w :: rest ∧ Operand w := by
  cases h with
  | last operand => exact ⟨_, _, rfl, operand⟩
  | more operand => exact ⟨_, _, rfl, operand⟩

theorem Chain.ne_nil {words : List String} (h : Chain words) : words ≠ [] := by
  obtain ⟨w, rest, rfl, -⟩ := h.exists_cons
  exact List.cons_ne_nil w rest

theorem Chain.append {words words' : List String} {op : String} (h : Chain words)
    (hop : IsOperator op) (h' : Chain words') : Chain (words ++ op :: words') := by
  induction h with
  | last operand => exact .more operand hop h'
  | more operand operator _ ih => exact .more operand operator ih

def Phrase (s : String) : Prop := ∃ words, Chain words ∧ s = " ".intercalate words

theorem Operand.phrase {w : String} (h : Operand w) : Phrase w :=
  ⟨[w], .last h, String.intercalate_singleton.symm⟩

theorem Phrase.operation {s t op : String} (hs : Phrase s) (hop : IsOperator op) (ht : Phrase t) :
    Phrase (s ++ " " ++ op ++ " " ++ t) := by
  obtain ⟨words, hwords, rfl⟩ := hs
  obtain ⟨words', hwords', rfl⟩ := ht
  obtain ⟨w, rest, rfl, -⟩ := hwords.exists_cons
  obtain ⟨w', rest', rfl, -⟩ := hwords'.exists_cons
  refine ⟨_, hwords.append hop hwords', ?_⟩
  rw [String.intercalate_append_of_ne_nil (by simp) (by simp), String.intercalate_cons_cons]
  simp only [String.append_assoc]

theorem Phrase.enclosable {s : String} (h : Phrase s) : Enclosable s := by
  obtain ⟨words, hwords, rfl⟩ := h
  exact enclosable_blank.intercalate fun w hw => (hwords.solid w hw).enclosable

/-- Behind a point a name belongs to the last word. -/
theorem Phrase.member {s name : String} (hs : Phrase s) (hname : Solid name) :
    Phrase (s ++ "." ++ name) := by
  have hpoint : Solid "." := Steady.unmarked (notMem_of_all rfl)
  have hextend : ∀ {w : String}, Operand w → Operand (w ++ "." ++ name) := by
    intro w hw
    exact operand_of_mem ((hw.1.append hpoint).append hname) (c := '.') (by simp) (by decide)
  obtain ⟨words, hwords, rfl⟩ := hs
  induction hwords with
  | last operand =>
    rw [String.intercalate_singleton]
    exact (hextend operand).phrase
  | @more w op rest operand operator others ih =>
    obtain ⟨words', hwords', heq⟩ := ih
    obtain ⟨v, tail, rfl, -⟩ := others.exists_cons
    obtain ⟨v', tail', rfl, -⟩ := hwords'.exists_cons
    refine ⟨_, .more operand operator hwords', ?_⟩
    rw [String.intercalate_cons_cons, String.intercalate_cons_cons, String.intercalate_cons_cons,
      String.intercalate_cons_cons, ← heq]
    simp only [String.append_assoc]

/-- A chain has no sign of an assignment. -/
theorem Chain.equals_notMem {words : List String} (h : Chain words) : "=" ∉ words := by
  have hoperand : ∀ {w : String}, Operand w → "=" ≠ w := by
    rintro w hw rfl
    exact hw.2 (by decide)
  induction h with
  | last operand => exact fun hmem => hoperand operand (List.mem_singleton.mp hmem)
  | more operand operator _ ih =>
    intro hmem
    rcases List.mem_cons.mp hmem with heq | hmem
    · exact hoperand operand heq
    · rcases List.mem_cons.mp hmem with heq | hmem
      · exact operator_ne_equals operator heq.symm
      · exact ih hmem

section Expressions

theorem operand_of_numeral {w : String} (h : ∀ c ∈ w.toList, Numeral.isNumeral c = true) :
    Operand w := by
  have hsign : '=' ∈ "=".toList := by decide
  have hletter : 'r' ∈ "return".toList := by decide
  refine ⟨Steady.numeral h, fun hmem => ?_⟩
  rcases List.mem_cons.mp hmem with rfl | hmem
  · exact absurd (h 'r' hletter) (by decide)
  · rw [List.mem_singleton.mp hmem] at h
    exact absurd (h '=' hsign) (by decide)

theorem operand_literal (l : Typed.Literal) : Operand l.text := by
  cases l with
  | string s =>
    exact operand_of_mem (Steady.literal (.string s)) (c := '"') (by simp [Literal.text])
      (by decide)
  | character c =>
    exact operand_of_mem (Steady.literal (.character c)) (c := '\'') (by simp [Literal.text])
      (by decide)
  | integer n => exact operand_of_numeral fun _ hc => Numeral.isNumeral_of_mem_int hc
  | ordinal k => exact operand_of_numeral fun _ hc => Numeral.isNumeral_of_mem_nat hc
  | decimal d => exact operand_of_numeral fun _ hc => Numeral.isNumeral_of_mem_decimal hc
  | double x d h => exact operand_of_numeral fun _ hc => Numeral.isNumeral_of_mem_decimal hc
  | boolean b =>
    have hwords : ∀ b, Literal.ofBoolean b ∉ ["return", "="] := by decide
    exact ⟨Steady.literal (.boolean b), hwords b⟩
  | nil value =>
    have hword : "null" ∉ ["return", "="] := by decide
    exact ⟨Steady.literal (.nil value), hword⟩

theorem name_solid {s : String} (h : isName s = true) : Solid s :=
  Steady.unmarked fun _ hc => name_notMem_marks h hc

theorem operand_name {s : String} (h : isName s = true) : Operand s :=
  ⟨name_solid h, name_notMem_words h⟩

/-- A call is one word. -/
theorem operand_call {name : String} {texts : List String} (hname : isName name = true)
    (h : ∀ s ∈ texts, Enclosable s) : Operand (name ++ "(" ++ ", ".intercalate texts ++ ")") := by
  have hcomma : Solid "," := Steady.unmarked (notMem_of_all rfl)
  have hseparator : Enclosable ", " := by
    have hsplit : ", " = "," ++ " " := by decide
    rw [hsplit]
    exact hcomma.enclosable.append enclosable_blank
  have hsolid := (name_solid hname).append (hseparator.intercalate h).enclosed
  rw [← String.append_assoc, ← String.append_assoc] at hsolid
  exact operand_of_mem hsolid (c := '(') (by simp) (by decide)

mutual

/-- The text of an expression is a chain of operands and operators. -/
theorem phrase_text : ∀ e : Expr, e.Obeys javaRules → Phrase e.text
  | .literal l, _ => (operand_literal l).phrase
  | .group e, h => by
    have hsolid := (phrase_text e h).enclosable.enclosed
    exact (operand_of_mem hsolid (c := '(') (by simp) (by decide)).phrase
  | .binary op left right, h => by
    obtain ⟨s, hs⟩ := Option.isSome_iff_exists.mp h.1
    have hspelling : spelling op = s := by rw [spelling, hs, Option.getD_some]
    rw [Expr.text, hspelling]
    exact (phrase_text left h.2.1).operation ⟨op, hs⟩ (phrase_text right h.2.2)
  | .access var none, h => (operand_name h).phrase
  | .access var (some receiver), h => (phrase_text receiver h.2).member (name_solid h.1)
  | .call function arguments none, h =>
    (operand_call h.1 (enclosable_texts arguments h.2)).phrase
  | .call function arguments (some receiver), h =>
    (phrase_text receiver h.2.2).member (operand_call h.1 (enclosable_texts arguments h.2.1)).1

theorem enclosable_texts : ∀ es : List Expr, exprsObey javaRules es →
    ∀ s ∈ exprTexts es, Enclosable s
  | [], _, _, hs => absurd hs List.not_mem_nil
  | e :: rest, h, s, hs => by
    rcases List.mem_cons.mp hs with rfl | hs
    · exact (phrase_text e h.1).enclosable
    · exact enclosable_texts rest h.2 s hs

end

end Expressions

end JavaRender.Decoding
