import JavaRender.Proofs.Scan.Literal
import JavaRender.Proofs.Typed.Walk

/-!
A reader of the quoted literals of a Java text. It goes from left to right, takes every quotation
mark outside of literals for the start of one and undoes the escapes in it; a text with a broken
literal cannot be read. What a text without broken literals holds adds up from its parts.
-/
namespace JavaRender.Tokens

open Literal (escapeChar)

structure Quotation where
  kind : LiteralKind
  value : String
deriving DecidableEq, Repr

def unescape? (c : Char) : Option Char :=
  if c = '"' ∨ c = '\'' ∨ c = '\\' then some c
  else if c = 'n' then some '\n'
  else if c = 'r' then some '\r'
  else if c = 't' then some '\t'
  else if c = 'b' then some '\x08'
  else if c = 'f' then some '\x0c'
  else none

def quotation? (quote : Char) (value : List Char) : Option Quotation :=
  if quote = '"' then some ⟨.string, String.ofList value⟩
  else match value with
    | [c] => some ⟨.character, String.singleton c⟩
    | _ => none

/-- Where a reader stands: outside of literals, in one of which it knows the mark and the characters
so far, or behind a backslash there. -/
inductive Place where
  | code
  | inside (quote : Char) (value : List Char)
  | escaped (quote : Char) (value : List Char)

/-- The literals from a place on. No line ends in a literal, and each is closed. -/
def quotationsFrom : Place → List Char → Option (List Quotation)
  | .code, [] => some []
  | .inside _ _, [] => none
  | .escaped _ _, [] => none
  | .code, c :: rest =>
    if c = '"' ∨ c = '\'' then quotationsFrom (.inside c []) rest else quotationsFrom .code rest
  | .inside quote value, c :: rest =>
    if c = '\\' then quotationsFrom (.escaped quote value) rest
    else if c = quote then
      (quotation? quote value).bind fun q => (quotationsFrom .code rest).map (q :: ·)
    else if c = '\n' ∨ c = '\r' then none
    else quotationsFrom (.inside quote (value ++ [c])) rest
  | .escaped quote value, c :: rest =>
    (unescape? c).bind fun x => quotationsFrom (.inside quote (value ++ [x])) rest

def quotations? (s : String) : Option (List Quotation) := quotationsFrom .code s.toList

def quotationOf? : Tree → Option Quotation
  | .literal (.text s) (.kind .string) => some ⟨.string, s⟩
  | .literal (.text s) (.kind .character) => some ⟨.character, s⟩
  | _ => none

def quoted (nodes : List Tree) : List Quotation := nodes.filterMap quotationOf?

/-- Outside of literals a reader finds these quotations in a text and then reads on outside. -/
def Reads (s : String) (found : List Quotation) : Prop :=
  ∀ rest, quotationsFrom .code (s.toList ++ rest) =
    (quotationsFrom .code rest).map (found ++ ·)

def Unquoted (s : String) : Prop := ∀ c ∈ s.toList, c ≠ '"' ∧ c ≠ '\''

instance (s : String) : Decidable (Unquoted s) := List.decidableBAll _ s.toList

section Reads

variable {s t : String} {found others : List Quotation}

theorem quoted_append (front back : List Tree) :
    quoted (front ++ back) = quoted front ++ quoted back :=
  List.filterMap_append

theorem quoted_cons_none {t : Tree} (h : quotationOf? t = none) (rest : List Tree) :
    quoted (t :: rest) = quoted rest :=
  List.filterMap_cons_none h

theorem Reads.append (hs : Reads s found) (ht : Reads t others) :
    Reads (s ++ t) (found ++ others) := by
  intro rest
  rw [String.toList_append, List.append_assoc, hs, ht, Option.map_map]
  congr 1
  funext more
  simp only [Function.comp_apply, List.append_assoc]

/-- A text without quotation marks holds nothing. -/
theorem Reads.plain (h : Unquoted s) : Reads s [] := by
  intro rest
  have hskip : ∀ cs : List Char, (∀ c ∈ cs, c ≠ '"' ∧ c ≠ '\'') →
      quotationsFrom .code (cs ++ rest) = quotationsFrom .code rest := by
    intro cs hcs
    induction cs with
    | nil => rfl
    | cons c others ih =>
      obtain ⟨hdouble, hsingle⟩ := hcs c List.mem_cons_self
      have hmark : ¬ (c = '"' ∨ c = '\'') := by simp [hdouble, hsingle]
      rw [List.cons_append, quotationsFrom, if_neg hmark]
      exact ih fun c hc => hcs c (List.mem_cons_of_mem _ hc)
  rw [hskip s.toList h]
  simp

/-- A text without quotation marks may stand in front. -/
theorem Reads.behind (h : Reads t found) (hs : Unquoted s) : Reads (s ++ t) found :=
  (Reads.plain hs).append h

/-- A text without quotation marks may follow. -/
theorem Reads.then (h : Reads s found) (ht : Unquoted t) : Reads (s ++ t) found := by
  have hboth := h.append (Reads.plain ht)
  rwa [List.append_nil] at hboth

/-- What a text holds that is known to end in code. -/
theorem Reads.quotations_eq (h : Reads s found) : quotations? s = some found := by
  have hend := h []
  rw [List.append_nil] at hend
  rw [quotations?, hend, quotationsFrom, Option.map_some, List.append_nil]

end Reads

section Quoted

variable {quote : Char}

/-- A character of a value is escaped by a letter that stands for it, or it stands for itself. -/
theorem escapeChar_read (hquote : quote = '"' ∨ quote = '\'') (c : Char) :
    (∃ letter, escapeChar quote c = ['\\', letter] ∧ unescape? letter = some c) ∨
      escapeChar quote c = [c] ∧ c ≠ '\\' ∧ c ≠ quote ∧ c ≠ '\n' ∧ c ≠ '\r' := by
  unfold escapeChar
  by_cases hmark : c = quote
  · left
    refine ⟨c, if_pos hmark, ?_⟩
    have hknown : c = '"' ∨ c = '\'' ∨ c = '\\' := by
      rcases hquote with rfl | rfl
      · exact Or.inl hmark
      · exact Or.inr (Or.inl hmark)
    rw [unescape?, if_pos hknown]
  rw [if_neg hmark]
  by_cases hback : c = '\\'
  · subst hback
    exact Or.inl ⟨'\\', rfl, by decide⟩
  rw [if_neg hback]
  by_cases hline : c = '\n'
  · subst hline
    exact Or.inl ⟨'n', rfl, by decide⟩
  rw [if_neg hline]
  by_cases hreturn : c = '\r'
  · subst hreturn
    exact Or.inl ⟨'r', rfl, by decide⟩
  rw [if_neg hreturn]
  by_cases htab : c = '\t'
  · subst htab
    exact Or.inl ⟨'t', rfl, by decide⟩
  rw [if_neg htab]
  by_cases hbell : c = '\x08'
  · subst hbell
    exact Or.inl ⟨'b', rfl, by decide⟩
  rw [if_neg hbell]
  by_cases hfeed : c = '\x0c'
  · subst hfeed
    exact Or.inl ⟨'f', rfl, by decide⟩
  rw [if_neg hfeed]
  exact Or.inr ⟨rfl, hback, hmark, hline, hreturn⟩

/-- In a literal a reader takes the escaped characters of a value for that value. -/
theorem quotationsFrom_escaped (hquote : quote = '"' ∨ quote = '\'') (value rest : List Char) :
    ∀ before, quotationsFrom (.inside quote before) (value.flatMap (escapeChar quote) ++ rest) =
      quotationsFrom (.inside quote (before ++ value)) rest := by
  induction value with
  | nil =>
    intro before
    rw [List.flatMap_nil, List.nil_append, List.append_nil]
  | cons c others ih =>
    intro before
    have hnext := ih (before ++ [c])
    rw [List.append_assoc, List.singleton_append] at hnext
    rw [List.flatMap_cons, List.append_assoc, ← hnext]
    rcases escapeChar_read hquote c with
      ⟨letter, heq, hletter⟩ | ⟨heq, hback, hmark, hline, hreturn⟩
    · rw [heq, List.cons_append, List.cons_append, List.nil_append, quotationsFrom,
        if_pos rfl, quotationsFrom, hletter, Option.bind_some]
    · have hbreak : ¬ (c = '\n' ∨ c = '\r') := by simp [hline, hreturn]
      rw [heq, List.singleton_append, quotationsFrom, if_neg hback, if_neg hmark, if_neg hbreak]

/-- An escaped value between its marks is read as this value. -/
theorem Reads.quoted {s : String} {value : List Char} {q : Quotation}
    (hquote : quote = '"' ∨ quote = '\'') (hvalue : quotation? quote value = some q)
    (hs : s.toList = quote :: (value.flatMap (escapeChar quote) ++ [quote])) : Reads s [q] := by
  intro rest
  have hback : quote ≠ '\\' := by rcases hquote with rfl | rfl <;> decide
  rw [hs, List.cons_append, List.append_assoc, quotationsFrom, if_pos hquote,
    quotationsFrom_escaped hquote, List.nil_append, List.singleton_append, quotationsFrom,
    if_neg hback, if_pos rfl, hvalue, Option.bind_some]
  rfl

end Quoted

/-- The text of a literal holds exactly this literal if it is a string or a character. -/
theorem reads_literal (l : Typed.Literal) : Reads l.text (quoted [l.toTree]) := by
  have hnumeral : ∀ s : String, (∀ c ∈ s.toList, Numeral.isNumeral c = true) → Unquoted s := by
    intro s hs c hc
    have hmark := Scan.isNumeral_notMem_marks (hs c hc)
    constructor
    · rintro rfl
      exact hmark (by decide)
    · rintro rfl
      exact hmark (by decide)
  cases l with
  | string s =>
    have hvalue : quotation? '"' s.toList = some ⟨.string, s⟩ := by
      simp [quotation?]
    exact Reads.quoted (Or.inl rfl) hvalue
      (by simp [Typed.Literal.text, Literal.escapeText, Literal.escape])
  | character c =>
    have hvalue : quotation? '\'' [c] = some ⟨.character, String.singleton c⟩ := rfl
    exact Reads.quoted (Or.inr rfl) hvalue
      (by simp [Typed.Literal.text, Literal.escapeCharacter, Literal.escape])
  | integer n => exact Reads.plain (hnumeral _ fun c hc => Numeral.isNumeral_of_mem_int hc)
  | ordinal k => exact Reads.plain (hnumeral _ fun c hc => Numeral.isNumeral_of_mem_nat hc)
  | decimal d => exact Reads.plain (hnumeral _ fun c hc => Numeral.isNumeral_of_mem_decimal hc)
  | double x d h => exact Reads.plain (hnumeral _ fun c hc => Numeral.isNumeral_of_mem_decimal hc)
  | boolean b =>
    have hword : Unquoted (Literal.ofBoolean b) := by cases b <;> decide
    exact Reads.plain hword
  | nil value =>
    have hnone : quotationOf? (Typed.Literal.nil value).toTree = none := by
      cases value <;> rfl
    have hword : Unquoted "null" := by decide
    rw [quoted_cons_none hnone]
    exact Reads.plain hword

end JavaRender.Tokens
