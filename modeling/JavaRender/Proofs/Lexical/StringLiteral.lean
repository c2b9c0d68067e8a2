import JavaRender.Proofs.Lexical.Translation
import JavaRender.Proofs.Tokens.Reader
import Mathlib.Data.List.Basic

/-!
String literals of a Java text. Main statement: the literal of a text is read as one string literal
that denotes the text and ends with it, and what follows is left as it is; no Unicode escape starts
in the literal and no line ends in it, whatever the text holds.
-/
namespace JavaRender.Lexical

open Literal (escapeChar)
open Tokens (unescape? escapeChar_read)

def letterUnit? (u : UInt16) : Option UInt16 := (unescape? (Char.ofNat u.toNat)).map unit

/-- A string literal from behind its opening mark on, or from behind a backslash in it: the units
that it denotes and what stands behind its closing mark. -/
def stringFrom (escaped : Bool) : List UInt16 → Option (List UInt16 × List UInt16)
  | [] => none
  | u :: rest =>
    if escaped then
      (letterUnit? u).bind fun x =>
        (stringFrom false rest).map fun (value, left) => (x :: value, left)
    else if u = unit '"' then some ([], rest)
    else if u = unit '\\' then stringFrom true rest
    else if u = unit '\n' ∨ u = unit '\r' then none
    else (stringFrom false rest).map fun (value, left) => (u :: value, left)

def stringLiteral? : List UInt16 → Option (List UInt16 × List UInt16)
  | [] => none
  | u :: rest => if u = unit '"' then stringFrom false rest else none

def readString? (cs : List Char) : Option (List UInt16 × List UInt16) :=
  (translate? cs).bind stringLiteral?

section Units

def letters : List (Char × Char) :=
  [('"', '"'), ('\'', '\''), ('\\', '\\'), ('n', '\n'), ('r', '\r'), ('t', '\t'), ('b', '\x08'),
    ('f', '\x0c')]

theorem mem_letters {letter c : Char} (h : unescape? letter = some c) : (letter, c) ∈ letters := by
  unfold unescape? at h
  split_ifs at h with hself
  · cases h
    rcases hself with rfl | rfl | rfl <;> decide
  all_goals
    cases h
    subst letter
    decide

/-- A letter of an escape and the character that it stands for have one unit each. -/
theorem letterUnit_eq {letter c : Char} (h : unescape? letter = some c) :
    charUnits letter = [unit letter] ∧ charUnits c = [unit c] ∧
      letterUnit? (unit letter) = some (unit c) := by
  have hall : ∀ pair ∈ letters, charUnits pair.1 = [unit pair.1] ∧
      charUnits pair.2 = [unit pair.2] ∧ letterUnit? (unit pair.1) = some (unit pair.2) := by
    decide
  exact hall (letter, c) (mem_letters h)

/-- Units that mean nothing in a literal stand for themselves. -/
theorem stringFrom_plain {plain : List UInt16} (hquote : unit '"' ∉ plain)
    (hback : unit '\\' ∉ plain) (hline : unit '\n' ∉ plain) (hreturn : unit '\r' ∉ plain)
    (rest : List UInt16) :
    stringFrom false (plain ++ rest) =
      (stringFrom false rest).map fun (value, left) => (plain ++ value, left) := by
  induction plain with
  | nil =>
    change _ = (stringFrom false rest).map fun found => found
    rw [Option.map_id']
    rfl
  | cons u others ih =>
    rw [List.mem_cons, not_or] at hquote hback hline hreturn
    have hbreak : ¬ (u = unit '\n' ∨ u = unit '\r') :=
      not_or.mpr ⟨Ne.symm hline.1, Ne.symm hreturn.1⟩
    rw [List.cons_append, stringFrom, if_neg Bool.false_ne_true,
      if_neg (Ne.symm hquote.1), if_neg (Ne.symm hback.1),
      if_neg hbreak, ih hquote.2 hback.2 hline.2 hreturn.2, Option.map_map]
    rfl

/-- The escaped characters of a text are read as the text. -/
theorem stringFrom_escaped (value : List Char) (rest : List UInt16) :
    stringFrom false (units (value.flatMap (escapeChar '"')) ++ rest) =
      (stringFrom false rest).map fun (more, left) => (units value ++ more, left) := by
  induction value with
  | nil =>
    change _ = (stringFrom false rest).map fun found => found
    rw [Option.map_id']
    rfl
  | cons c others ih =>
    have htogether : ∀ found : Option (List UInt16 × List UInt16),
        (found.map fun (more, left) => (units others ++ more, left)).map
            (fun (more, left) => (charUnits c ++ more, left)) =
          found.map fun (more, left) => (units (c :: others) ++ more, left) := by
      intro found
      rw [Option.map_map]
      congr 1
      funext pair
      simp only [Function.comp_apply, units_cons, List.append_assoc]
    rw [List.flatMap_cons, units_append, List.append_assoc, ← htogether, ← ih]
    rcases escapeChar_read (.inl rfl) c with
      ⟨letter, heq, hletter⟩ | ⟨heq, hback, hquote, hline, hreturn⟩
    · obtain ⟨hfirst, hunit, hmeans⟩ := letterUnit_eq hletter
      have hunits : units ['\\', letter] = [unit '\\', unit letter] := by
        rw [units_cons, units_cons, hfirst]
        rfl
      have hmark : unit '\\' ≠ unit '"' := by decide
      rw [heq, hunits, hunit, List.cons_append, List.cons_append, List.nil_append, stringFrom,
        if_neg Bool.false_ne_true, if_neg hmark, if_pos rfl, stringFrom, if_pos rfl, hmeans,
        Option.bind_some]
      rfl
    · have hunits : units [c] = charUnits c := by
        rw [units_cons]
        exact List.append_nil _
      rw [heq, hunits]
      exact stringFrom_plain (notMem_charUnits (by decide) hquote)
        (notMem_charUnits (by decide) hback) (notMem_charUnits (by decide) hline)
        (notMem_charUnits (by decide) hreturn) _

end Units

/-- Behind an even number of backslashes no escaped character lets a Unicode escape start. -/
theorem quiet_escaped {quote : Char} (hquote : quote = '"' ∨ quote = '\'') (value : List Char)
    {slashes : Nat} (heven : slashes % 2 = 0) :
    Quiet slashes (value.flatMap (escapeChar quote) ++ [quote]) := by
  have hmark : quote ≠ '\\' := by rcases hquote with rfl | rfl <;> decide
  induction value generalizing slashes with
  | nil =>
    refine Quiet.cons (fun before after heq => ?_) hmark
    simp at heq
  | cons c others ih =>
    rw [List.flatMap_cons, List.append_assoc]
    rcases escapeChar_read hquote c with ⟨letter, heq, hletter⟩ | ⟨heq, hback, -⟩
    · have hforeign : letter ≠ 'u' := by
        have hnone : unescape? 'u' = none := by decide
        rintro rfl
        rw [hnone] at hletter
        cases hletter
      rw [heq, List.cons_append, List.cons_append, List.nil_append]
      refine Quiet.slash ?_ (.inr fun hhead => hforeign (Option.some.inj hhead))
      by_cases hslash : letter = '\\'
      · subst hslash
        exact Quiet.slash (ih (by omega)) (.inl (by omega))
      · exact Quiet.cons (ih rfl) hslash
    · rw [heq, List.singleton_append]
      exact Quiet.cons (ih rfl) hback

def literalChars (quote : Char) (value : List Char) : List Char :=
  quote :: (value.flatMap (escapeChar quote) ++ [quote])

/-- No Unicode escape starts in a literal, so its characters are translated as they are. -/
theorem quiet_literal {quote : Char} (hquote : quote = '"' ∨ quote = '\'') (value : List Char) :
    Quiet 0 (literalChars quote value) := by
  have hmark : quote ≠ '\\' := by rcases hquote with rfl | rfl <;> decide
  exact (quiet_escaped hquote value rfl).cons hmark

theorem translate_literal {quote : Char} (hquote : quote = '"' ∨ quote = '\'')
    (value rest : List Char) :
    translate? (literalChars quote value ++ rest) =
      (translate? rest).map (units (literalChars quote value) ++ ·) := by
  have hmark : quote ≠ '\\' := by rcases hquote with rfl | rfl <;> decide
  have hlast : (literalChars quote value).getLast? = some quote := by
    rw [literalChars, ← List.cons_append, List.getLast?_concat]
  have hquiet := translateFrom_quiet (quiet_literal hquote value)
    (by rw [hlast]; exact fun h => hmark (Option.some.inj h)) rest
  have hcount : slashesAfter 0 (literalChars quote value) = 0 := by
    rw [literalChars, ← List.cons_append]
    exact slashesAfter_append hmark 0 _
  rw [translate?, hquiet, hcount, translate?]

/-- The literal of a text is read as a string literal that denotes the text. -/
theorem readString_literal (value rest : List Char) :
    readString? (literalChars '"' value ++ rest) =
      (translate? rest).map fun left => (units value, left) := by
  have hopen : units ['"'] = [unit '"'] := by decide
  have hread : ∀ left, stringLiteral? (units (literalChars '"' value) ++ left) =
      some (units value, left) := by
    intro left
    have hclose : stringFrom false ([unit '"'] ++ left) = some ([], left) := rfl
    rw [literalChars, ← List.singleton_append, units_append, hopen, List.append_assoc,
      List.singleton_append, stringLiteral?, if_pos rfl, units_append, hopen, List.append_assoc,
      stringFrom_escaped, hclose, Option.map_some]
    dsimp only
    rw [List.append_nil]
  rw [readString?, translate_literal (.inl rfl)]
  cases translate? rest with
  | none => rfl
  | some left => exact hread left

/-- Texts with the same escaped form are the same: they are what it is read as. -/
theorem escapeText_injective {s t : String} (h : Literal.escapeText s = Literal.escapeText t) :
    s = t := by
  have hchars : s.toList.flatMap (escapeChar '"') = t.toList.flatMap (escapeChar '"') :=
    String.ofList_injective h
  have hread : (translate? []).map (fun left => (units s.toList, left)) =
      (translate? []).map fun left => (units t.toList, left) := by
    rw [← readString_literal, ← readString_literal, literalChars, literalChars, hchars]
  have hunits : units s.toList = units t.toList := congrArg Prod.fst (Option.some.inj hread)
  exact String.toList_inj.mp (units_injective hunits)

/-- Line breaks of a value are escaped. -/
theorem unbroken_literal {quote : Char} (hquote : quote = '"' ∨ quote = '\'') (value : List Char) :
    ∀ c ∈ literalChars quote value, c ≠ '\n' ∧ c ≠ '\r' := by
  have hmark : quote ≠ '\n' ∧ quote ≠ '\r' := by rcases hquote with rfl | rfl <;> decide
  have hletters : ∀ pair ∈ letters, pair.1 ≠ '\n' ∧ pair.1 ≠ '\r' := by decide
  have hback : '\\' ≠ '\n' ∧ '\\' ≠ '\r' := by decide
  intro c hc
  simp only [literalChars, List.mem_cons, List.mem_append, List.mem_flatMap, List.not_mem_nil,
    or_false] at hc
  rcases hc with rfl | ⟨d, -, hc⟩ | rfl
  · exact hmark
  · rcases escapeChar_read hquote d with ⟨letter, heq, hletter⟩ | ⟨heq, -, -, hline, hreturn⟩
    · rw [heq, List.mem_pair] at hc
      rcases hc with rfl | rfl
      · exact hback
      · exact hletters _ (mem_letters hletter)
    · rw [heq, List.mem_singleton] at hc
      subst hc
      exact ⟨hline, hreturn⟩
  · exact hmark

theorem text_of_string (s : String) :
    ("\"" ++ Literal.escapeText s ++ "\"").toList = literalChars '"' s.toList := by
  simp [Literal.escapeText, Literal.escape, literalChars]

/-- The Java text of a string, whatever the string holds. It is read as one string literal that
denotes the string and ends where the text ends: what follows is neither taken into the literal nor
read in another way. In the text no Unicode escape starts and no line ends. -/
theorem string_text_denotes (s : String) :
    ∃ text, Literal.render (.text s) (.kind .string) = .ok text ∧
      (∀ rest, readString? (text.toList ++ rest) =
        (translate? rest).map fun left => (units s.toList, left)) ∧
      Quiet 0 text.toList ∧ (∀ c ∈ text.toList, c ≠ '\n' ∧ c ≠ '\r') ∧
      ∀ t, Literal.escapeText t = Literal.escapeText s ↔ t = s := by
  refine ⟨"\"" ++ Literal.escapeText s ++ "\"", rfl, ?_, ?_, ?_, ?_⟩
  · intro rest
    rw [text_of_string, readString_literal]
  · rw [text_of_string]
    exact quiet_literal (.inl rfl) s.toList
  · rw [text_of_string]
    exact unbroken_literal (.inl rfl) s.toList
  · intro t
    constructor
    · exact escapeText_injective
    · exact congrArg Literal.escapeText

end JavaRender.Lexical
