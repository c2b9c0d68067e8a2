import JavaRender.Node.Document
import JavaRender.Proofs.Lexical.StringLiteral

/-!
Character literals of a Java text. Such a literal holds one UTF-16 unit, as it is or escaped. Main
statement: the text of a character is read as a literal of its unit if it has only one; the text of
a character beyond the first plane, which has two, is no character literal at all.
-/
namespace JavaRender.Lexical

open Literal (escapeChar)
open Tokens (escapeChar_read)

def closed? (u : UInt16) : List UInt16 → Option (UInt16 × List UInt16)
  | [] => none
  | mark :: left => if mark = unit '\'' then some (u, left) else none

/-- A character literal from behind its opening mark on: the unit that it denotes and what stands
behind its closing mark. -/
def characterFrom? : List UInt16 → Option (UInt16 × List UInt16)
  | [] => none
  | [_] => none
  | u :: next :: rest =>
    if u = unit '\\' then (letterUnit? next).bind fun x => closed? x rest
    else if u = unit '\'' ∨ u = unit '\n' ∨ u = unit '\r' then none
    else closed? u (next :: rest)

def characterLiteral? : List UInt16 → Option (UInt16 × List UInt16)
  | [] => none
  | mark :: rest => if mark = unit '\'' then characterFrom? rest else none

def readCharacter? (cs : List Char) : Option (UInt16 × List UInt16) :=
  (translate? cs).bind characterLiteral?

section Units

variable {u : UInt16} {c : Char} {left : List UInt16}

theorem closed_eq (u : UInt16) (left : List UInt16) :
    closed? u (unit '\'' :: left) = some (u, left) := by
  rw [closed?, if_pos rfl]

/-- A backslash and a letter stand for the unit of the character that is escaped. -/
theorem characterFrom_letter {letter : Char} (h : Tokens.unescape? letter = some c) :
    characterFrom? (units ['\\', letter] ++ unit '\'' :: left) = some (unit c, left) := by
  obtain ⟨hletter, -, hmeans⟩ := letterUnit_eq h
  have hunits : units ['\\', letter] = [unit '\\', unit letter] := by
    rw [units_cons, units_cons, hletter]
    rfl
  rw [hunits, List.cons_append, List.singleton_append, characterFrom?, if_pos rfl, hmeans,
    Option.bind_some, closed_eq]

/-- A unit that means nothing in a literal stands for itself if the mark follows. -/
theorem characterFrom_plain (hback : u ≠ unit '\\') (hmark : u ≠ unit '\'')
    (hline : u ≠ unit '\n') (hreturn : u ≠ unit '\r') (next : UInt16) (rest : List UInt16) :
    characterFrom? (u :: next :: rest) = closed? u (next :: rest) := by
  have hplain : ¬ (u = unit '\'' ∨ u = unit '\n' ∨ u = unit '\r') := by
    simp only [hmark, hline, hreturn, or_self, not_false_eq_true]
  rw [characterFrom?, if_neg hback, if_neg hplain]

/-- An escaped character is read if it has one unit, and then as this unit. -/
theorem characterFrom_escaped (c : Char) (left : List UInt16) :
    characterFrom? (units (escapeChar '\'' c) ++ unit '\'' :: left) =
      if c.toNat < 0x10000 then some (unit c, left) else none := by
  rcases escapeChar_read (.inr rfl) c with
    ⟨letter, heq, hletter⟩ | ⟨heq, hback, hquote, hline, hreturn⟩
  · have hsmall : c.toNat < 0x10000 := by
      have hall : ∀ pair ∈ letters, pair.2.toNat < 0x10000 := by decide
      exact hall _ (mem_letters hletter)
    rw [heq, characterFrom_letter hletter, if_pos hsmall]
  · have hunits : units [c] = charUnits c := by
      rw [units_cons]
      exact List.append_nil _
    have hforeign : ∀ u ∈ charUnits c,
        u ≠ unit '\\' ∧ u ≠ unit '\'' ∧ u ≠ unit '\n' ∧ u ≠ unit '\r' := by
      intro u hu
      refine ⟨?_, ?_, ?_, ?_⟩ <;> rintro rfl
      · exact notMem_charUnits (by decide) hback hu
      · exact notMem_charUnits (by decide) hquote hu
      · exact notMem_charUnits (by decide) hline hu
      · exact notMem_charUnits (by decide) hreturn hu
    rw [heq, hunits]
    rcases charUnits_cases c with ⟨hsmall, -, hone⟩ | ⟨high, low, -, -, hlarge, htwo⟩
    · obtain ⟨hb, hq, hl, hr⟩ := hforeign (unit c) (by rw [hone]; exact List.mem_singleton_self _)
      rw [hone, List.singleton_append, characterFrom_plain hb hq hl hr, closed_eq, if_pos hsmall]
    · -- the second unit stands where the mark should
      have hmember : ∀ u ∈ [UInt16.ofNat (0xD800 + high), .ofNat (0xDC00 + low)],
          u ∈ charUnits c := by
        rw [htwo]
        exact fun u hu => hu
      obtain ⟨hb, hq, hl, hr⟩ := hforeign _ (hmember _ List.mem_cons_self)
      have hsecond := (hforeign _ (hmember _ (List.mem_cons_of_mem _ List.mem_cons_self))).2.1
      have hbeyond : ¬ c.toNat < 0x10000 := by omega
      rw [htwo, List.cons_append, List.singleton_append, characterFrom_plain hb hq hl hr, closed?,
        if_neg hsecond, if_neg hbeyond]

theorem charUnits_singleton_iff : charUnits c = [u] ↔ c.toNat < 0x10000 ∧ u = unit c := by
  rcases charUnits_cases c with ⟨hsmall, -, hone⟩ | ⟨high, low, -, -, hlarge, htwo⟩
  · rw [hone, List.singleton_inj]
    exact ⟨fun h => ⟨hsmall, h.symm⟩, fun h => h.2.symm⟩
  · rw [htwo]
    refine ⟨fun h => absurd h (by simp), fun h => ?_⟩
    omega

end Units

/-- The text of a character with anything behind it is read as a character literal exactly if the
character has one unit. -/
theorem readCharacter_literal (c : Char) (rest : List Char) (u : UInt16) (left : List UInt16) :
    readCharacter? (literalChars '\'' [c] ++ rest) = some (u, left) ↔
      charUnits c = [u] ∧ translate? rest = some left := by
  have hmark : units ['\''] = [unit '\''] := by decide
  have hread : ∀ behind, characterLiteral? (units (literalChars '\'' [c]) ++ behind) =
      if c.toNat < 0x10000 then some (unit c, behind) else none := by
    intro behind
    rw [literalChars, List.flatMap_singleton, ← List.singleton_append, units_append, hmark,
      List.append_assoc, List.singleton_append, characterLiteral?, if_pos rfl, units_append, hmark,
      List.append_assoc, List.singleton_append, characterFrom_escaped]
  rw [readCharacter?, translate_literal (.inr rfl), charUnits_singleton_iff]
  cases translate? rest with
  | none => simp
  | some behind =>
    rw [Option.map_some, Option.bind_some, hread]
    by_cases hsmall : c.toNat < 0x10000
    · rw [if_pos hsmall]
      simp [hsmall, eq_comm]
    · simp [hsmall]

/-- The characters that documents can hold are the texts of length one. -/
theorem literalOf_character (v : Json) (l : Literal) :
    Document.literalOf .character v = .ok l ↔
      ∃ c, v = .string (String.singleton c) ∧ l = .character c := by
  constructor
  · intro h
    cases v with
    | string s =>
      simp only [Document.literalOf] at h
      split at h
      · next c hc =>
        cases h
        exact ⟨c, congrArg Json.string (String.toList_inj.mp (by rw [hc, String.toList_singleton])),
          rfl⟩
      · cases h
    | _ => cases h
  · rintro ⟨c, rfl, rfl⟩
    simp only [Document.literalOf, String.toList_singleton]

theorem text_of_character (c : Char) :
    ("'" ++ Literal.escapeCharacter (String.singleton c) ++ "'").toList =
      literalChars '\'' [c] := by
  simp [Literal.escapeCharacter, Literal.escape, literalChars]

/-- The text of a character is read as one character literal that denotes a given unit, whatever
follows it, exactly if this unit is all that the character has in UTF-16. -/
theorem exists_text (c : Char) :
    ∃ text, Literal.render (Literal.character c).value (.kind (Literal.character c).kind) =
        .ok text ∧
      (∀ rest u left, readCharacter? (text.toList ++ rest) = some (u, left) ↔
        charUnits c = [u] ∧ translate? rest = some left) ∧
      (charUnits c = [unit c] ↔ c.toNat < 0x10000) ∧
      Quiet 0 text.toList ∧ ∀ d ∈ text.toList, d ≠ '\n' ∧ d ≠ '\r' := by
  have hrender : Literal.render (Literal.character c).value (.kind (Literal.character c).kind) =
      .ok ("'" ++ Literal.escapeCharacter (String.singleton c) ++ "'") := by
    have hone : (String.singleton c).length = 1 := String.length_singleton
    have hkind : Literal.kindOf (.kind .character) = .ok .character := rfl
    have htext : Literal.valueText? .character (.text (String.singleton c)) =
        some ("'" ++ Literal.escapeCharacter (String.singleton c) ++ "'") := if_pos hone
    simp only [Literal.render, Literal.value, Literal.kind, hkind, bind, Except.bind, htext]
  refine ⟨_, hrender, ?_, ?_, ?_, ?_⟩
  · intro rest u left
    rw [text_of_character, readCharacter_literal]
  · rw [charUnits_singleton_iff]
    exact and_iff_left rfl
  · rw [text_of_character]
    exact quiet_literal (.inr rfl) [c]
  · rw [text_of_character]
    exact unbroken_literal (.inr rfl) [c]

/-- What documents can hold as a character, and its Java text. The text is read as one character
literal that denotes a given unit and ends where the text ends, exactly if this unit is all that the
character has in UTF-16, so exactly up to the end of the first plane. In the text no Unicode escape
starts and no line ends. -/
theorem character_text_denotes (v : Json) (l : Literal) :
    Document.literalOf .character v = .ok l ↔
      ∃ c, v = .string (String.singleton c) ∧ l = .character c ∧
        ∃ text, Literal.render l.value (.kind l.kind) = .ok text ∧
          (∀ rest u left, readCharacter? (text.toList ++ rest) = some (u, left) ↔
            charUnits c = [u] ∧ translate? rest = some left) ∧
          (charUnits c = [unit c] ↔ c.toNat < 0x10000) ∧
          Quiet 0 text.toList ∧ ∀ d ∈ text.toList, d ≠ '\n' ∧ d ≠ '\r' := by
  rw [literalOf_character]
  constructor
  · rintro ⟨c, rfl, rfl⟩
    exact ⟨c, rfl, rfl, exists_text c⟩
  · rintro ⟨c, rfl, rfl, -⟩
    exact ⟨c, rfl, rfl⟩

/-- Documents can hold a smiling face as a character, which Java takes for no character. -/
theorem smilingFace_no_character :
    ¬ ∀ v l, Document.literalOf .character v = .ok l →
      ∃ c text u, v = .string (String.singleton c) ∧
        Literal.render l.value (.kind l.kind) = .ok text ∧
        readCharacter? text.toList = some (u, []) ∧ charUnits c = [u] := by
  intro hevery
  obtain ⟨c, text, u, hvalue, -, -, hunit⟩ :=
    hevery (.string "😀") (.character '😀') rfl
  have hface : '😀' = c := by
    have hchars : "😀".toList = (String.singleton c).toList :=
      congrArg String.toList (Json.string.inj hvalue)
    rw [String.toList_singleton] at hchars
    exact (List.cons.inj hchars).1
  have hplane : ¬ '😀'.toNat < 0x10000 := by decide
  rw [← hface] at hunit
  exact hplane (charUnits_singleton_iff.mp hunit).1

end JavaRender.Lexical
