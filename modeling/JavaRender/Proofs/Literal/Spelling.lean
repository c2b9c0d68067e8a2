import JavaRender.Proofs.Lexical.Number
import JavaRender.Proofs.Literal.Number
import JavaRender.Proofs.Tokens.Reader

/-!
What the Java text of a literal tells of it. A text is read by its marks, as a word or as a number;
this gives back every literal, but not whether a number without a point and an exponent was a whole
one or a decimal. Main statement: the texts of two literals are the same only if the literals are,
up to a whole number and the decimal with the same digits; every other decimal is a double in Java.
-/
namespace JavaRender.Literal

open Json (Written)

def typed : Literal → Typed.Literal
  | string s => .string s
  | character c => .character c
  | integer n => .integer n
  | decimal d => .decimal d
  | boolean b => .boolean b
  | nil => .nil .absent

def text (l : Literal) : String := l.typed.text

theorem render_text (l : Literal) : render l.value (.kind l.kind) = .ok l.text := by
  have hrender := l.typed.render_eq
  cases l <;> exact hrender

def words : List (String × Literal) :=
  [("null", .nil), ("true", .boolean true), ("false", .boolean false)]

def word? (text : String) : Option Literal := (words.find? (·.1 = text)).map (·.2)

def number? (cs : List Char) : Option Decimal :=
  let (negative, body) := Decimal.readSign cs
  Decimal.readMagnitude? negative body

def spelled? (text : String) : Option Literal :=
  match Tokens.quotations? text with
  | some [⟨.string, s⟩] => some (.string s)
  | some [⟨.character, s⟩] => s.toList.head?.map .character
  | some [] => (word? text).or ((number? text.toList).map .decimal)
  | _ => none

def asDecimal : Literal → Literal
  | integer n => .decimal (Decimal.ofInt n)
  | l => l

theorem number_written (w : Written) : number? w.chars = some w.value := by
  rw [number?, w.readSign_chars]
  exact w.read_magnitude w.negative

/-- No word is a number: each has a letter that no number has. -/
theorem word_written {w : Written} {text : String} (h : text.toList = w.chars) :
    word? text = none := by
  have hletter : ∀ pair ∈ words, ∃ c ∈ pair.1.toList,
      c.isDigit = false ∧ c ∉ ['-', '+', '.', 'e', 'E'] := by simp [words]
  rw [word?, Option.map_eq_none_iff, List.find?_eq_none]
  intro pair hpair
  obtain ⟨c, hc, hdigit, hmark⟩ := hletter pair hpair
  rw [decide_eq_true_eq]
  rintro rfl
  rw [h] at hc
  rcases w.mem_chars hc with hnumber | hnumber
  · rw [hdigit] at hnumber
    cases hnumber
  · exact hmark hnumber

theorem spelled_written {w : Written} {text : String} (h : text.toList = w.chars)
    (hplain : Tokens.quotations? text = some []) : spelled? text = some (.decimal w.value) := by
  rw [spelled?, hplain]
  dsimp only
  rw [word_written h, h, number_written]
  rfl

/-- The text of a literal spells it. -/
theorem spelled_text (l : Literal) : spelled? l.text = some l.asDecimal := by
  have hquotations := (Tokens.reads_literal l.typed).quotations_eq
  cases l with
  | string s =>
    rw [spelled?, text, hquotations]
    rfl
  | character c =>
    have hquoted : Tokens.quoted [(typed (.character c)).toTree] =
      [⟨.character, String.singleton c⟩] := rfl
    rw [spelled?, text, hquotations, hquoted]
    dsimp only
    rw [String.toList_singleton]
    rfl
  | integer n =>
    rw [asDecimal, ← Written.value_ofInt]
    exact spelled_written (Written.chars_ofInt n).symm hquotations
  | decimal d =>
    obtain ⟨w, hchars, hvalue, -⟩ := Written.exists_decimal d
    have htext : (text (.decimal d)).toList = w.chars :=
      String.toList_ofList.trans hchars.symm
    rw [spelled_written htext hquotations, hvalue]
    rfl
  | boolean b =>
    rw [spelled?, text, hquotations]
    cases b <;> rfl
  | nil =>
    rw [spelled?, text, hquotations]
    rfl

/-- Literals of one spelling: equal ones, and a whole number and the decimal of its digits. -/
inductive SameSpelling : Literal → Literal → Prop
  | same (l : Literal) : SameSpelling l l
  | whole (n : Int) : SameSpelling (.integer n) (.decimal (Decimal.ofInt n))
  | digits (n : Int) : SameSpelling (.decimal (Decimal.ofInt n)) (.integer n)

theorem sameSpelling_of_asDecimal {l l' : Literal} (h : l.asDecimal = l'.asDecimal) :
    SameSpelling l l' := by
  cases l with
  | integer n =>
    cases l' with
    | integer m =>
      have hsame : Decimal.ofInt n = Decimal.ofInt m := Literal.decimal.inj h
      rw [← Decimal.toInt_ofInt n, hsame, Decimal.toInt_ofInt]
      exact .same _
    | decimal d =>
      cases h
      exact .whole n
    | string | character | boolean | nil => cases h
  | decimal d =>
    cases l' with
    | integer m =>
      cases h
      exact .digits m
    | decimal e =>
      cases h
      exact .same _
    | string | character | boolean | nil => cases h
  | string | character | boolean | nil =>
    cases l' <;> cases h
    exact .same _

theorem text_eq_iff (l l' : Literal) : l.text = l'.text ↔ SameSpelling l l' := by
  constructor
  · intro htext
    have hspelled : some l.asDecimal = some l'.asDecimal := by
      rw [← spelled_text, ← spelled_text, htext]
    exact sameSpelling_of_asDecimal (Option.some.inj hspelled)
  · intro hsame
    cases hsame with
    | same => rfl
    | whole n => exact (Decimal.text_ofInt n).symm
    | digits n => exact Decimal.text_ofInt n

/-- The text of a decimal is a literal of Java behind its sign: of type int if the exponent of the
decimal is zero, else of type double. -/
theorem number_of_decimal (d : Decimal) :
    ∃ body, (text (.decimal d)).toList = (if d.negative then ['-'] else []) ++ body ∧
      ∀ type, Lexical.NumberLiteral type body ↔
        type = if d.exponent = 0 then .int else .double := by
  obtain ⟨w, hmagnitude, hvalue, -⟩ := Written.exists_magnitude d
  have hplain : w.isPlain = true ↔ d.exponent = 0 := by
    constructor
    · intro h
      rw [← hvalue]
      exact w.exponent_of_isPlain h
    · intro h
      rw [← w.all_magnitude, hmagnitude, Decimal.magnitude_of_zero h]
      exact List.all_eq_true.mpr (Decimal.allDigits_toDigits _)
  refine ⟨d.magnitudeText, ?_, fun type => ?_⟩
  · have htext : (text (.decimal d)).toList = d.chars := String.toList_ofList
    rw [htext, Decimal.chars]
    by_cases hneg : d.negative = true
    · rw [if_pos hneg, if_pos hneg, List.singleton_append]
    · rw [if_neg hneg, if_neg hneg, List.nil_append]
  · rw [← hmagnitude, Lexical.numberLiteral_magnitude]
    simp only [hplain]

/-- The Java texts of two literals are the same exactly if the literals are, or if one is a whole
number and the other the decimal with its sign, its digits and exponent zero. The text of a decimal
is, behind its sign, a literal of type int by the lexical grammar of Java if the exponent is zero,
else one of type double, and one of no other type. -/
theorem same_text_iff (l l' : Literal) :
    ∃ s s', render l.value (.kind l.kind) = .ok s ∧ render l'.value (.kind l'.kind) = .ok s' ∧
      (s = s' ↔ SameSpelling l l') ∧
      ∀ d, l = .decimal d →
        ∃ body, s.toList = (if d.negative then ['-'] else []) ++ body ∧
          ∀ type, Lexical.NumberLiteral type body ↔
            type = if d.exponent = 0 then .int else .double := by
  refine ⟨l.text, l'.text, render_text l, render_text l', text_eq_iff l l', ?_⟩
  rintro d rfl
  exact number_of_decimal d

/-- The whole number 5 and the decimal 5 have one text. -/
theorem five_same_text :
    ¬ ∀ l l' : Literal, (∃ doc, Document.loadNode doc = .ok (.literal l)) →
      (∃ doc, Document.loadNode doc = .ok (.literal l')) →
      ∀ s, render l.value (.kind l.kind) = .ok s → render l'.value (.kind l'.kind) = .ok s →
        l.kind = l'.kind ∧ l = l' := by
  intro hsame
  have hdecimal := (Document.reloads_decimal (w := Written.ofInt 5) rfl).number
  rw [Written.value_ofInt] at hdecimal
  have hfive := hsame (.integer 5) (.decimal (Decimal.ofInt 5))
    ⟨_, (Document.reloads_integer 5).number⟩ ⟨_, hdecimal⟩ "5" rfl rfl
  cases hfive.1

end JavaRender.Literal
