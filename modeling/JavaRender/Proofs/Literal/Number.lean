import JavaRender.Expression.Literal
import JavaRender.Proofs.Literal.Document
import JavaRender.Proofs.Number.Layout

/-!
Numbers of documents as the values of literals. A number may stand there as it is or in a string. As
a decimal both are loaded alike; as a whole number the one is judged by its exponent and the other
by its characters, which differ where a point or an exponent leaves the exponent zero. The Java
texts of numbers are loaded as these numbers in both forms.
-/
namespace JavaRender.Document

open Json (Written quoted)

section Forms

variable {w : Written}

/-- A string is a whole number if it has neither a point nor an exponent. -/
theorem integerOf_string (w : Written) :
    integerOf (.string (String.ofList w.chars)) =
      if w.isPlain then .ok w.value.toInt else refuse (.badInteger (String.ofList w.chars)) := by
  have hsome : w.magnitude.isEmpty = false := by
    obtain ⟨c, rest, hmagnitude, -⟩ := w.exists_digit
    rw [hmagnitude]
    rfl
  simp only [integerOf, String.toList_ofList, w.readSign_chars, hsome, w.all_magnitude,
    Bool.false_or, Bool.not_eq_true']
  by_cases hplain : w.isPlain = true
  · obtain ⟨hplaces, hexponent⟩ := w.isPlain_iff.mp hplain
    have hmagnitude : w.magnitude = w.whole ++ w.places := by
      simp [Written.magnitude, Written.placesChars, Written.exponentChars, hplaces, hexponent]
    rw [if_neg (by simp [hplain]), if_pos hplain, hmagnitude]
    rfl
  · rw [if_pos (Bool.eq_false_iff.mpr hplain), if_neg hplain]

theorem load_integerNumber (h : w.value.inRange = true) :
    loadNode (literalText .integer w.chars) =
      if w.value.exponent = 0 then .ok (.literal (.integer w.value.toInt))
      else .error (.refused ⟨.notInteger, [.key "value"]⟩) := by
  rw [loadNode_literal .integer (Json.spells_number h), literalOf, integerOf]
  by_cases hexponent : w.value.exponent = 0
  · rw [if_pos hexponent, if_pos hexponent]
    rfl
  · rw [if_neg hexponent, if_neg hexponent]
    rfl

theorem load_integerString (w : Written) :
    loadNode (literalText .integer (quoted w.chars)) =
      if w.isPlain then .ok (.literal (.integer w.value.toInt))
      else .error (.refused ⟨.badInteger (String.ofList w.chars), [.key "value"]⟩) := by
  rw [loadNode_literal .integer (Json.spells_string w.plain), literalOf, integerOf_string]
  by_cases hplain : w.isPlain = true
  · rw [if_pos hplain, if_pos hplain]
    rfl
  · rw [if_neg hplain, if_neg hplain]
    rfl

theorem load_decimalNumber (h : w.value.inRange = true) :
    loadNode (literalText .decimal w.chars) = .ok (.literal (.decimal w.value)) := by
  rw [loadNode_literal .decimal (Json.spells_number h)]
  rfl

theorem load_decimalString (h : w.value.inRange = true) :
    loadNode (literalText .decimal (quoted w.chars)) = .ok (.literal (.decimal w.value)) := by
  have hread : decimalOf (.string (String.ofList w.chars)) = .ok w.value := by
    simp only [decimalOf, String.toList_ofList, w.read_chars, w.readAscii_chars, if_pos h]
    rfl
  rw [loadNode_literal .decimal (Json.spells_string w.plain), literalOf, hread]
  rfl

end Forms

/-- Two loads that end alike: with the same literal, or both with a refusal. -/
inductive Alike : Except LoadError Node → Except LoadError Node → Prop
  | loaded (l : Literal) : Alike (.ok (.literal l)) (.ok (.literal l))
  | refused (r r' : Refusal) : Alike (.error (.refused r)) (.error (.refused r'))

/-- A number and the string of its characters are loaded alike as the value of a decimal literal. As
the value of a whole number they are, unless the number has a point or an exponent and denotes a
whole number with exponent zero: then the number is loaded and the string is refused. -/
theorem number_and_string_alike (w : Written) (hrange : w.value.inRange = true) :
    Alike (loadNode (literalText .decimal w.chars))
        (loadNode (literalText .decimal (quoted w.chars))) ∧
      (Alike (loadNode (literalText .integer w.chars))
          (loadNode (literalText .integer (quoted w.chars))) ↔
        (w.value.exponent = 0 → w.isPlain = true)) ∧
      (w.value.exponent = 0 → w.isPlain = false →
        loadNode (literalText .integer w.chars) = .ok (.literal (.integer w.value.toInt)) ∧
        loadNode (literalText .integer (quoted w.chars)) =
          .error (.refused ⟨.badInteger (String.ofList w.chars), [.key "value"]⟩)) := by
  rw [load_decimalNumber hrange, load_decimalString hrange, load_integerNumber hrange,
    load_integerString w]
  refine ⟨.loaded _, ?_, ?_⟩
  · by_cases hexponent : w.value.exponent = 0
    · rw [if_pos hexponent]
      by_cases hplain : w.isPlain = true
      · rw [if_pos hplain]
        exact iff_of_true (.loaded _) fun _ => hplain
      · rw [if_neg hplain]
        exact iff_of_false (fun halike => nomatch halike) fun h => hplain (h hexponent)
    · have hplain : ¬ w.isPlain = true := fun h => hexponent (w.exponent_of_isPlain h)
      rw [if_neg hexponent, if_neg hplain]
      exact iff_of_true (.refused _ _) fun h => absurd h hexponent
  · intro hexponent hplain
    rw [if_pos hexponent, if_neg (Bool.eq_false_iff.mp hplain)]
    exact ⟨rfl, rfl⟩

def oneE0 : Written where
  negative := false
  whole := ['1']
  places := []
  exponent := some
    ⟨'e', [], ['0'], .inl rfl, .inl rfl, List.cons_ne_nil _ _, Json.IsWhole.zero.allDigits⟩
  isWhole := .single rfl
  numeric := Json.allDigits_nil

theorem oneE0_loaded_and_refused :
    oneE0.value.inRange = true ∧
      loadNode (literalText .integer oneE0.chars) = .ok (.literal (.integer 1)) ∧
      loadNode (literalText .integer (quoted oneE0.chars)) =
        .error (.refused ⟨.badInteger "1e0", [.key "value"]⟩) :=
  ⟨rfl, (number_and_string_alike oneE0 rfl).2.2 rfl rfl⟩

/-- A number as it is and in a string are not always alike. -/
theorem oneE0_not_alike :
    ¬ ∀ w : Written, w.value.inRange = true → ∀ kind ∈ [LiteralKind.integer, .decimal],
      Alike (loadNode (literalText kind w.chars))
        (loadNode (literalText kind (quoted w.chars))) := by
  intro halike
  have hone := halike oneE0 rfl .integer (by decide)
  rw [load_integerNumber rfl, load_integerString] at hone
  cases hone

/-- Loading gives a literal back from the text of its value, as a string and as a number. -/
structure Reloads (l : Literal) (text : List Char) : Prop where
  string : loadNode (literalText l.kind (quoted text)) = .ok (.literal l)
  number : loadNode (literalText l.kind text) = .ok (.literal l)

theorem reloads_integer (n : Int) : Reloads (.integer n) (toString n).toList := by
  have hplain : (Written.ofInt n).isPlain = true := rfl
  have hvalue := Written.value_ofInt n
  rw [← Written.chars_ofInt]
  constructor
  · rw [Literal.kind, load_integerString, if_pos hplain, hvalue, Decimal.toInt_ofInt]
  · have hrange : (Written.ofInt n).value.inRange = true := by rw [hvalue]; rfl
    rw [Literal.kind, load_integerNumber hrange, hvalue, Decimal.toInt_ofInt]
    rfl

theorem reloads_decimal {w : Written} (h : w.value.inRange = true) :
    Reloads (.decimal w.value) w.chars :=
  ⟨load_decimalString h, load_decimalNumber h⟩

/-- The Java texts of numbers, loaded again. A whole number has a minus if it is negative, then its
digits, and is loaded from them. A decimal is written as a number of documents, an exponent in it
having its sign, and is loaded from this with its sign, its digits and its exponent. -/
theorem numerals_reload (n : Int) (d : Decimal) (hrange : d.inRange = true) :
    (∃ text ds, Literal.render (.integer n) (.kind .integer) = .ok text ∧
      text.toList = (if n < 0 then ['-'] else []) ++ ds ∧ Json.IsWhole ds ∧
      Nat.ofDigitChars 10 ds 0 = n.natAbs ∧ Reloads (.integer n) text.toList) ∧
    ∃ (text : String) (w : Written),
      Literal.render (.decimal (.finite d)) (.kind .decimal) = .ok text ∧
      text.toList = w.chars ∧ (∀ e ∈ w.exponent, e.mark = 'E' ∧ e.sign ≠ []) ∧
      Reloads (.decimal d) text.toList := by
  constructor
  · exact ⟨toString n, Nat.toDigits 10 n.natAbs, rfl, Numeral.toList_int n,
      Json.isWhole_toDigits _, Nat.ofDigitChars_ten_toDigits, reloads_integer n⟩
  · obtain ⟨w, hchars, hvalue, hexponent⟩ := Written.exists_decimal d
    refine ⟨d.text, w, rfl, ?_, hexponent, ?_⟩
    · rw [Decimal.text, String.toList_ofList, hchars]
    · rw [Decimal.text, String.toList_ofList, ← hchars]
      subst hvalue
      exact reloads_decimal hrange

/-- A negative zero in scientific layout. -/
theorem negativeZero_reloads :
    (⟨true, 0, -7⟩ : Decimal).inRange = true ∧ Reloads (.integer (-5)) "-5".toList ∧
      Reloads (.decimal ⟨true, 0, -7⟩) "-0E-7".toList := by
  obtain ⟨⟨whole, ds, hwhole, -, -, -, hinteger⟩, text, w, htext, -, -, hdecimal⟩ :=
    numerals_reload (-5) ⟨true, 0, -7⟩ rfl
  cases hwhole
  cases htext
  exact ⟨rfl, hinteger, hdecimal⟩

end JavaRender.Document
