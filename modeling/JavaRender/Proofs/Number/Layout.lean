import JavaRender.Proofs.Json.Written

/-!
How numbers are laid out. The digits of a whole number begin with no zero unless they are a zero
alone, and a decimal has four layouts: digits alone, a point among them, a point in front of all of
them, and an exponent. Main statement: the texts of whole numbers and of decimals are numbers as a
document writes them, and what these denote is the number itself, digit for digit.
-/
namespace JavaRender.Json

theorem isWhole_toDigits (n : Nat) : IsWhole (Nat.toDigits 10 n) := by
  induction n using Nat.strongRecOn with
  | ind n ih =>
    by_cases hsmall : n < 10
    · rw [Nat.toDigits_of_lt_base hsmall]
      have hdigits := Decimal.allDigits_toDigits n
      rw [Nat.toDigits_of_lt_base hsmall] at hdigits
      exact IsWhole.single (hdigits _ List.mem_cons_self)
    · have hall := Decimal.allDigits_toDigits n
      have hfront := ih (n / 10) (by omega)
      rw [Nat.toDigits_of_base_le (by decide) (by omega)] at hall ⊢
      -- the digits in front are those of a smaller number, which is not zero
      generalize hds : Nat.toDigits 10 (n / 10) = ds at hfront hall ⊢
      cases hfront with
      | zero =>
        have hzero : n / 10 = Nat.ofDigitChars 10 ['0'] 0 := by
          rw [← hds, Nat.ofDigitChars_ten_toDigits]
        have : n / 10 = 0 := hzero
        omega
      | digits nonzero _ => exact .digits nonzero hall

/-- The digits in front of a point among digits. -/
theorem IsWhole.take {ds : List Char} (h : IsWhole ds) {count : Nat} (hcount : 0 < count) :
    IsWhole (ds.take count) := by
  obtain ⟨k, rfl⟩ := Nat.exists_eq_add_of_lt hcount
  rw [Nat.zero_add]
  cases h with
  | zero =>
    rw [List.take_succ_cons, List.take_nil]
    exact .zero
  | @digits c rest nonzero all =>
    rw [List.take_succ_cons]
    refine .digits nonzero fun d hd => all d ?_
    rw [← List.take_succ_cons] at hd
    exact List.mem_of_mem_take hd

def Exponent.ofInt (e : Int) : Exponent where
  mark := 'E'
  sign := [if e < 0 then '-' else '+']
  digits := Nat.toDigits 10 e.natAbs
  marked := .inr rfl
  signed := by by_cases he : e < 0 <;> simp [he]
  nonempty := Nat.toDigits_ne_nil
  numeric := Decimal.allDigits_toDigits _

theorem Exponent.number_ofInt (e : Int) : (Exponent.ofInt e).number = e := by
  have hdigits : Nat.ofDigitChars 10 (Exponent.ofInt e).digits 0 = e.natAbs :=
    Nat.ofDigitChars_ten_toDigits
  rw [number, hdigits]
  by_cases he : e < 0
  · rw [if_pos (by simp [Exponent.ofInt, he])]
    omega
  · rw [if_neg (by simp [Exponent.ofInt, he])]
    omega

namespace Written

def ofInt (n : Int) : Written where
  negative := n < 0
  whole := Nat.toDigits 10 n.natAbs
  places := []
  exponent := none
  isWhole := isWhole_toDigits _
  numeric := allDigits_nil

theorem chars_ofInt (n : Int) : (ofInt n).chars = (toString n).toList := by
  have hmagnitude : (ofInt n).magnitude = Nat.toDigits 10 n.natAbs := List.append_nil _
  rw [chars, hmagnitude, Numeral.toList_int, signChars]
  simp [ofInt]

theorem value_ofInt (n : Int) : (ofInt n).value = Decimal.ofInt n := by
  rw [value, Decimal.ofInt, exponentNumber]
  simp [ofInt, Nat.ofDigitChars_ten_toDigits]

theorem value_eq {w : Written} {d : Decimal} (hnegative : w.negative = d.negative)
    (hdigits : Nat.ofDigitChars 10 (w.whole ++ w.places) 0 = d.coefficient)
    (hexponent : w.exponentNumber - w.places.length = d.exponent) : w.value = d := by
  rw [value, hnegative, hdigits, hexponent]

section Layouts

variable {d : Decimal}

/-- A text is a number of documents that denotes the decimal, and its exponent has a sign. -/
def Denotes (text : List Char) (d : Decimal) : Prop :=
  ∃ w : Written, w.magnitude = text ∧ w.value = d ∧
    ∀ e ∈ w.exponent, e.mark = 'E' ∧ e.sign ≠ []

theorem digits_number (d : Decimal) : Nat.ofDigitChars 10 d.digits 0 = d.coefficient :=
  Nat.ofDigitChars_ten_toDigits

theorem allDigits_digits (d : Decimal) : AllDigits d.digits := Decimal.allDigits_toDigits _

/-- Digits, some of them behind a point, and no exponent. -/
theorem denotes_places {whole places : List Char} (hwhole : IsWhole whole)
    (hplaces : AllDigits places)
    (hdigits : Nat.ofDigitChars 10 (whole ++ places) 0 = d.coefficient)
    (hexponent : -(places.length : Int) = d.exponent) :
    Denotes (whole ++ if places = [] then [] else '.' :: places) d := by
  refine ⟨⟨d.negative, whole, places, none, hwhole, hplaces⟩, ?_, value_eq rfl hdigits ?_, ?_⟩
  · simp [magnitude, placesChars, exponentChars]
  · rw [exponentNumber, ← hexponent]
    exact Int.zero_sub _
  · intro e he
    cases he

theorem denotes_digits (h : d.exponent = 0) : Denotes d.digits d := by
  have hdigits : Nat.ofDigitChars 10 (d.digits ++ []) 0 = d.coefficient := by
    rw [List.append_nil, digits_number]
  have hdenotes := denotes_places (isWhole_toDigits _) allDigits_nil hdigits h.symm
  rwa [if_pos rfl, List.append_nil] at hdenotes

/-- The point stands among the digits. -/
theorem denotes_inside {count : Nat} (hpos : count ≠ 0) (hinside : count < d.digits.length)
    (hexponent : -(count : Int) = d.exponent) :
    Denotes (d.digits.take (d.digits.length - count) ++
      '.' :: d.digits.drop (d.digits.length - count)) d := by
  have hwhole : IsWhole (d.digits.take (d.digits.length - count)) :=
    (isWhole_toDigits _).take (by omega)
  have hall : AllDigits (d.digits.drop (d.digits.length - count)) :=
    fun c hc => allDigits_digits d c (List.mem_of_mem_drop hc)
  have hplaces : d.digits.drop (d.digits.length - count) ≠ [] := by
    rw [ne_eq, List.drop_eq_nil_iff]
    omega
  have hdenotes := denotes_places (d := d) hwhole hall ?_ ?_
  · rwa [if_neg hplaces] at hdenotes
  · rw [List.take_append_drop, digits_number]
  · rw [List.length_drop, ← hexponent]
    omega

/-- The point stands in front of the digits, with zeros on both sides of it. -/
theorem denotes_small {count : Nat} (hbehind : d.digits.length ≤ count)
    (hexponent : -(count : Int) = d.exponent) :
    Denotes ('0' :: '.' :: (List.replicate (count - d.digits.length) '0' ++ d.digits)) d := by
  have hall : AllDigits (List.replicate (count - d.digits.length) '0' ++ d.digits) := by
    intro c hc
    rcases List.mem_append.mp hc with hc | hc
    · rw [List.eq_of_mem_replicate hc]
      rfl
    · exact allDigits_digits d c hc
  have hplaces : List.replicate (count - d.digits.length) '0' ++ d.digits ≠ [] :=
    List.append_ne_nil_of_right_ne_nil _ (isWhole_toDigits d.coefficient).ne_nil
  have hdenotes := denotes_places (d := d) .zero hall ?_ ?_
  · rwa [if_neg hplaces] at hdenotes
  · have hzeros := (Decimal.ofDigitChars_zeros 1 _).trans
      (Decimal.ofDigitChars_zeros (count - d.digits.length) d.digits)
    exact hzeros.trans (digits_number d)
  · rw [List.length_append, List.length_replicate, ← hexponent]
    omega

theorem denotes_pointed (h : d.exponent ≤ 0) :
    Denotes (Decimal.pointed d.digits d.exponent.natAbs) d := by
  have hexponent : -(d.exponent.natAbs : Int) = d.exponent := by omega
  unfold Decimal.pointed
  split
  · next hzero => exact denotes_digits (Int.natAbs_eq_zero.mp hzero)
  · next hpos =>
    split
    · next hinside => exact denotes_inside hpos hinside hexponent
    · next houtside => exact denotes_small (Nat.le_of_not_lt houtside) hexponent

theorem denotes_scientific (d : Decimal) :
    Denotes ((match d.digits with
      | [] => []
      | [c] => [c]
      | c :: rest => c :: '.' :: rest) ++ 'E' :: Decimal.exponentText d.adjusted) d := by
  obtain ⟨c, places, hdigits, hc⟩ := (isWhole_toDigits d.coefficient).exists_cons
  have hsplit : d.digits = c :: places := hdigits
  have hplaces : AllDigits places :=
    fun a ha => allDigits_digits d a (hsplit ▸ List.mem_cons_of_mem c ha)
  refine ⟨⟨d.negative, [c], places, some (Exponent.ofInt d.adjusted), .single hc, hplaces⟩, ?_,
    value_eq rfl ?_ ?_, ?_⟩
  · rw [hsplit]
    cases places with
    | nil => rfl
    | cons second rest => rfl
  · rw [List.singleton_append, ← hsplit, digits_number]
  · simp only [exponentNumber, Option.map_some, Option.getD_some, Exponent.number_ofInt,
      Decimal.adjusted, hsplit, List.length_cons]
    omega
  · intro e he
    cases he
    exact ⟨rfl, List.cons_ne_nil _ _⟩

end Layouts

/-- The digits of a decimal, positional or with an exponent that has its sign, are a number as a
document writes it and denote the decimal. -/
theorem exists_magnitude (d : Decimal) :
    ∃ w : Written, w.magnitude = d.magnitudeText ∧ w.value = d ∧
      ∀ e ∈ w.exponent, e.mark = 'E' ∧ e.sign ≠ [] := by
  unfold Decimal.magnitudeText
  by_cases hlayout : (d.exponent ≤ 0 && -6 ≤ d.adjusted) = true
  · rw [if_pos hlayout]
    exact denotes_pointed (of_decide_eq_true (Bool.and_eq_true_iff.mp hlayout).1)
  · rw [if_neg hlayout]
    exact denotes_scientific d

/-- The text of a decimal is a number as a document writes it, and denotes the decimal. -/
theorem exists_decimal (d : Decimal) :
    ∃ w : Written, w.chars = d.chars ∧ w.value = d ∧
      ∀ e ∈ w.exponent, e.mark = 'E' ∧ e.sign ≠ [] := by
  obtain ⟨w, hmagnitude, hvalue, hexponent⟩ := exists_magnitude d
  have hnegative : w.negative = d.negative := congrArg Decimal.negative hvalue
  refine ⟨w, ?_, hvalue, hexponent⟩
  rw [chars, signChars, hnegative, hmagnitude, Decimal.chars]
  by_cases hneg : d.negative = true
  · rw [if_pos hneg, if_pos hneg]
    rfl
  · rw [if_neg hneg, if_neg hneg]
    rfl

end Written

end JavaRender.Json

namespace JavaRender.Decimal

open Json (Written)

/-- The text of a number begins with a digit behind its sign. -/
theorem magnitude_digit (d : Decimal) :
    ∃ c rest, d.magnitudeText = c :: rest ∧ c.isDigit = true := by
  obtain ⟨w, hmagnitude, -⟩ := Written.exists_magnitude d
  rw [← hmagnitude]
  exact w.exists_digit

/-- A decimal in range is read back from its text, digit for digit. -/
theorem read_text {d : Decimal} (h : d.inRange = true) :
    read? d.text.toList = some (.finite d) := by
  obtain ⟨w, hchars, hvalue, -⟩ := Written.exists_decimal d
  rw [text, String.toList_ofList, ← hchars, w.read_chars, w.readAscii_chars, hvalue, if_pos h]

/-- A decimal with exponent zero is written as its digits. -/
theorem magnitude_of_zero {d : Decimal} (h : d.exponent = 0) : d.magnitudeText = d.digits := by
  have hlayout : (d.exponent ≤ 0 && -6 ≤ d.adjusted) = true := by
    rw [Bool.and_eq_true, decide_eq_true_iff, decide_eq_true_iff, adjusted]
    omega
  rw [magnitudeText, if_pos hlayout, h]
  rfl

theorem text_ofInt (n : Int) : (ofInt n).text = toString n := by
  rw [← String.toList_inj, Numeral.toList_int, text, String.toList_ofList, chars,
    magnitude_of_zero rfl]
  by_cases hn : n < 0
  · simp [ofInt, digits, hn]
  · simp [ofInt, digits, hn]

end JavaRender.Decimal
