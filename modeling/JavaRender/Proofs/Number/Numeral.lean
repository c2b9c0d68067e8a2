import JavaRender.Number.Decimal

/-!
The characters of written numbers: digits, a sign, a point and the mark of an exponent. No number is
written without a character.
-/
namespace JavaRender.Numeral

def isNumeral (c : Char) : Bool := c.isDigit || c == '-' || c == '.' || c == 'E' || c == '+'

theorem isNumeral_of_mem_toDigits {c : Char} {n : Nat} (h : c ∈ Nat.toDigits 10 n) :
    isNumeral c = true := by
  rw [isNumeral, Nat.isDigit_of_mem_toDigits (by decide) (by decide) h]
  rfl

theorem isNumeral_of_mem_nat {c : Char} {n : Nat} (h : c ∈ (toString n).toList) :
    isNumeral c = true := by
  rw [Nat.toString_eq_repr, Nat.toList_repr] at h
  exact isNumeral_of_mem_toDigits h

/-- The text of a whole number. -/
theorem toList_int (n : Int) :
    (toString n).toList = (if n < 0 then ['-'] else []) ++ Nat.toDigits 10 n.natAbs := by
  rw [Int.toString_eq_repr, Int.repr_eq_if]
  by_cases hn : n < 0
  · have habs : (-n).toNat = n.natAbs := by omega
    rw [if_pos hn, if_neg (Int.not_le.mpr hn), String.toList_append, Nat.toList_repr, habs]
    rfl
  · have habs : n.toNat = n.natAbs := by omega
    rw [if_neg hn, if_pos (Int.not_lt.mp hn), Nat.toList_repr, habs, List.nil_append]

theorem isNumeral_of_mem_int {c : Char} {n : Int} (h : c ∈ (toString n).toList) :
    isNumeral c = true := by
  rw [toList_int, List.mem_append] at h
  rcases h with h | h
  · have hminus : c = '-' := by
      by_cases hn : n < 0 <;> simp [hn] at h
      exact h
    subst hminus
    decide
  · exact isNumeral_of_mem_toDigits h

theorem isNumeral_of_mem_pointed {ds : List Char} {places : Nat}
    (h : ∀ c ∈ ds, isNumeral c = true) {c : Char} (hc : c ∈ Decimal.pointed ds places) :
    isNumeral c = true := by
  have hpoint : isNumeral '.' = true := by decide
  have hzero : isNumeral '0' = true := by decide
  unfold Decimal.pointed at hc
  split at hc
  · exact h c hc
  · split at hc
    · rcases List.mem_append.mp hc with hc | hc
      · exact h c (List.mem_of_mem_take hc)
      · rcases List.mem_cons.mp hc with hc | hc
        · exact hc ▸ hpoint
        · exact h c (List.mem_of_mem_drop hc)
    · simp only [List.mem_cons, List.mem_append, List.mem_replicate] at hc
      rcases hc with hc | hc | ⟨-, hc⟩ | hc
      · exact hc ▸ hzero
      · exact hc ▸ hpoint
      · exact hc ▸ hzero
      · exact h c hc

theorem isNumeral_of_mem_exponent {e : Int} {c : Char} (hc : c ∈ Decimal.exponentText e) :
    isNumeral c = true := by
  have hsigns : isNumeral '-' = true ∧ isNumeral '+' = true := by decide
  rcases List.mem_cons.mp hc with hc | hc
  · split at hc
    · exact hc ▸ hsigns.1
    · exact hc ▸ hsigns.2
  · exact isNumeral_of_mem_toDigits hc

theorem isNumeral_of_mem_magnitude {d : Decimal} {c : Char} (hc : c ∈ d.magnitudeText) :
    isNumeral c = true := by
  have hdigits : ∀ c ∈ d.digits, isNumeral c = true := fun c h => isNumeral_of_mem_toDigits h
  have hmarks : isNumeral '.' = true ∧ isNumeral 'E' = true := by decide
  unfold Decimal.magnitudeText at hc
  split at hc
  · exact isNumeral_of_mem_pointed hdigits hc
  · rcases List.mem_append.mp hc with hc | hc
    · rcases hds : d.digits with _ | ⟨first, _ | ⟨second, rest⟩⟩
      · simp only [hds, List.not_mem_nil] at hc
      · simp only [hds] at hc
        exact hdigits c (hds ▸ hc)
      · simp only [hds] at hc hdigits
        rcases List.mem_cons.mp hc with hc | hc
        · exact hdigits c (hc ▸ List.mem_cons_self)
        · rcases List.mem_cons.mp hc with hc | hc
          · exact hc ▸ hmarks.1
          · exact hdigits c (List.mem_cons_of_mem _ hc)
    · rcases List.mem_cons.mp hc with hc | hc
      · exact hc ▸ hmarks.2
      · exact isNumeral_of_mem_exponent hc

theorem isNumeral_of_mem_decimal {d : Decimal} {c : Char} (hc : c ∈ d.text.toList) :
    isNumeral c = true := by
  rw [Decimal.text, String.toList_ofList, Decimal.chars] at hc
  split at hc
  · rcases List.mem_cons.mp hc with hc | hc
    · subst hc
      decide
    · exact isNumeral_of_mem_magnitude hc
  · exact isNumeral_of_mem_magnitude hc

theorem pointed_ne_nil {ds : List Char} (h : ds ≠ []) (places : Nat) :
    Decimal.pointed ds places ≠ [] := by
  unfold Decimal.pointed
  split
  · exact h
  · split <;> simp

theorem decimal_ne_nil (d : Decimal) : d.text.toList ≠ [] := by
  have hmagnitude : d.magnitudeText ≠ [] := by
    unfold Decimal.magnitudeText
    split
    · exact pointed_ne_nil Nat.toDigits_ne_nil _
    · simp
  rw [Decimal.text, String.toList_ofList, Decimal.chars]
  split
  · exact List.cons_ne_nil _ _
  · exact hmagnitude

theorem int_ne_nil (n : Int) : (toString n).toList ≠ [] := by
  rw [toList_int]
  exact List.append_ne_nil_of_right_ne_nil _ Nat.toDigits_ne_nil

theorem nat_ne_nil (n : Nat) : (toString n).toList ≠ [] := by
  rw [Nat.toString_eq_repr, Nat.toList_repr]
  exact Nat.toDigits_ne_nil

theorem digit_bounds {c : Char} (h : c.isDigit = true) : 48 ≤ c.toNat ∧ c.toNat ≤ 57 := by
  simpa [Char.isDigit, UInt32.le_iff_toNat_le] using h

theorem isBlank_numeral {c : Char} (h : isNumeral c = true) : Blank.isBlank c = false := by
  simp only [isNumeral, Bool.or_eq_true, beq_iff_eq] at h
  rcases h with (((h | h) | h) | h) | h
  · have hrange := digit_bounds h
    simp [Blank.isBlank]
    omega
  all_goals
    subst h
    rfl

def Pointed (text : List Char) : Prop :=
  '.' ∉ text ∨
    ∃ whole c rest, text = whole ++ '.' :: c :: rest ∧ c.isDigit = true ∧ '.' ∉ c :: rest

theorem point_notMem_digits {ds : List Char} (h : ∀ c ∈ ds, c.isDigit = true) : '.' ∉ ds :=
  fun hmem => absurd (h '.' hmem) (by decide)

/-- Behind the point stand digits, and no other point comes after them. -/
theorem pointed_append (whole : List Char) {ds others : List Char} (hne : ds ≠ [])
    (h : ∀ c ∈ ds, c.isDigit = true) (hothers : '.' ∉ others) :
    Pointed (whole ++ '.' :: (ds ++ others)) := by
  obtain ⟨c, rest, rfl⟩ := List.exists_cons_of_ne_nil hne
  refine .inr ⟨whole, c, rest ++ others, rfl, h c List.mem_cons_self, ?_⟩
  rw [← List.cons_append, List.mem_append, not_or]
  exact ⟨point_notMem_digits h, hothers⟩

theorem Pointed.cons {text : List Char} (h : Pointed text) {c : Char} (hc : c ≠ '.') :
    Pointed (c :: text) := by
  rcases h with h | ⟨whole, d, rest, rfl, hd, hrest⟩
  · exact .inl (List.not_mem_cons_of_ne_of_not_mem hc.symm h)
  · exact .inr ⟨c :: whole, d, rest, rfl, hd, hrest⟩

theorem pointed_pointed {ds : List Char} (hne : ds ≠ []) (h : ∀ c ∈ ds, c.isDigit = true)
    (places : Nat) : Pointed (Decimal.pointed ds places) := by
  unfold Decimal.pointed
  split
  · exact .inl (point_notMem_digits h)
  · split
    · next hplaces hinside =>
      have hback : ds.drop (ds.length - places) ≠ [] := by
        rw [ne_eq, List.drop_eq_nil_iff]
        omega
      have hpointed := pointed_append (ds.take (ds.length - places)) hback
        (fun c hc => h c (List.mem_of_mem_drop hc)) (List.not_mem_nil (a := '.'))
      rwa [List.append_nil] at hpointed
    · have hzeros : ∀ c ∈ List.replicate (places - ds.length) '0' ++ ds, c.isDigit = true := by
        intro c hc
        rcases List.mem_append.mp hc with hc | hc
        · rw [List.eq_of_mem_replicate hc]
          rfl
        · exact h c hc
      have hpointed := pointed_append ['0'] (List.append_ne_nil_of_right_ne_nil _ hne) hzeros
        (List.not_mem_nil (a := '.'))
      rwa [List.append_nil] at hpointed

theorem point_notMem_exponent (e : Int) : '.' ∉ 'E' :: Decimal.exponentText e := by
  have hdigits : '.' ∉ Nat.toDigits 10 e.natAbs :=
    point_notMem_digits fun c hc => Nat.isDigit_of_mem_toDigits (by decide) (by decide) hc
  unfold Decimal.exponentText
  split <;> simpa using hdigits

/-- The text of a decimal has one point at most, and a digit behind it. -/
theorem pointed_decimal (d : Decimal) : Pointed d.text.toList := by
  have hds : ∀ c ∈ d.digits, c.isDigit = true :=
    fun c hc => Nat.isDigit_of_mem_toDigits (by decide) (by decide) hc
  have hmagnitude : Pointed d.magnitudeText := by
    unfold Decimal.magnitudeText
    split
    · exact pointed_pointed Nat.toDigits_ne_nil hds _
    · have hexponent := point_notMem_exponent d.adjusted
      rcases hshape : d.digits with _ | ⟨first, _ | ⟨second, rest⟩⟩
      · exact .inl hexponent
      · rw [hshape] at hds
        refine .inl ?_
        rw [List.mem_append, not_or]
        exact ⟨point_notMem_digits hds, hexponent⟩
      · rw [hshape] at hds
        exact pointed_append [first] (List.cons_ne_nil second rest)
          (fun c hc => hds c (List.mem_cons_of_mem first hc)) hexponent
  rw [Decimal.text, String.toList_ofList, Decimal.chars]
  split
  · exact hmagnitude.cons (by decide)
  · exact hmagnitude

/-- A number has no point. -/
theorem point_notMem_nat (n : Nat) : '.' ∉ (toString n).toList := by
  rw [Nat.toString_eq_repr, Nat.toList_repr]
  exact point_notMem_digits fun c hc => Nat.isDigit_of_mem_toDigits (by decide) (by decide) hc

theorem point_notMem_int (n : Int) : '.' ∉ (toString n).toList := by
  rw [toList_int, List.mem_append, not_or]
  constructor
  · by_cases hn : n < 0 <;> simp [hn]
  · exact point_notMem_digits fun c hc => Nat.isDigit_of_mem_toDigits (by decide) (by decide) hc

end JavaRender.Numeral
