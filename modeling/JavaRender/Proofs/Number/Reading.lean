import JavaRender.Proofs.Json.Numeral
import JavaRender.Proofs.Number.Numeral

/-!
Reading the texts of numbers. Digits with a point among them and an exponent are read as the number
of the digits, each place lowering the exponent by one; a text in ASCII is read as it stands, and a
whole number is read back from its text.
-/
namespace JavaRender.Decimal

open Json (AllDigits IsExponent)

theorem allDigits_toDigits (n : Nat) : AllDigits (Nat.toDigits 10 n) :=
  fun _ hc => Nat.isDigit_of_mem_toDigits (by decide) (by decide) hc

/-- Zeros in front of a numeral do not change its number. -/
theorem ofDigitChars_zeros (count : Nat) (ds : List Char) :
    Nat.ofDigitChars 10 (List.replicate count '0' ++ ds) 0 = Nat.ofDigitChars 10 ds 0 := by
  rw [Nat.ofDigitChars_append, Nat.ofDigitChars_replicate_zero, Nat.mul_zero]

section Magnitudes

variable (negative : Bool) {whole places exponent : List Char} {e : Int}

/-- Digits without a point denote their own number. -/
theorem readMagnitude_whole (hne : whole ≠ []) (hwhole : AllDigits whole)
    (hexponent : IsExponent exponent) (he : readExponent? exponent = some e) :
    readMagnitude? negative (whole ++ exponent) =
      some ⟨negative, Nat.ofDigitChars 10 whole 0, e⟩ := by
  have hempty : whole.isEmpty = false := List.isEmpty_eq_false_iff.mpr hne
  obtain ⟨htake, hdrop⟩ := Json.takeWhile_digits hwhole (Json.takeWhile_exponent hexponent)
  unfold readMagnitude?
  rw [htake, hdrop]
  rcases hexponent.marked with rfl | ⟨rest, rfl | rfl⟩ <;> simp [hempty, he]

/-- Each digit behind the point lowers the exponent by one. -/
theorem readMagnitude_point (hne : whole ≠ []) (hwhole : AllDigits whole)
    (hplaces : AllDigits places) (hexponent : IsExponent exponent)
    (he : readExponent? exponent = some e) :
    readMagnitude? negative (whole ++ '.' :: (places ++ exponent)) =
      some ⟨negative, Nat.ofDigitChars 10 (whole ++ places) 0, e - places.length⟩ := by
  have hempty : whole.isEmpty = false := List.isEmpty_eq_false_iff.mpr hne
  have hpoint : ('.' :: (places ++ exponent)).takeWhile Char.isDigit = [] ∧
      ('.' :: (places ++ exponent)).dropWhile Char.isDigit = '.' :: (places ++ exponent) :=
    ⟨rfl, rfl⟩
  obtain ⟨htake, hdrop⟩ := Json.takeWhile_digits hwhole hpoint
  obtain ⟨htake', hdrop'⟩ := Json.takeWhile_digits hplaces (Json.takeWhile_exponent hexponent)
  unfold readMagnitude?
  rw [htake, hdrop]
  simp [hempty, htake', hdrop', he]

end Magnitudes

/-- No character of ASCII is trimmed, ignored or replaced that is no blank and no underscore. -/
theorem read_ascii {cs : List Char}
    (h : ∀ c ∈ cs, Blank.isBlank c = false ∧ c ≠ '_' ∧ c.toNat < 0x80) :
    read? cs = readAscii? cs := by
  have htrim : ∀ ds : List Char, (∀ c ∈ ds, Blank.isBlank c = false) →
      ds.dropWhile Blank.isBlank = ds := by
    intro ds hds
    cases ds with
    | nil => rfl
    | cons c rest =>
      rw [List.dropWhile_cons_of_neg (by rw [hds c List.mem_cons_self]; exact Bool.false_ne_true)]
  have hblank : Blank.trim cs = cs := by
    rw [Blank.trim, htrim cs fun c hc => (h c hc).1,
      htrim cs.reverse fun c hc => (h c (List.mem_reverse.mp hc)).1, List.reverse_reverse]
  have hfilter : cs.filter (· ≠ '_') = cs :=
    List.filter_eq_self.mpr fun c hc => decide_eq_true (h c hc).2.1
  have hmap : cs.map asciiDigit = cs := by
    refine (List.map_congr_left fun c hc => ?_).trans (List.map_id cs)
    rw [asciiDigit, if_pos (h c hc).2.2]
    rfl
  rw [read?, hblank, hfilter, hmap]

/-- What is read is in range. -/
theorem inRange_of_read {cs : List Char} {d : Decimal} (h : read? cs = some (.finite d)) :
    d.inRange = true := by
  unfold read? readAscii? at h
  dsimp only at h
  split at h
  · cases h
  · split at h
    · obtain ⟨_, _, hd⟩ := Option.map_eq_some_iff.mp h
      cases hd
    · split at h
      · obtain ⟨_, _, hd⟩ := Option.map_eq_some_iff.mp h
        cases hd
      · split at h
        · split at h
          · next hrange =>
            cases h
            exact hrange
          · cases h
        · cases h

/-- Digits alone take no number out of range. -/
theorem inRange_ofInt (n : Int) : (ofInt n).inRange = true := rfl

theorem toInt_ofInt (n : Int) : (ofInt n).toInt = n := by
  simp only [ofInt, toInt, decide_eq_true_eq]
  split <;> omega

/-- A whole number is read back from its text. -/
theorem readSign_int (n : Int) :
    readSign (toString n).toList = (decide (n < 0), Nat.toDigits 10 n.natAbs) := by
  rw [Numeral.toList_int]
  by_cases hn : n < 0
  · rw [if_pos hn, decide_eq_true hn]
    rfl
  · obtain ⟨c, rest, hds⟩ := List.exists_cons_of_ne_nil
      (Nat.toDigits_ne_nil : Nat.toDigits 10 n.natAbs ≠ [])
    have hc : c.isDigit = true :=
      allDigits_toDigits n.natAbs c (hds ▸ List.mem_cons_self)
    rw [if_neg hn, decide_eq_false hn, List.nil_append, hds, Json.readSign_digit hc]

end JavaRender.Decimal
