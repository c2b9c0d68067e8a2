import JavaRender.Text.Point

/-!
Texts of code points. Such a text is encoded exactly when it is one of characters, and then as the
characters are; main statement: the first half of a surrogate pair is where encoding stops.
-/
namespace JavaRender

namespace Point

/-- Two readings that differ nowhere give the characters of the first. -/
theorem ofReadings_of_chars {cs ds : List Char} (h : ∀ n, half n ∉ ofReadings cs ds) :
    ofReadings cs ds = cs.map char := by
  induction cs generalizing ds with
  | nil => cases ds <;> rfl
  | cons c rest ih =>
    cases ds with
    | nil => rfl
    | cons d others =>
      simp only [ofReadings, List.mem_cons, not_or] at h
      rw [ofReadings, List.map_cons, ih fun n => (h n).2]
      by_cases heq : c = d
      · rw [if_pos heq]
      · exact absurd (if_neg heq).symm (h _).1

theorem ofString_injective {s t : String} (h : ofString s = ofString t) : s = t :=
  String.toList_inj.mp ((List.map_inj_right fun _ _ => char.inj).mp h)

theorem half_not_mem_ofString (s : String) (n : Nat) : half n ∉ ofString s := by
  simp [ofString]

end Point

namespace Utf8

theorem encodeFrom_chars (cs : List Char) (offset : Nat) :
    encodeFrom offset (cs.map .char) = .ok (encode cs) := by
  induction cs generalizing offset with
  | nil => rfl
  | cons c rest ih =>
    rw [List.map_cons, encodeFrom, ih]
    rfl

theorem encodePoints_ofString (s : String) :
    encodePoints (Point.ofString s) = .ok (encode s.toList) :=
  encodeFrom_chars s.toList 0

/-- Encoding stops at the first half of a pair, which is found behind characters alone. -/
theorem encodeFrom_half (cs : List Char) (n : Nat) (rest : List Point) (offset : Nat) :
    encodeFrom offset (cs.map .char ++ .half n :: rest) =
      .error ⟨offset + cs.length, leadingHalves rest + 1, n⟩ := by
  induction cs generalizing offset with
  | nil => rfl
  | cons c others ih =>
    rw [List.map_cons, List.cons_append, encodeFrom, ih, List.length_cons, Nat.add_right_comm]
    rfl

/-- A text is one of characters, or has a first half of a pair. -/
theorem chars_or_half (ps : List Point) :
    (∃ cs : List Char, ps = cs.map .char) ∨
      ∃ (cs : List Char) (n : Nat) (rest : List Point), ps = cs.map .char ++ .half n :: rest := by
  induction ps with
  | nil => exact .inl ⟨[], rfl⟩
  | cons p rest ih =>
    cases p with
    | half n => exact .inr ⟨[], n, rest, rfl⟩
    | char c =>
      rcases ih with ⟨cs, rfl⟩ | ⟨cs, n, after, rfl⟩
      · exact .inl ⟨c :: cs, rfl⟩
      · exact .inr ⟨c :: cs, n, after, rfl⟩

/-- A text is encoded exactly if no half of a pair is in it. -/
theorem encodePoints_cases (ps : List Point) :
    ((∀ n, .half n ∉ ps) ∧ ∃ bytes, encodePoints ps = .ok bytes) ∨
      (∃ n, .half n ∈ ps) ∧ ∃ e, encodePoints ps = .error e := by
  rcases chars_or_half ps with ⟨cs, rfl⟩ | ⟨cs, n, rest, rfl⟩
  · exact .inl ⟨by simp, _, encodeFrom_chars cs 0⟩
  · exact .inr ⟨⟨n, by simp⟩, _, encodeFrom_half cs n rest 0⟩

theorem exists_bytes {ps : List Point} (h : ∀ n, .half n ∉ ps) :
    ∃ bytes, encodePoints ps = .ok bytes := by
  rcases encodePoints_cases ps with ⟨-, hbytes⟩ | ⟨⟨n, hn⟩, -⟩
  · exact hbytes
  · exact absurd hn (h n)

theorem exists_encodeError {ps : List Point} {n : Nat} (h : .half n ∈ ps) :
    ∃ e, encodePoints ps = .error e := by
  rcases encodePoints_cases ps with ⟨hchars, -⟩ | ⟨-, herror⟩
  · exact absurd h (hchars n)
  · exact herror

end Utf8

end JavaRender
