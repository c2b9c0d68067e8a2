import JavaRender.Proofs.Json.Range

/-!
Strings of a document. What the scanner takes for a string holds no terminator, and the scanner
takes it again whatever stands behind it; a string is never refused for the range of a number.
-/
namespace JavaRender.Json

variable {half : StandIn}

def Unbroken (cs : List Char) : Prop := '\r' ∉ cs ∧ '\n' ∉ cs

theorem unbroken_append {front rest : List Char} (hfront : Unbroken front) (hrest : Unbroken rest) :
    Unbroken (front ++ rest) := by
  simp only [Unbroken, List.mem_append, not_or]
  exact ⟨⟨hfront.1, hrest.1⟩, hfront.2, hrest.2⟩

theorem unbroken_unit {cs : List Char} (h : Unbroken cs) : Unbroken ('\\' :: 'u' :: cs) := by
  simpa [Unbroken] using h

/-- The front of a text on which the look-ahead of a code unit is decided: no escape, an escape of
one letter, or a further code unit with a character behind it. -/
inductive Decided : List Char → Prop
  | plain {c : Char} {rest : List Char} (hc : c ≠ '\\') : Decided (c :: rest)
  | letter {c : Char} {rest : List Char} (hc : c ≠ 'u') : Decided ('\\' :: c :: rest)
  | unit (e f g h x : Char) (rest : List Char) :
      Decided ('\\' :: 'u' :: e :: f :: g :: h :: x :: rest)

theorem Decided.ne_nil {cs : List Char} (h : Decided cs) : cs ≠ [] := by
  cases h <;> exact List.cons_ne_nil _ _

/-- A look-ahead sees the same, whatever stands behind a decided front. -/
theorem scanUnits_decided {hex taken : List Char} (h : Decided taken) {left : List Char}
    {r : Nat × Option Nat} (hunits : scanUnits hex (taken ++ left) = .ok r) (left' : List Char) :
    scanUnits hex (taken ++ left') = .ok r := by
  cases hnumber : Digit.hexNumber? hex with
  | none =>
    rw [scanUnits, hnumber] at hunits
    cases hunits
  | some n =>
    cases h with
    | @plain c rest hc =>
      have hscan : ∀ others, scanUnits hex (c :: rest ++ others) = .ok (n, none) := by
        intro others
        simp [scanUnits, hnumber, hc]
      rw [hscan] at hunits ⊢
      exact hunits
    | @letter c rest hc =>
      have hscan : ∀ others, scanUnits hex ('\\' :: c :: rest ++ others) = .ok (n, none) := by
        intro others
        simp [scanUnits, hnumber, hc]
      rw [hscan] at hunits ⊢
      exact hunits
    | unit e f g h x rest =>
      by_cases hhigh : isHighSurrogate n = true
      · cases hlow : Digit.hexNumber? [e, f, g, h] with
        | none => simp [scanUnits, hnumber, hhigh, hlow] at hunits
        | some low =>
          simp [scanUnits, hnumber, hhigh, hlow] at hunits ⊢
          exact hunits
      · simp [scanUnits, hnumber, hhigh] at hunits ⊢
        exact hunits

/-- How the scanner of strings ends: a string is taken from the front of the text, as it would be in
front of any other text, or the fault is no range of a number. -/
def Takes (half : StandIn) (cs : List Char) : Result (List Char × List Char) → Prop
  | .ok (s, left) => ∃ taken, cs = taken ++ left ∧ Unbroken taken ∧ Decided taken ∧
      ∀ start' left', scanString half start' (taken ++ left') = .ok (s, left')
  | .error fault => fault ≠ .numberRange

theorem Takes.push (front : List Char) {tail : List Char} {r : Result (List Char × List Char)}
    (c : Char) (h : Takes half tail r) (hfront : Unbroken front)
    (hdecided : ∀ x rest, Decided (front ++ x :: rest))
    (hstep : ∀ taken left, Decided taken → tail = taken ++ left → ∀ start' left',
      scanString half start' (front ++ (taken ++ left')) =
        Json.push c (scanString half start' (taken ++ left'))) :
    Takes half (front ++ tail) (Json.push c r) := by
  cases r with
  | error fault => exact h
  | ok found =>
    obtain ⟨s, left⟩ := found
    obtain ⟨taken, rfl, hunbroken, hopen, hagain⟩ := h
    obtain ⟨x, rest, hcons⟩ := List.exists_cons_of_ne_nil hopen.ne_nil
    refine ⟨front ++ taken, (List.append_assoc _ _ _).symm, ?_, hcons ▸ hdecided x rest, ?_⟩
    · exact unbroken_append hfront hunbroken
    · intro start' left'
      rw [List.append_assoc, hstep taken left hopen rfl, hagain]
      rfl

/-- Hexadecimal digits are no terminators. -/
theorem unbroken_of_hexNumber {cs : List Char} {n : Nat} (h : Digit.hexNumber? cs = some n) :
    Unbroken cs := by
  have hdigits : ∀ (cs : List Char) (start : Nat),
      cs.foldlM (fun n c => (Digit.hexValue? c).map (16 * n + ·)) start = some n →
        ∀ c ∈ cs, Digit.hexValue? c ≠ none := by
    intro cs
    induction cs with
    | nil => exact fun _ _ _ hc => absurd hc List.not_mem_nil
    | cons d rest ih =>
      intro start hfold
      rw [List.foldlM_cons] at hfold
      obtain ⟨next, hd, hrest⟩ := Option.bind_eq_some_iff.mp hfold
      obtain ⟨value, hvalue, -⟩ := Option.map_eq_some_iff.mp hd
      have hsome : Digit.hexValue? d ≠ none := by simp [hvalue]
      exact List.forall_mem_cons.mpr ⟨hsome, ih next hrest⟩
  constructor
  · exact fun hmem => hdigits cs 0 h _ hmem (by decide)
  · exact fun hmem => hdigits cs 0 h _ hmem (by decide)

/-- A pair of code units: the second one is written like the first, and something follows. -/
theorem scanUnits_pair {hex tail : List Char} {n low : Nat}
    (h : scanUnits hex tail = .ok (n, some low)) :
    ∃ e f g h more, tail = '\\' :: 'u' :: e :: f :: g :: h :: more ∧
      Digit.hexNumber? [e, f, g, h] = some low := by
  unfold scanUnits at h
  split at h
  · cases h
  · split at h
    · cases h
    · split at h
      · split at h
        · cases h
        · split at h
          · cases h
            exact ⟨_, _, _, _, _, rfl, by assumption⟩
          · cases h
      · cases h
    · cases h

theorem unbroken_of_scanUnits {hex tail : List Char} {r : Nat × Option Nat}
    (h : scanUnits hex tail = .ok r) : Unbroken hex := by
  unfold scanUnits at h
  cases hnumber : Digit.hexNumber? hex with
  | none =>
    rw [hnumber] at h
    cases h
  | some n => exact unbroken_of_hexNumber hnumber

/-- The faults of code units are flaws of the text. -/
theorem scanUnits_fault {hex tail : List Char} {fault : Fault}
    (h : scanUnits hex tail = .error fault) : fault ≠ .numberRange := by
  unfold scanUnits at h
  repeat' split at h
  all_goals cases h
  all_goals exact Fault.noConfusion

theorem scanString_letter {c x : Char} (hc : c ≠ 'u') (hx : simpleEscape? c = some x)
    (start rest : List Char) :
    scanString half start ('\\' :: c :: rest) = Json.push x (scanString half start rest) := by
  rw [scanString, hx]
  · exact fun _ _ _ _ _ h => absurd h hc
  · exact fun h => absurd h hc

theorem takes_scanString (start cs : List Char) :
    Takes half cs (scanString half start cs) := by
  fun_induction scanString half start cs with
  | case2 rest =>
    refine ⟨['"'], rfl, ⟨by decide, by decide⟩, .plain (by decide), fun _ _ => rfl⟩
  | case4 a b c d tail fault hunits => exact scanUnits_fault hunits
  | case5 a b c d tail n hunits ih =>
    have hunbroken : Unbroken ['\\', 'u', a, b, c, d] :=
      unbroken_unit (unbroken_of_scanUnits hunits)
    refine ih.push ['\\', 'u', a, b, c, d] _ hunbroken (fun x rest => .unit a b c d x rest) ?_
    rintro taken left hdecided rfl start' left'
    have hagain := scanUnits_decided hdecided hunits left'
    simp [scanString, hagain]
  | case6 a b c d n low e f g h i j more hunits ih =>
    obtain ⟨g', h', i', j', more', heq, hlow⟩ := scanUnits_pair hunits
    cases heq
    have hunbroken : Unbroken ['\\', 'u', a, b, c, d, '\\', 'u', g, h, i, j] :=
      unbroken_unit (unbroken_append (unbroken_of_scanUnits hunits)
        (unbroken_unit (unbroken_of_hexNumber hlow)))
    refine ih.push ['\\', 'u', a, b, c, d, '\\', 'u', g, h, i, j] _ hunbroken
      (fun x rest => .unit a b c d '\\' _) ?_
    rintro taken left hdecided rfl start' left'
    obtain ⟨y, rest, rfl⟩ := List.exists_cons_of_ne_nil hdecided.ne_nil
    have hagain := scanUnits_decided (.unit g h i j y rest) hunits left'
    simp only [List.cons_append] at hagain
    simp [scanString, hagain]
  | case10 c tail _ hletter x hx ih =>
    have hescape : ∀ d, simpleEscape? d = none → d ≠ c := by
      rintro d hnone rfl
      rw [hx] at hnone
      cases hnone
    have hunbroken : Unbroken ['\\', c] := by
      simp [Unbroken, hescape '\r' (by decide), hescape '\n' (by decide)]
    refine ih.push ['\\', c] x hunbroken (fun x rest => .letter hletter) ?_
    rintro taken left - rfl start' left'
    exact scanString_letter hletter hx start' (taken ++ left')
  | case12 c rest hquote hback hcontrol ih =>
    have hprintable : ∀ d : Char, d.toNat < 0x20 → d ≠ c := by
      rintro d hd rfl
      exact hcontrol hd
    have hunbroken : Unbroken [c] := by
      simp [Unbroken, hprintable '\r' (by decide), hprintable '\n' (by decide)]
    refine ih.push [c] c hunbroken (fun x rest => .plain hback) ?_
    rintro taken left - rfl start' left'
    simp [scanString, hcontrol]
  | _ => exact Fault.noConfusion

end JavaRender.Json
