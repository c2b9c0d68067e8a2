import Mathlib.Data.List.TakeWhile
import JavaRender.Json.Reader

/-!
Numerals of a document. What the scanner takes for a numeral can always be read as a decimal, so the
exact style refuses it for one reason: its exponent is beyond what a decimal holds.
-/
namespace JavaRender.Json

def OutOfRange (cs : List Char) : Prop :=
  ∃ numeral d, scanNumeral? cs = some numeral ∧
    Decimal.readMagnitude? (Decimal.readSign numeral.chars).1 (Decimal.readSign numeral.chars).2 =
      some d ∧ d.inRange = false

def AllDigits (cs : List Char) : Prop := ∀ c ∈ cs, c.isDigit = true

/-- What stands behind the digits of a numeral: nothing, or an exponent that can be read. -/
structure IsExponent (cs : List Char) : Prop where
  marked : cs = [] ∨ ∃ rest, cs = 'e' :: rest ∨ cs = 'E' :: rest
  readable : (Decimal.readExponent? cs).isSome = true

theorem allDigits_takeWhile (cs : List Char) : AllDigits (cs.takeWhile Char.isDigit) :=
  fun _ hc => List.mem_takeWhile_imp hc

theorem isExponent_nil : IsExponent [] := ⟨.inl rfl, rfl⟩

/-- A digit is no sign. -/
theorem readSign_digit {c : Char} (hc : c.isDigit = true) (rest : List Char) :
    Decimal.readSign (c :: rest) = (false, c :: rest) := by
  unfold Decimal.readSign
  split
  · next heq =>
    cases heq
    cases hc
  · next heq =>
    cases heq
    cases hc
  · rfl

theorem readable_exponent {mark : Char} (hmark : mark = 'e' ∨ mark = 'E') {sign ds : List Char}
    (hsign : sign = [] ∨ sign = ['+'] ∨ sign = ['-']) (hne : ds ≠ []) (hds : AllDigits ds) :
    (Decimal.readExponent? (mark :: (sign ++ ds))).isSome = true := by
  have hcheck : (ds.isEmpty || !ds.all Char.isDigit) = false := by
    rw [List.isEmpty_eq_false_iff.mpr hne, List.all_eq_true.mpr hds]
    rfl
  have hsplit : (Decimal.readSign (sign ++ ds)).2 = ds := by
    rcases hsign with rfl | rfl | rfl
    · obtain ⟨c, rest, rfl⟩ := List.exists_cons_of_ne_nil hne
      rw [List.nil_append, readSign_digit (hds c List.mem_cons_self)]
    · rfl
    · rfl
  have hguard : (decide (mark = 'e') || decide (mark = 'E')) = true := by
    rw [Bool.or_eq_true, decide_eq_true_iff, decide_eq_true_iff]
    exact hmark
  simp only [Decimal.readExponent?, if_pos hguard, hsplit, hcheck, Bool.false_eq_true, if_false,
    Option.isSome_some]

def exponentSign : List Char → List Char × List Char
  | '+' :: body => (['+'], body)
  | '-' :: body => (['-'], body)
  | body => ([], body)

theorem exponentSign_sign (cs : List Char) :
    (exponentSign cs).1 = [] ∨ (exponentSign cs).1 = ['+'] ∨ (exponentSign cs).1 = ['-'] := by
  unfold exponentSign
  split
  · exact .inr (.inl rfl)
  · exact .inr (.inr rfl)
  · exact .inl rfl

theorem scanExponent_cons (c : Char) (rest : List Char) :
    scanExponent (c :: rest) =
      if c = 'e' || c = 'E' then
        let ds := (exponentSign rest).2.takeWhile Char.isDigit
        if ds.isEmpty then ([], c :: rest)
        else (c :: (exponentSign rest).1 ++ ds, (exponentSign rest).2.dropWhile Char.isDigit)
      else ([], c :: rest) := rfl

theorem isExponent_scan (cs : List Char) : IsExponent (scanExponent cs).1 := by
  cases cs with
  | nil => exact isExponent_nil
  | cons c rest =>
    rw [scanExponent_cons]
    dsimp only
    split
    · next hmark =>
      split
      · exact isExponent_nil
      · next hne =>
        rw [Bool.or_eq_true, decide_eq_true_iff, decide_eq_true_iff] at hmark
        refine ⟨.inr ⟨_, hmark.imp (fun h => by rw [h]; rfl) fun h => by rw [h]; rfl⟩, ?_⟩
        exact readable_exponent hmark (exponentSign_sign rest) (fun h => hne (h ▸ rfl))
          (allDigits_takeWhile _)
    · exact isExponent_nil

/-- The places of a numeral: nothing, or a point and digits. -/
theorem scanPlaces_shape (cs : List Char) :
    (scanPlaces cs).1 = [] ∨ ∃ ds, (scanPlaces cs).1 = '.' :: ds ∧ AllDigits ds := by
  unfold scanPlaces
  split
  · dsimp only
    split
    · exact .inl rfl
    · exact .inr ⟨_, rfl, allDigits_takeWhile _⟩
  · exact .inl rfl

theorem takeWhile_exponent {cs : List Char} (h : IsExponent cs) :
    cs.takeWhile Char.isDigit = [] ∧ cs.dropWhile Char.isDigit = cs := by
  rcases h.marked with rfl | ⟨rest, rfl | rfl⟩
  · exact ⟨rfl, rfl⟩
  · exact ⟨rfl, rfl⟩
  · exact ⟨rfl, rfl⟩

theorem takeWhile_digits {ds cs : List Char} (hds : AllDigits ds)
    (hcs : cs.takeWhile Char.isDigit = [] ∧ cs.dropWhile Char.isDigit = cs) :
    (ds ++ cs).takeWhile Char.isDigit = ds ∧ (ds ++ cs).dropWhile Char.isDigit = cs := by
  rw [List.takeWhile_append_of_pos hds, List.dropWhile_append_of_pos hds, hcs.1, hcs.2,
    List.append_nil]
  exact ⟨rfl, rfl⟩

/-- Digits, places and an exponent together denote a number. -/
theorem readMagnitude_isSome (negative : Bool) {front places exponent : List Char}
    (hne : front ≠ []) (hfront : AllDigits front)
    (hplaces : places = [] ∨ ∃ ds, places = '.' :: ds ∧ AllDigits ds)
    (hexponent : IsExponent exponent) :
    (Decimal.readMagnitude? negative (front ++ (places ++ exponent))).isSome = true := by
  have hfrontEmpty : front.isEmpty = false := List.isEmpty_eq_false_iff.mpr hne
  have hafter := takeWhile_exponent hexponent
  unfold Decimal.readMagnitude?
  rcases hplaces with rfl | ⟨ds, rfl, hds⟩
  · obtain ⟨htake, hdrop⟩ := takeWhile_digits hfront hafter
    rw [List.nil_append, htake, hdrop]
    rcases hexponent.marked with rfl | ⟨rest, rfl | rfl⟩ <;>
      simpa [hfrontEmpty] using hexponent.readable
  · have hpoint : ('.' :: ds ++ exponent).takeWhile Char.isDigit = [] ∧
        ('.' :: ds ++ exponent).dropWhile Char.isDigit = '.' :: ds ++ exponent := ⟨rfl, rfl⟩
    obtain ⟨htake, hdrop⟩ := takeWhile_digits hfront hpoint
    obtain ⟨htake', hdrop'⟩ := takeWhile_digits hds hafter
    rw [htake, hdrop]
    simpa [hfrontEmpty, htake', hdrop'] using hexponent.readable

/-- The number of a numeral that starts with a digit is read digit by digit. -/
theorem readAscii_digits {cs : List Char} {c : Char} {rest : List Char}
    (hbody : (Decimal.readSign cs).2 = c :: rest) (hc : c.isDigit = true) :
    Decimal.readAscii? cs =
      (Decimal.readMagnitude? (Decimal.readSign cs).1 (c :: rest)).bind fun d =>
        if d.inRange then some (.finite d) else none := by
  have hlower : c.toLower = c := by
    have hdigit : c.val ≤ '9'.val := by simpa [Char.isDigit] using (Bool.and_eq_true_iff.mp hc).2
    exact dif_neg fun hupper => absurd (UInt32.le_trans hupper.1 hdigit) (by decide)
  have hletters : c ≠ 'i' ∧ c ≠ 'n' ∧ c ≠ 's' := by
    refine ⟨?_, ?_, ?_⟩ <;> rintro rfl <;> cases hc
  unfold Decimal.readAscii?
  simp only [hbody, List.map_cons, hlower, List.cons.injEq, hletters.1, hletters.2.1, hletters.2.2,
    List.take_succ_cons, false_and, decide_false, Bool.or_false, Bool.false_eq_true, if_false]
  cases Decimal.readMagnitude? (Decimal.readSign cs).1 (c :: rest) <;> rfl

theorem scanPlaces_left (cs : List Char) : (scanPlaces cs).2 <:+ cs := by
  unfold scanPlaces
  split
  · dsimp only
    split
    · exact List.suffix_refl _
    · exact (List.dropWhile_suffix _).trans (List.suffix_cons _ _)
  · exact List.suffix_refl _

theorem exponentSign_left (cs : List Char) : (exponentSign cs).2 <:+ cs := by
  unfold exponentSign
  split
  · exact List.suffix_cons _ _
  · exact List.suffix_cons _ _
  · exact List.suffix_refl _

theorem scanExponent_left (cs : List Char) : (scanExponent cs).2 <:+ cs := by
  cases cs with
  | nil => exact List.suffix_refl _
  | cons c rest =>
    rw [scanExponent_cons]
    dsimp only
    split
    · split
      · exact List.suffix_refl _
      · have hsign := (exponentSign_left rest).trans (List.suffix_cons c rest)
        exact (List.dropWhile_suffix _).trans hsign
    · exact List.suffix_refl _

def wholeDigits (c : Char) (rest : List Char) : List Char × List Char :=
  if c = '0' then (['0'], rest) else (c :: rest.takeWhile Char.isDigit, rest.dropWhile Char.isDigit)

theorem wholeDigits_spec {c : Char} (hc : c.isDigit = true) (rest : List Char) :
    (∃ ds, (wholeDigits c rest).1 = c :: ds) ∧ AllDigits (wholeDigits c rest).1 ∧
      (wholeDigits c rest).2 <:+ rest := by
  unfold wholeDigits
  split
  · next hzero =>
    subst hzero
    exact ⟨⟨[], rfl⟩, fun _ h => List.mem_singleton.mp h ▸ hc, List.suffix_refl _⟩
  · exact ⟨⟨_, rfl⟩, List.forall_mem_cons.mpr ⟨hc, allDigits_takeWhile rest⟩,
      List.dropWhile_suffix _⟩

def unsigned (c : Char) (rest : List Char) : List Char × List Char :=
  let front := wholeDigits c rest
  let places := scanPlaces front.2
  let exponent := scanExponent places.2
  (front.1 ++ (places.1 ++ exponent.1), exponent.2)

def unsignedNumeral? (sign : List Char) : List Char → Option Numeral
  | [] => none
  | c :: rest =>
    if c.isDigit then
      let front := wholeDigits c rest
      let places := scanPlaces front.2
      let exponent := scanExponent places.2
      some ⟨sign ++ front.1 ++ places.1 ++ exponent.1, places.1.isEmpty && exponent.1.isEmpty,
        exponent.2⟩
    else none

/-- A numeral is a minus or nothing, and then an unsigned numeral. -/
theorem scanNumeral_spec {cs : List Char} {numeral : Numeral} (h : scanNumeral? cs = some numeral) :
    ∃ sign c rest, (sign = [] ∨ sign = ['-']) ∧ cs = sign ++ c :: rest ∧ c.isDigit = true ∧
      numeral.chars = sign ++ (unsigned c rest).1 ∧ numeral.left = (unsigned c rest).2 := by
  obtain ⟨sign, body, hsign, hcs, hscan⟩ : ∃ sign body, (sign = [] ∨ sign = ['-']) ∧
      cs = sign ++ body ∧ scanNumeral? cs = unsignedNumeral? sign body := by
    unfold scanNumeral?
    split
    next heq =>
    split at heq
    · cases heq
      exact ⟨_, _, .inr rfl, rfl, rfl⟩
    · cases heq
      exact ⟨_, _, .inl rfl, rfl, rfl⟩
  rw [hscan] at h
  subst hcs
  cases body with
  | nil => cases h
  | cons c rest =>
    rw [unsignedNumeral?] at h
    split at h
    · next hc =>
      cases h
      refine ⟨sign, c, rest, hsign, rfl, hc, ?_, rfl⟩
      simp only [unsigned, List.append_assoc]
    · cases h

theorem scanNumeral_left {cs : List Char} {numeral : Numeral} (h : scanNumeral? cs = some numeral) :
    numeral.left <:+ cs := by
  obtain ⟨sign, c, rest, -, rfl, hc, -, hleft⟩ := scanNumeral_spec h
  rw [hleft]
  have hfront := (wholeDigits_spec hc rest).2.2
  exact ((scanExponent_left _).trans ((scanPlaces_left _).trans hfront)).trans
    ((List.suffix_cons c rest).trans (List.suffix_append sign _))

/-- A number is refused by the exact style for its range only. -/
theorem outOfRange_of_error {cs : List Char} {numeral : Numeral} {fault : Fault}
    (h : scanNumeral? cs = some numeral) (hfault : ofNumeral .exact numeral = .error fault) :
    fault = .numberRange ∧ OutOfRange cs := by
  obtain ⟨sign, c, rest, hsign, -, hc, hchars, -⟩ := scanNumeral_spec h
  obtain ⟨⟨ds, hfront⟩, hdigits, -⟩ := wholeDigits_spec hc rest
  have hbody : (Decimal.readSign numeral.chars).2 = (unsigned c rest).1 := by
    rw [hchars]
    rcases hsign with rfl | rfl
    · rw [List.nil_append, unsigned, hfront, List.cons_append, readSign_digit hc]
    · rfl
  have hread := readMagnitude_isSome (Decimal.readSign numeral.chars).1
    (hfront ▸ List.cons_ne_nil c ds) hdigits (scanPlaces_shape (wholeDigits c rest).2)
    (isExponent_scan (scanPlaces (wholeDigits c rest).2).2)
  obtain ⟨d, hd⟩ := Option.isSome_iff_exists.mp hread
  change Decimal.readMagnitude? _ (unsigned c rest).1 = some d at hd
  have hstart : ∃ tail, (unsigned c rest).1 = c :: tail := ⟨_, by rw [unsigned, hfront]; rfl⟩
  obtain ⟨tail, htail⟩ := hstart
  rw [ofNumeral, readAscii_digits (hbody.trans htail) hc, ← htail, hd] at hfault
  cases hrange : d.inRange with
  | true => simp [hrange] at hfault
  | false =>
    simp [hrange] at hfault
    exact ⟨hfault.symm, numeral, d, h, hbody ▸ hd, hrange⟩

end JavaRender.Json
