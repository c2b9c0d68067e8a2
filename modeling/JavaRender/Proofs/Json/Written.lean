import JavaRender.Proofs.Json.Folding
import JavaRender.Proofs.Number.Reading

/-!
Numbers as a document writes them: a minus or none, digits, places and an exponent. Main statements:
the reader takes such a number for its value if a decimal holds it, whatever follows that does not
belong to it, and takes nothing else for a number.
-/
namespace JavaRender.Json

theorem allDigits_nil : AllDigits [] := List.forall_mem_nil _

inductive IsWhole : List Char → Prop
  | zero : IsWhole ['0']
  | digits {c : Char} {rest : List Char} (nonzero : c ≠ '0') (all : AllDigits (c :: rest)) :
      IsWhole (c :: rest)

theorem IsWhole.exists_cons {ds : List Char} (h : IsWhole ds) :
    ∃ c rest, ds = c :: rest ∧ c.isDigit = true := by
  cases h with
  | zero => exact ⟨'0', [], rfl, rfl⟩
  | digits nonzero all => exact ⟨_, _, rfl, all _ List.mem_cons_self⟩

theorem IsWhole.allDigits {ds : List Char} (h : IsWhole ds) : AllDigits ds := by
  cases h with
  | zero => exact fun c hc => List.mem_singleton.mp hc ▸ rfl
  | digits nonzero all => exact all

theorem IsWhole.ne_nil {ds : List Char} (h : IsWhole ds) : ds ≠ [] := by
  obtain ⟨c, rest, rfl, -⟩ := h.exists_cons
  exact List.cons_ne_nil c rest

/-- A digit that begins a number alone is enough. -/
theorem IsWhole.single {c : Char} (hc : c.isDigit = true) : IsWhole [c] := by
  by_cases hzero : c = '0'
  · subst hzero
    exact .zero
  · exact .digits hzero fun d hd => List.mem_singleton.mp hd ▸ hc

structure Exponent where
  mark : Char
  sign : List Char
  digits : List Char
  marked : mark = 'e' ∨ mark = 'E'
  signed : sign = [] ∨ sign = ['+'] ∨ sign = ['-']
  nonempty : digits ≠ []
  numeric : AllDigits digits

namespace Exponent

def chars (e : Exponent) : List Char := e.mark :: (e.sign ++ e.digits)

def number (e : Exponent) : Int :=
  if e.sign = ['-'] then -(Nat.ofDigitChars 10 e.digits 0 : Int)
  else Nat.ofDigitChars 10 e.digits 0

theorem readSign_chars (e : Exponent) :
    Decimal.readSign (e.sign ++ e.digits) = (decide (e.sign = ['-']), e.digits) := by
  rcases e.signed with h | h | h
  · obtain ⟨c, rest, hds⟩ := List.exists_cons_of_ne_nil e.nonempty
    rw [h, List.nil_append, hds, readSign_digit (e.numeric c (hds ▸ List.mem_cons_self))]
    rfl
  · rw [h]
    rfl
  · rw [h]
    rfl

theorem mem_chars (e : Exponent) {c : Char} (hc : c ∈ e.chars) :
    c.isDigit = true ∨ c ∈ ['-', '+', '.', 'e', 'E'] := by
  rcases List.mem_cons.mp hc with rfl | hc
  · rcases e.marked with h | h <;> rw [h] <;> exact .inr (by decide)
  · rcases List.mem_append.mp hc with hc | hc
    · rcases e.signed with h | h | h <;> rw [h] at hc
      · cases hc
      · exact .inr (by simp [List.mem_singleton.mp hc])
      · exact .inr (by simp [List.mem_singleton.mp hc])
    · exact .inl (e.numeric c hc)

theorem read_chars (e : Exponent) : Decimal.readExponent? e.chars = some e.number := by
  have hmark : (decide (e.mark = 'e') || decide (e.mark = 'E')) = true := by
    rw [Bool.or_eq_true, decide_eq_true_iff, decide_eq_true_iff]
    exact e.marked
  have hdigits : (e.digits.isEmpty || !e.digits.all Char.isDigit) = false := by
    rw [List.isEmpty_eq_false_iff.mpr e.nonempty, List.all_eq_true.mpr e.numeric]
    rfl
  simp only [chars, Decimal.readExponent?, if_pos hmark, readSign_chars, hdigits, number,
    Bool.false_eq_true, if_false, decide_eq_true_eq]

theorem isExponent (e : Exponent) : IsExponent e.chars := by
  refine ⟨.inr ⟨e.sign ++ e.digits, ?_⟩, Option.isSome_of_eq_some e.read_chars⟩
  exact e.marked.imp (fun h => by rw [chars, h]) fun h => by rw [chars, h]

end Exponent

/-- A number as it is written. Without places it has no point. -/
structure Written where
  negative : Bool
  whole : List Char
  places : List Char
  exponent : Option Exponent
  isWhole : IsWhole whole
  numeric : AllDigits places

namespace Written

variable (w : Written)

def signChars : List Char := if w.negative then ['-'] else []

def placesChars : List Char := if w.places = [] then [] else '.' :: w.places

def exponentChars : List Char := (w.exponent.map Exponent.chars).getD []

def magnitude : List Char := w.whole ++ (w.placesChars ++ w.exponentChars)

def chars : List Char := w.signChars ++ w.magnitude

def exponentNumber : Int := (w.exponent.map Exponent.number).getD 0

/-- What the number denotes, with all its digits: each place lowers the exponent by one. -/
def value : Decimal :=
  ⟨w.negative, Nat.ofDigitChars 10 (w.whole ++ w.places) 0, w.exponentNumber - w.places.length⟩

theorem isExponent : IsExponent w.exponentChars := by
  rw [exponentChars]
  cases w.exponent with
  | none => exact isExponent_nil
  | some e => exact e.isExponent

theorem read_exponent : Decimal.readExponent? w.exponentChars = some w.exponentNumber := by
  rw [exponentChars, exponentNumber]
  cases w.exponent with
  | none => rfl
  | some e => exact e.read_chars

theorem read_magnitude (negative : Bool) :
    Decimal.readMagnitude? negative w.magnitude = some { w.value with negative := negative } := by
  rw [magnitude, placesChars, value]
  by_cases hplaces : w.places = []
  · have hwhole := Decimal.readMagnitude_whole negative w.isWhole.ne_nil w.isWhole.allDigits
      w.isExponent w.read_exponent
    rw [if_pos hplaces, List.nil_append, hwhole, hplaces, List.append_nil, List.length_nil]
    simp
  · rw [if_neg hplaces]
    exact Decimal.readMagnitude_point negative w.isWhole.ne_nil w.isWhole.allDigits w.numeric
      w.isExponent w.read_exponent

theorem exists_digit : ∃ c rest, w.magnitude = c :: rest ∧ c.isDigit = true := by
  obtain ⟨c, rest, hwhole, hc⟩ := w.isWhole.exists_cons
  exact ⟨c, rest ++ (w.placesChars ++ w.exponentChars), by rw [magnitude, hwhole]; rfl, hc⟩

/-- The characters of numbers. -/
theorem mem_chars {c : Char} (hc : c ∈ w.chars) :
    c.isDigit = true ∨ c ∈ ['-', '+', '.', 'e', 'E'] := by
  simp only [chars, magnitude, List.mem_append] at hc
  rcases hc with hc | hc | hc | hc
  · rw [signChars] at hc
    split at hc
    · exact .inr (by simp [List.mem_singleton.mp hc])
    · cases hc
  · exact .inl (w.isWhole.allDigits c hc)
  · rw [placesChars] at hc
    split at hc
    · cases hc
    · rcases List.mem_cons.mp hc with rfl | hc
      · exact .inr (by decide)
      · exact .inl (w.numeric c hc)
  · rw [exponentChars] at hc
    cases hexponent : w.exponent with
    | none =>
      rw [hexponent] at hc
      cases hc
    | some e =>
      rw [hexponent] at hc
      exact e.mem_chars hc

theorem readSign_chars : Decimal.readSign w.chars = (w.negative, w.magnitude) := by
  obtain ⟨c, rest, hmagnitude, hc⟩ := w.exists_digit
  rw [chars, signChars]
  cases w.negative with
  | false =>
    rw [if_neg Bool.false_ne_true, List.nil_append, hmagnitude, readSign_digit hc]
  | true => rfl

/-- A written number is read as its value, if a decimal holds it. -/
theorem readAscii_chars :
    Decimal.readAscii? w.chars = if w.value.inRange then some (.finite w.value) else none := by
  obtain ⟨c, rest, hmagnitude, hc⟩ := w.exists_digit
  have hbody : (Decimal.readSign w.chars).2 = c :: rest := by rw [readSign_chars, hmagnitude]
  rw [readAscii_digits hbody hc, readSign_chars, ← hmagnitude, read_magnitude, Option.bind_some]
  rfl

def isPlain : Bool := w.placesChars.isEmpty && w.exponentChars.isEmpty

theorem isPlain_iff : w.isPlain = true ↔ w.places = [] ∧ w.exponent = none := by
  rw [isPlain, Bool.and_eq_true, List.isEmpty_iff, List.isEmpty_iff, placesChars, exponentChars]
  refine and_congr ?_ ?_
  · by_cases hplaces : w.places = [] <;> simp [hplaces]
  · cases w.exponent <;> simp [Exponent.chars]

/-- Without a point and an exponent a number denotes the number of its digits. -/
theorem exponent_of_isPlain (h : w.isPlain = true) : w.value.exponent = 0 := by
  obtain ⟨hplaces, hexponent⟩ := w.isPlain_iff.mp h
  simp [value, exponentNumber, hplaces, hexponent]

/-- A point and the mark of an exponent are no digits. -/
theorem all_magnitude : w.magnitude.all Char.isDigit = w.isPlain := by
  have hwhole : w.whole.all Char.isDigit = true := List.all_eq_true.mpr w.isWhole.allDigits
  have hplaces : w.placesChars.all Char.isDigit = w.placesChars.isEmpty := by
    rw [placesChars]
    by_cases hplaces : w.places = []
    · rw [if_pos hplaces]
      rfl
    · rw [if_neg hplaces]
      rfl
  have hexponent : w.exponentChars.all Char.isDigit = w.exponentChars.isEmpty := by
    rw [exponentChars]
    cases w.exponent with
    | none => rfl
    | some e =>
      have hmark : e.mark.isDigit = false := by rcases e.marked with h | h <;> rw [h] <;> rfl
      simp [Exponent.chars, hmark]
  rw [magnitude, List.all_append, List.all_append, hwhole, hplaces, hexponent, Bool.true_and,
    isPlain]

/-- A number in a string is read like the number itself. -/
theorem read_chars : Decimal.read? w.chars = Decimal.readAscii? w.chars := by
  have hmarks : ∀ c ∈ ['-', '+', '.', 'e', 'E'],
      Blank.isBlank c = false ∧ c ≠ '_' ∧ c.toNat < 0x80 := by simp [Blank.isBlank]
  refine Decimal.read_ascii fun c hc => ?_
  rcases w.mem_chars hc with hdigit | hmark
  · have hnumeral : Numeral.isNumeral c = true := by rw [Numeral.isNumeral, hdigit]; rfl
    have hrange := Numeral.digit_bounds hdigit
    refine ⟨Numeral.isBlank_numeral hnumeral, ?_, by omega⟩
    rintro rfl
    exact absurd hdigit (by decide)
  · exact hmarks c hmark

end Written

def Follows (rest : List Char) : Prop := ∀ c ∈ rest.head?, c.isDigit = false ∧ c ∉ ['.', 'e', 'E']

theorem follows_cons {c : Char} (hc : c.isDigit = false ∧ c ∉ ['.', 'e', 'E'])
    (others : List Char) : Follows (c :: others) := by
  intro d hd
  cases hd
  exact hc

section Scanning

variable {rest : List Char}

/-- A text that begins with no digit. -/
theorem digits_stop {c : Char} {others : List Char} (hc : c.isDigit = false) :
    (c :: others).takeWhile Char.isDigit = [] ∧
      (c :: others).dropWhile Char.isDigit = c :: others := by
  have hstop : ¬ c.isDigit = true := by rw [hc]; exact Bool.false_ne_true
  exact ⟨List.takeWhile_cons_of_neg hstop, List.dropWhile_cons_of_neg hstop⟩

theorem Follows.digits_stop (h : Follows rest) :
    rest.takeWhile Char.isDigit = [] ∧ rest.dropWhile Char.isDigit = rest := by
  cases rest with
  | nil => exact ⟨rfl, rfl⟩
  | cons c others => exact Json.digits_stop (h c rfl).1

theorem Exponent.scan_chars (e : Exponent) (h : Follows rest) :
    scanExponent (e.chars ++ rest) = (e.chars, rest) := by
  have hmark : (decide (e.mark = 'e') || decide (e.mark = 'E')) = true := by
    rw [Bool.or_eq_true, decide_eq_true_iff, decide_eq_true_iff]
    exact e.marked
  have hsign : exponentSign (e.sign ++ (e.digits ++ rest)) = (e.sign, e.digits ++ rest) := by
    rcases e.signed with hsign | hsign | hsign
    · obtain ⟨c, others, hds⟩ := List.exists_cons_of_ne_nil e.nonempty
      have hc := e.numeric c (hds ▸ List.mem_cons_self)
      rw [hsign, List.nil_append, hds, List.cons_append, exponentSign.eq_3]
      · rintro body hbody
        rw [(List.cons.inj hbody).1] at hc
        exact absurd hc (by decide)
      · rintro body hbody
        rw [(List.cons.inj hbody).1] at hc
        exact absurd hc (by decide)
    · rw [hsign]
      rfl
    · rw [hsign]
      rfl
  obtain ⟨htake, hdrop⟩ := takeWhile_digits e.numeric h.digits_stop
  have hsome : e.digits.isEmpty = false := List.isEmpty_eq_false_iff.mpr e.nonempty
  rw [Exponent.chars, List.cons_append, List.append_assoc, scanExponent_cons, if_pos hmark, hsign]
  dsimp only
  rw [htake, hdrop, hsome, if_neg Bool.false_ne_true, List.cons_append]

namespace Written

variable (w : Written)

theorem scan_exponent (h : Follows rest) :
    scanExponent (w.exponentChars ++ rest) = (w.exponentChars, rest) := by
  rw [exponentChars]
  cases w.exponent with
  | some e => exact e.scan_chars h
  | none =>
    cases rest with
    | nil => rfl
    | cons c others =>
      have hc := (h c rfl).2
      exact scanExponent_other (fun he => hc (by simp [he])) (fun hE => hc (by simp [hE])) others

/-- Behind the places stands no digit and no point. -/
theorem exponent_stop (h : Follows rest) :
    ((w.exponentChars ++ rest).takeWhile Char.isDigit = [] ∧
      (w.exponentChars ++ rest).dropWhile Char.isDigit = w.exponentChars ++ rest) ∧
      ∀ others, w.exponentChars ++ rest ≠ '.' :: others := by
  rw [exponentChars]
  cases w.exponent with
  | some e =>
    have hmark : e.mark.isDigit = false ∧ e.mark ≠ '.' := by
      rcases e.marked with h | h <;> rw [h] <;> decide
    exact ⟨digits_stop hmark.1, fun others heq => hmark.2 (List.cons.inj heq).1⟩
  | none =>
    refine ⟨h.digits_stop, fun others heq => ?_⟩
    have hc := (h '.' (by rw [show rest = '.' :: others from heq]; rfl)).2
    exact hc List.mem_cons_self

theorem scan_places (h : Follows rest) :
    scanPlaces (w.placesChars ++ (w.exponentChars ++ rest)) =
      (w.placesChars, w.exponentChars ++ rest) := by
  obtain ⟨hstop, hpoint⟩ := w.exponent_stop h
  rw [placesChars]
  by_cases hplaces : w.places = []
  · rw [if_pos hplaces, List.nil_append, scanPlaces]
    exact hpoint
  · obtain ⟨htake, hdrop⟩ := takeWhile_digits w.numeric hstop
    have hsome : w.places.isEmpty = false := List.isEmpty_eq_false_iff.mpr hplaces
    rw [if_neg hplaces, List.cons_append, scanPlaces, htake, hdrop, hsome,
      if_neg Bool.false_ne_true]

/-- Behind the digits in front of the point stands no further digit. -/
theorem places_stop (h : Follows rest) :
    (w.placesChars ++ (w.exponentChars ++ rest)).takeWhile Char.isDigit = [] ∧
      (w.placesChars ++ (w.exponentChars ++ rest)).dropWhile Char.isDigit =
        w.placesChars ++ (w.exponentChars ++ rest) := by
  rw [placesChars]
  by_cases hplaces : w.places = []
  · rw [if_pos hplaces]
    exact (w.exponent_stop h).1
  · rw [if_neg hplaces]
    exact digits_stop rfl

theorem scan_magnitude (sign : List Char) (h : Follows rest) :
    unsignedNumeral? sign (w.magnitude ++ rest) = some ⟨sign ++ w.magnitude, w.isPlain, rest⟩ := by
  have hfront : ∀ c others, w.whole = c :: others →
      c.isDigit = true ∧ wholeDigits c (others ++ (w.placesChars ++ (w.exponentChars ++ rest))) =
        (w.whole, w.placesChars ++ (w.exponentChars ++ rest)) := by
    intro c others hwhole
    have hdigits := w.isWhole.allDigits
    rw [hwhole] at hdigits
    refine ⟨hdigits c List.mem_cons_self, ?_⟩
    have hkind := w.isWhole
    rw [hwhole] at hkind ⊢
    cases hkind with
    | zero => rfl
    | digits nonzero all =>
      obtain ⟨htake, hdrop⟩ := takeWhile_digits
        (fun d hd => all d (List.mem_cons_of_mem c hd)) (w.places_stop h)
      rw [wholeDigits, if_neg nonzero, htake, hdrop]
  obtain ⟨c, others, hwhole, -⟩ := w.isWhole.exists_cons
  obtain ⟨hc, hdigits⟩ := hfront c others hwhole
  have htext : w.magnitude ++ rest =
      c :: (others ++ (w.placesChars ++ (w.exponentChars ++ rest))) := by
    simp [magnitude, hwhole]
  rw [htext, unsignedNumeral?, if_pos hc, hdigits]
  dsimp only
  rw [w.scan_places h]
  dsimp only
  rw [w.scan_exponent h]
  simp [magnitude, isPlain]

/-- The scanner takes the number and leaves what follows. -/
theorem scan_chars (h : Follows rest) :
    scanNumeral? (w.chars ++ rest) = some ⟨w.chars, w.isPlain, rest⟩ := by
  rw [chars, List.append_assoc, signChars]
  cases w.negative with
  | true =>
    rw [if_pos rfl, ← w.scan_magnitude ['-'] h]
    rfl
  | false =>
    obtain ⟨c, others, hmagnitude, hc⟩ := w.exists_digit
    have hunsigned : ∀ tail, w.magnitude ++ rest ≠ '-' :: tail := by
      intro tail heq
      rw [hmagnitude] at heq
      rw [(List.cons.inj heq).1] at hc
      exact absurd hc (by decide)
    rw [if_neg Bool.false_ne_true, List.nil_append, scanNumeral_unsigned hunsigned]
    exact w.scan_magnitude [] h

end Written

theorem isWhole_wholeDigits {c : Char} (hc : c.isDigit = true) (others : List Char) :
    IsWhole (wholeDigits c others).1 := by
  have hdigits := (wholeDigits_spec hc others).2.1
  unfold wholeDigits at hdigits ⊢
  by_cases hzero : c = '0'
  · rw [if_pos hzero]
    exact .zero
  · rw [if_neg hzero] at hdigits ⊢
    exact .digits hzero hdigits

theorem exists_places (cs : List Char) : ∃ places, AllDigits places ∧
    (scanPlaces cs).1 = if places = [] then [] else '.' :: places := by
  unfold scanPlaces
  split
  · next tail =>
    dsimp only
    by_cases hnone : (tail.takeWhile Char.isDigit).isEmpty = true
    · rw [if_pos hnone]
      exact ⟨[], allDigits_nil, rfl⟩
    · rw [if_neg hnone]
      refine ⟨_, allDigits_takeWhile tail, (if_neg fun hnil => hnone ?_).symm⟩
      rw [hnil]
      rfl
  · exact ⟨[], allDigits_nil, rfl⟩

theorem exists_exponent (cs : List Char) :
    ∃ e : Option Exponent, (scanExponent cs).1 = (e.map Exponent.chars).getD [] := by
  cases cs with
  | nil => exact ⟨none, rfl⟩
  | cons c tail =>
    rw [scanExponent_cons]
    dsimp only
    by_cases hmark : (decide (c = 'e') || decide (c = 'E')) = true
    · rw [if_pos hmark]
      rw [Bool.or_eq_true, decide_eq_true_iff, decide_eq_true_iff] at hmark
      generalize hbody : (exponentSign tail).2 = body
      by_cases hnone : (body.takeWhile Char.isDigit).isEmpty = true
      · rw [if_pos hnone]
        exact ⟨none, rfl⟩
      · rw [if_neg hnone]
        exact ⟨some ⟨c, (exponentSign tail).1, body.takeWhile Char.isDigit, hmark,
          exponentSign_sign tail, fun hnil => hnone (by rw [hnil]; rfl), allDigits_takeWhile body⟩,
          rfl⟩
    · rw [if_neg hmark]
      exact ⟨none, rfl⟩

/-- Whatever the scanner takes for a number is written so. -/
theorem exists_written {cs : List Char} {numeral : Numeral} (h : scanNumeral? cs = some numeral) :
    ∃ w : Written, w.chars = numeral.chars := by
  obtain ⟨sign, c, others, hsign, -, hc, hchars, -⟩ := scanNumeral_spec h
  obtain ⟨places, hplaces, hscanned⟩ := exists_places (wholeDigits c others).2
  obtain ⟨e, hexponent⟩ := exists_exponent (scanPlaces (wholeDigits c others).2).2
  refine ⟨⟨sign = ['-'], _, places, e, isWhole_wholeDigits hc others, hplaces⟩, ?_⟩
  rw [hchars, unsigned, hscanned, hexponent, Written.chars, Written.magnitude]
  congr 1
  rcases hsign with rfl | rfl <;> rfl

/-- No word begins like a number. -/
theorem scanWord_number {sign : List Char} (hsign : sign = [] ∨ sign = ['-']) {c : Char}
    (hc : c.isDigit = true) (rest : List Char) : scanWord? (sign ++ c :: rest) = none := by
  have hfirst : ∀ pair ∈ words, ∀ a ∈ pair.1.toList[0]?, a.isDigit = false := by
    simp [words]
  have hsecond : ∀ pair ∈ words, ∀ a ∈ pair.1.toList[1]?, a.isDigit = false := by
    simp [words]
  have hlong : ∀ pair ∈ words, 2 ≤ pair.1.toList.length := by simp [words]
  rw [scanWord?, List.findSome?_eq_none_iff]
  rintro ⟨word, v⟩ hmem
  refine if_neg fun hprefix => ?_
  obtain ⟨tail, htail⟩ := List.isPrefixOf_iff_prefix.mp hprefix
  obtain ⟨a, b, others, hword⟩ : ∃ a b others, word.toList = a :: b :: others := by
    have htwo := hlong _ hmem
    rcases hchars : word.toList with _ | ⟨a, _ | ⟨b, others⟩⟩
    · simp [hchars] at htwo
    · simp [hchars] at htwo
    · exact ⟨a, b, others, rfl⟩
  rw [hword] at htail
  have ha := hfirst _ hmem a (by rw [hword]; rfl)
  have hb := hsecond _ hmem b (by rw [hword]; rfl)
  rcases hsign with rfl | rfl
  · rw [(List.cons.inj htail).1, hc] at ha
    cases ha
  · rw [(List.cons.inj (List.cons.inj htail).2).1, hc] at hb
    cases hb

/-- A number that a decimal holds is scanned as its value. -/
theorem Written.scanValue_chars (w : Written) (hrange : w.value.inRange = true) (h : Follows rest)
    (fuel depth : Nat) :
    scanValue half .exact fuel depth (w.chars ++ rest) = .ok (.number w.value, rest) := by
  obtain ⟨sign, c, others, hsign, hchars, hc⟩ : ∃ sign c others, (sign = [] ∨ sign = ['-']) ∧
      w.chars ++ rest = sign ++ c :: others ∧ c.isDigit = true := by
    obtain ⟨c, others, hmagnitude, hc⟩ := w.exists_digit
    refine ⟨w.signChars, c, others ++ rest, ?_, ?_, hc⟩
    · rw [signChars]
      split
      · exact .inr rfl
      · exact .inl rfl
    · rw [Written.chars, hmagnitude, List.append_assoc, List.cons_append]
  have hfront : ∀ d, d.isDigit = false → d ≠ '-' → ∀ tail, w.chars ++ rest ≠ d :: tail := by
    intro d hd hminus tail heq
    rw [hchars] at heq
    rcases hsign with rfl | rfl
    · rw [← (List.cons.inj heq).1, hc] at hd
      cases hd
    · exact hminus (List.cons.inj heq).1.symm
  have hword : scanWord? (w.chars ++ rest) = none := by rw [hchars, scanWord_number hsign hc]
  rw [scanValue_scalar (hfront '"' rfl (by decide)) (hfront '[' rfl (by decide))
    (hfront '\x7b' rfl (by decide)), scanScalar, hword, w.scan_chars h]
  dsimp only
  rw [ofNumeral, w.readAscii_chars, if_pos hrange]
  rfl

end Scanning

end JavaRender.Json
