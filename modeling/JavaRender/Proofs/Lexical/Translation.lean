import JavaRender.Text.Digit
import Mathlib.Data.List.Basic

/-!
The first step of reading a Java text: its characters become UTF-16 units, and Unicode escapes the
units that they name. A backslash in front of the letter u starts an escape only behind an even
number of backslashes; main statement: a text in which none starts is its own translation, whatever
follows it.
-/
namespace JavaRender.Lexical

def unit (c : Char) : UInt16 := .ofNat c.toNat

def charUnits (c : Char) : List UInt16 :=
  if c.toNat < 0x10000 then [unit c]
  else
    [.ofNat (0xD800 + (c.toNat - 0x10000) / 0x400), .ofNat (0xDC00 + (c.toNat - 0x10000) % 0x400)]

def units (cs : List Char) : List UInt16 := cs.flatMap charUnits

section Units

variable {c d : Char}

theorem charUnits_small (h : c.toNat < 0x10000) : charUnits c = [unit c] := if_pos h

theorem ofNat_inj {m n : Nat} (hm : m < 0x10000) (hn : n < 0x10000)
    (h : UInt16.ofNat m = UInt16.ofNat n) : m = n := by
  have hnat := congrArg UInt16.toNat h
  rw [UInt16.toNat_ofNat', UInt16.toNat_ofNat'] at hnat
  omega

/-- A character is its own unit and no surrogate, or it is a pair of surrogates. -/
theorem charUnits_cases (c : Char) :
    (c.toNat < 0x10000 ∧ (c.toNat < 0xD800 ∨ 0xDFFF < c.toNat) ∧ charUnits c = [unit c]) ∨
      ∃ high low, high < 0x400 ∧ low < 0x400 ∧ c.toNat = 0x10000 + (high * 0x400 + low) ∧
        charUnits c = [.ofNat (0xD800 + high), .ofNat (0xDC00 + low)] := by
  have hvalid : c.toNat < 0xD800 ∨ 0xDFFF < c.toNat ∧ c.toNat < 0x110000 := c.valid
  by_cases hsmall : c.toNat < 0x10000
  · exact .inl ⟨hsmall, by omega, charUnits_small hsmall⟩
  · refine .inr ⟨(c.toNat - 0x10000) / 0x400, (c.toNat - 0x10000) % 0x400, by omega, by omega,
      by omega, if_neg hsmall⟩

/-- The units of characters are told apart from the front. -/
theorem charUnits_append_inj {rest rest' : List UInt16}
    (h : charUnits c ++ rest = charUnits d ++ rest') : c = d ∧ rest = rest' := by
  rcases charUnits_cases c with ⟨hc, hplane, hunits⟩ | ⟨high, low, hhigh, hlow, hc, hunits⟩
  · rcases charUnits_cases d with ⟨hd, hplane', hunits'⟩ | ⟨high', low', hhigh', hlow', hd, hunits'⟩
    · rw [hunits, hunits'] at h
      obtain ⟨hfirst, hrest⟩ := List.cons.inj h
      exact ⟨Char.toNat_inj.mp (ofNat_inj hc hd hfirst), hrest⟩
    · rw [hunits, hunits'] at h
      have hfirst := ofNat_inj hc (by omega) (List.cons.inj h).1
      omega
  · rcases charUnits_cases d with ⟨hd, hplane', hunits'⟩ | ⟨high', low', hhigh', hlow', hd, hunits'⟩
    · rw [hunits, hunits'] at h
      have hfirst := ofNat_inj (by omega) hd (List.cons.inj h).1
      omega
    · rw [hunits, hunits'] at h
      obtain ⟨hfirst, htail⟩ := List.cons.inj h
      obtain ⟨hsecond, hrest⟩ := List.cons.inj htail
      have hhighs := ofNat_inj (by omega) (by omega) hfirst
      have hlows := ofNat_inj (by omega) (by omega) hsecond
      refine ⟨Char.toNat_inj.mp ?_, hrest⟩
      omega

theorem units_cons (c : Char) (cs : List Char) : units (c :: cs) = charUnits c ++ units cs :=
  List.flatMap_cons

theorem units_append (cs ds : List Char) : units (cs ++ ds) = units cs ++ units ds :=
  List.flatMap_append

theorem charUnits_ne_nil (c : Char) : charUnits c ≠ [] := by
  unfold charUnits
  split <;> exact List.cons_ne_nil _ _

/-- Different texts have different units. -/
theorem units_injective {cs ds : List Char} (h : units cs = units ds) : cs = ds := by
  induction cs generalizing ds with
  | nil =>
    cases ds with
    | nil => rfl
    | cons d others =>
      rw [units_cons] at h
      exact absurd (List.append_eq_nil_iff.mp h.symm).1 (charUnits_ne_nil d)
  | cons c rest ih =>
    cases ds with
    | nil =>
      rw [units_cons] at h
      exact absurd (List.append_eq_nil_iff.mp h).1 (charUnits_ne_nil c)
    | cons d others =>
      rw [units_cons, units_cons] at h
      obtain ⟨rfl, hrest⟩ := charUnits_append_inj h
      rw [ih hrest]

/-- A character of ASCII is the only one with its unit. -/
theorem notMem_charUnits (hd : d.toNat < 0x80) (h : c ≠ d) : unit d ∉ charUnits c := by
  intro hmem
  rcases charUnits_cases c with ⟨hc, -, hunits⟩ | ⟨high, low, hhigh, hlow, -, hunits⟩
  · rw [hunits, List.mem_singleton] at hmem
    exact h (Char.toNat_inj.mp (ofNat_inj (by omega) hc hmem).symm)
  · rw [hunits, List.mem_pair] at hmem
    rcases hmem with hmem | hmem
    · have := ofNat_inj (by omega) (by omega) hmem
      omega
    · have := ofNat_inj (by omega) (by omega) hmem
      omega

end Units

/-- Where the translation stands: behind so many backslashes in a row, behind the start of an
escape, or in its digits, of which some are missing and the others spell a value. -/
inductive Progress where
  | raw (slashes : Nat)
  | marked
  | digits (missing value : Nat)

/-- The units of a text from a place on. An escape may repeat its letter and has four digits. -/
def translateFrom : Progress → List Char → Option (List UInt16)
  | .raw _, [] => some []
  | .marked, [] => none
  | .digits _ _, [] => none
  | .raw slashes, c :: rest =>
    if c = '\\' then
      if slashes % 2 = 0 ∧ rest.head? = some 'u' then translateFrom .marked rest
      else (translateFrom (.raw (slashes + 1)) rest).map (charUnits c ++ ·)
    else (translateFrom (.raw 0) rest).map (charUnits c ++ ·)
  | .marked, c :: rest =>
    if c = 'u' then translateFrom .marked rest
    else (Digit.hexValue? c).bind fun value => translateFrom (.digits 3 value) rest
  | .digits missing value, c :: rest =>
    (Digit.hexValue? c).bind fun digit =>
      if missing ≤ 1 then
        (translateFrom (.raw 0) rest).map (.ofNat (16 * value + digit) :: ·)
      else translateFrom (.digits (missing - 1) (16 * value + digit)) rest

def translate? (cs : List Char) : Option (List UInt16) := translateFrom (.raw 0) cs

def slashesAfter (slashes : Nat) (before : List Char) : Nat :=
  before.foldl (fun n c => if c = '\\' then n + 1 else 0) slashes

/-- In front of the letter u stand only backslashes with an odd number of others before them: behind
so many backslashes, no Unicode escape starts in the text. -/
def Quiet (slashes : Nat) (cs : List Char) : Prop :=
  ∀ before after, cs = before ++ '\\' :: 'u' :: after → slashesAfter slashes before % 2 = 1

section Quiet

variable {slashes : Nat} {c : Char} {rest : List Char}

theorem slashesAfter_slash (slashes : Nat) (rest : List Char) :
    slashesAfter slashes ('\\' :: rest) = slashesAfter (slashes + 1) rest := rfl

theorem slashesAfter_cons (hc : c ≠ '\\') (slashes : Nat) (rest : List Char) :
    slashesAfter slashes (c :: rest) = slashesAfter 0 rest := by
  rw [slashesAfter, List.foldl_cons, if_neg hc]
  rfl

theorem Quiet.cons (h : Quiet 0 rest) (hc : c ≠ '\\') : Quiet slashes (c :: rest) := by
  intro before after heq
  cases before with
  | nil => exact absurd (List.cons.inj heq).1 hc
  | cons d others =>
    obtain ⟨rfl, hrest⟩ := List.cons.inj heq
    rw [slashesAfter_cons hc]
    exact h others after hrest

/-- Behind any other character the count starts again. -/
theorem slashesAfter_append (hc : c ≠ '\\') (slashes : Nat) (front : List Char) :
    slashesAfter slashes (front ++ [c]) = 0 := by
  rw [slashesAfter, List.foldl_append, List.foldl_cons, if_neg hc]
  rfl

/-- A backslash starts no escape if the letter does not follow, or behind an odd number. -/
theorem Quiet.slash (h : Quiet (slashes + 1) rest)
    (hstart : slashes % 2 = 1 ∨ rest.head? ≠ some 'u') : Quiet slashes ('\\' :: rest) := by
  intro before after heq
  cases before with
  | nil =>
    rw [(List.cons.inj heq).2] at hstart
    exact hstart.resolve_right fun hletter => hletter rfl
  | cons d others =>
    obtain ⟨rfl, hrest⟩ := List.cons.inj heq
    rw [slashesAfter_slash]
    exact h others after hrest

theorem Quiet.tail_of_slash (h : Quiet slashes ('\\' :: rest)) : Quiet (slashes + 1) rest := by
  intro before after heq
  have hodd := h ('\\' :: before) after (by rw [heq]; rfl)
  rwa [slashesAfter_slash] at hodd

theorem Quiet.tail (h : Quiet slashes (c :: rest)) (hc : c ≠ '\\') : Quiet 0 rest := by
  intro before after heq
  have hodd := h (c :: before) after (by rw [heq]; rfl)
  rwa [slashesAfter_cons hc] at hodd

/-- A text in which no escape starts stays as it is, and so does the translation of what follows, if
there is no backslash at its end. -/
theorem translateFrom_quiet {front : List Char} (h : Quiet slashes front)
    (hlast : front.getLast? ≠ some '\\') (rest : List Char) :
    translateFrom (.raw slashes) (front ++ rest) =
      (translateFrom (.raw (slashesAfter slashes front)) rest).map (units front ++ ·) := by
  induction front generalizing slashes with
  | nil =>
    change _ = (translateFrom (.raw slashes) rest).map fun left => left
    rw [Option.map_id']
    rfl
  | cons c others ih =>
    have htogether : ∀ left : Option (List UInt16),
        (left.map (units others ++ ·)).map (charUnits c ++ ·) =
          left.map (units (c :: others) ++ ·) := by
      intro left
      rw [Option.map_map]
      congr 1
      funext more
      rw [Function.comp_apply, units_cons, List.append_assoc]
    by_cases hc : c = '\\'
    · subst hc
      -- the letter that may follow stands in the text itself, for it does not end here
      obtain ⟨d, tail, rfl⟩ : ∃ d tail, others = d :: tail := by
        cases others with
        | nil => exact absurd rfl hlast
        | cons d tail => exact ⟨d, tail, rfl⟩
      rw [List.getLast?_cons_cons] at hlast
      have hletter : ¬ (slashes % 2 = 0 ∧ (d :: tail ++ rest).head? = some 'u') := by
        rintro ⟨heven, hhead⟩
        cases hhead
        have hodd : slashes % 2 = 1 := h [] tail rfl
        omega
      rw [List.cons_append, translateFrom, if_pos rfl, if_neg hletter, ih h.tail_of_slash hlast,
        htogether, slashesAfter_slash]
    · have hlast' : others.getLast? ≠ some '\\' := by
        cases others with
        | nil => exact fun hnone => nomatch hnone
        | cons d tail => rwa [List.getLast?_cons_cons] at hlast
      rw [List.cons_append, translateFrom, if_neg hc, ih (h.tail hc) hlast', htogether,
        slashesAfter_cons hc]

end Quiet

end JavaRender.Lexical
