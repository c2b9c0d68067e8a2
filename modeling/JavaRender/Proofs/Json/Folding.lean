import JavaRender.Proofs.Json.Strings
import JavaRender.Proofs.Text.Terminator

/-!
Scanning a text with its terminators folded. Terminators are blanks between tokens and stand inside
no token, so every scanner reads the same and leaves the same, folded as well; main statement: a
document is read alike with any terminators, and refused alike but for the place.
-/
namespace JavaRender.Json

variable {half : StandIn}

open Line (unify)

/-- How two scanners end on a text and on the folded text: with the same value and the same rest, or
both with a fault, of which either none or both are for the range of a number. -/
def Agree {α : Type} : Result (α × List Char) → Result (α × List Char) → Prop
  | .ok (a, left), .ok (a', left') => a' = a ∧ left' = unify left
  | .error fault, .error fault' => fault = .numberRange ↔ fault' = .numberRange
  | _, _ => False

namespace Agree

variable {α β : Type} {r r' : Result (α × List Char)}

theorem ok (a : α) (left : List Char) : Agree (.ok (a, left)) (.ok (a, unify left)) := ⟨rfl, rfl⟩

theorem flawed (flaw : Flaw) (place place' : Nat) :
    Agree (.error (.flawed flaw place) : Result (α × List Char)) (.error (.flawed flaw place')) :=
  iff_of_false Fault.noConfusion Fault.noConfusion

theorem cases (h : Agree r r') :
    (∃ a left, r = .ok (a, left) ∧ r' = .ok (a, unify left)) ∨
      ∃ fault fault', r = .error fault ∧ r' = .error fault' ∧
        (fault = .numberRange ↔ fault' = .numberRange) := by
  cases r with
  | ok found =>
    cases r' with
    | ok found' =>
      obtain ⟨a, left⟩ := found
      obtain ⟨a', left'⟩ := found'
      obtain ⟨rfl, rfl⟩ := h
      exact .inl ⟨_, left, rfl, rfl⟩
    | error fault => exact h.elim
  | error fault =>
    cases r' with
    | ok found' => exact h.elim
    | error fault' => exact .inr ⟨fault, fault', rfl, rfl, h⟩

theorem map (h : Agree r r') (f : α → β) :
    Agree (r.map fun (a, left) => (f a, left)) (r'.map fun (a, left) => (f a, left)) := by
  rcases h.cases with ⟨a, left, rfl, rfl⟩ | ⟨fault, fault', rfl, rfl, hrange⟩
  · exact ok (f a) left
  · exact hrange

theorem bind {f f' : α × List Char → Result (β × List Char)} (h : Agree r r')
    (hf : ∀ a left, r = .ok (a, left) → Agree (f (a, left)) (f' (a, unify left))) :
    Agree (r >>= f) (r' >>= f') := by
  rcases h.cases with ⟨a, left, rfl, rfl⟩ | ⟨fault, fault', rfl, rfl, hrange⟩
  · exact hf a left rfl
  · exact hrange

theorem bind_ok (h : Agree r r') (f : α → β) :
    Agree (r >>= fun (a, left) => .ok (f a, left)) (r' >>= fun (a, left) => .ok (f a, left)) :=
  h.bind fun a left _ => ok (f a) left

end Agree

section Tokens

/-- A string is the same in both texts, for no terminator stands in it. -/
theorem agree_scanString (start start' cs : List Char) :
    Agree (scanString half start cs) (scanString half start' (unify cs)) := by
  have htakes : Takes half cs _ := takes_scanString start cs
  have htakes' : Takes half (unify cs) _ := takes_scanString start' (unify cs)
  cases hscan : scanString half start cs with
  | ok found =>
    rw [hscan] at htakes
    obtain ⟨s, left⟩ := found
    obtain ⟨taken, rfl, hunbroken, -, hagain⟩ := htakes
    rw [Line.unify_append hunbroken.1, hagain]
    exact .ok s left
  | error fault =>
    rw [hscan] at htakes
    cases hscan' : scanString half start' (unify cs) with
    | ok found =>
      rw [hscan'] at htakes'
      obtain ⟨s, left⟩ := found
      obtain ⟨taken, hcs, hunbroken, -, hagain⟩ := htakes'
      obtain ⟨left', rfl, -⟩ := Line.exists_append hunbroken.2 hcs
      rw [hagain] at hscan
      cases hscan
    | error fault' =>
      rw [hscan'] at htakes'
      exact iff_of_false htakes htakes'

theorem isPrefixOf_unify {word : List Char} (h : Unbroken word) (cs : List Char) :
    word.isPrefixOf (unify cs) = word.isPrefixOf cs ∧
      (word.isPrefixOf cs = true → (unify cs).drop word.length = unify (cs.drop word.length)) := by
  have hfront : word.isPrefixOf cs = true → ∃ rest, cs = word ++ rest := by
    intro hprefix
    obtain ⟨rest, hrest⟩ := List.isPrefixOf_iff_prefix.mp hprefix
    exact ⟨rest, hrest.symm⟩
  constructor
  · rw [Bool.eq_iff_iff]
    constructor
    · intro hprefix
      obtain ⟨rest, hrest⟩ := List.isPrefixOf_iff_prefix.mp hprefix
      obtain ⟨left, rfl, -⟩ := Line.exists_append h.2 hrest.symm
      exact List.isPrefixOf_iff_prefix.mpr (List.prefix_append word left)
    · intro hprefix
      obtain ⟨rest, rfl⟩ := hfront hprefix
      rw [Line.unify_append h.1]
      exact List.isPrefixOf_iff_prefix.mpr (List.prefix_append word (unify rest))
  · intro hprefix
    obtain ⟨rest, rfl⟩ := hfront hprefix
    rw [Line.unify_append h.1, List.drop_left, List.drop_left]

def folded {α : Type} (found : α × List Char) : α × List Char := (found.1, unify found.2)

theorem scanWord_unify (cs : List Char) : scanWord? (unify cs) = (scanWord? cs).map folded := by
  have hwords : ∀ w ∈ words, Unbroken w.1.toList := by simp [words, Unbroken]
  unfold scanWord?
  generalize words = ws at hwords ⊢
  induction ws with
  | nil => rfl
  | cons w rest ih =>
    obtain ⟨word, v⟩ := w
    rw [List.forall_mem_cons] at hwords
    obtain ⟨hsame, hrest⟩ := isPrefixOf_unify hwords.1 cs
    rw [String.length_toList] at hrest
    rw [List.findSome?_cons, List.findSome?_cons, ih hwords.2]
    dsimp only at hsame hrest ⊢
    rw [hsame]
    by_cases hword : word.toList.isPrefixOf cs = true
    · rw [if_pos hword, if_pos hword, hrest hword]
      rfl
    · rw [if_neg hword, if_neg hword]

theorem digit_breaks : Char.isDigit '\r' = false ∧ Char.isDigit '\n' = false := by decide

theorem digits_unify (cs : List Char) :
    (unify cs).takeWhile Char.isDigit = cs.takeWhile Char.isDigit ∧
      (unify cs).dropWhile Char.isDigit = unify (cs.dropWhile Char.isDigit) :=
  ⟨Line.takeWhile_unify digit_breaks.1 digit_breaks.2 cs, Line.dropWhile_unify rfl cs⟩

theorem wholeDigits_unify (c : Char) (rest : List Char) :
    wholeDigits c (unify rest) = folded (wholeDigits c rest) := by
  obtain ⟨htake, hdrop⟩ := digits_unify rest
  unfold wholeDigits
  by_cases hc : c = '0'
  · rw [if_pos hc, if_pos hc]
    rfl
  · rw [if_neg hc, if_neg hc, htake, hdrop]
    rfl

theorem scanPlaces_unify (cs : List Char) : scanPlaces (unify cs) = folded (scanPlaces cs) := by
  rcases Line.front_cases (c := '.') (by decide) (by decide) cs with ⟨rest, rfl, heq⟩ | ⟨hne, hne'⟩
  · obtain ⟨htake, hdrop⟩ := digits_unify rest
    rw [heq]
    simp only [scanPlaces, htake, hdrop]
    by_cases hempty : (rest.takeWhile Char.isDigit).isEmpty = true
    · rw [if_pos hempty, if_pos hempty, ← heq]
      rfl
    · rw [if_neg hempty, if_neg hempty]
      rfl
  · have hnone : ∀ ds, (∀ rest, ds ≠ '.' :: rest) → scanPlaces ds = ([], ds) := by
      intro ds hds
      unfold scanPlaces
      split
      · exact absurd rfl (hds _)
      · rfl
    rw [hnone cs hne, hnone (unify cs) hne']
    rfl

theorem exponentSign_unify (cs : List Char) :
    exponentSign (unify cs) = folded (exponentSign cs) := by
  rcases Line.front_cases (c := '+') (by decide) (by decide) cs with ⟨rest, rfl, heq⟩ | ⟨hp, hp'⟩
  · rw [heq]
    rfl
  rcases Line.front_cases (c := '-') (by decide) (by decide) cs with ⟨rest, rfl, heq⟩ | ⟨hm, hm'⟩
  · rw [heq]
    rfl
  · have hnone : ∀ ds, (∀ rest, ds ≠ '+' :: rest) → (∀ rest, ds ≠ '-' :: rest) →
        exponentSign ds = ([], ds) := by
      intro ds hplus hminus
      unfold exponentSign
      split
      · exact absurd rfl (hplus _)
      · exact absurd rfl (hminus _)
      · rfl
    rw [hnone cs hp hm, hnone (unify cs) hp' hm']
    rfl

/-- Without a mark there is no exponent. -/
theorem scanExponent_other {c : Char} (he : c ≠ 'e') (hE : c ≠ 'E') (rest : List Char) :
    scanExponent (c :: rest) = ([], c :: rest) := by
  rw [scanExponent_cons, if_neg]
  simp [he, hE]

theorem scanExponent_unify (cs : List Char) :
    scanExponent (unify cs) = folded (scanExponent cs) := by
  cases cs with
  | nil => rfl
  | cons c rest =>
    by_cases hreturn : c = '\r'
    · subst hreturn
      obtain ⟨after, hafter⟩ := Line.head_unify_return rest
      rw [hafter, scanExponent_other (by decide) (by decide),
        scanExponent_other (by decide) (by decide), folded, hafter]
    · rw [Line.unify_cons hreturn, scanExponent_cons, scanExponent_cons, exponentSign_unify]
      obtain ⟨htake, hdrop⟩ := digits_unify (exponentSign rest).2
      by_cases hmark : (decide (c = 'e') || decide (c = 'E')) = true
      · rw [if_pos hmark, if_pos hmark]
        simp only [folded, htake, hdrop]
        by_cases hempty : ((exponentSign rest).2.takeWhile Char.isDigit).isEmpty = true
        · rw [if_pos hempty, if_pos hempty, Line.unify_cons hreturn]
        · rw [if_neg hempty, if_neg hempty]
      · rw [if_neg hmark, if_neg hmark, folded, Line.unify_cons hreturn]

def Numeral.folded (n : Numeral) : Numeral := { n with left := unify n.left }

theorem unsignedNumeral_unify (sign cs : List Char) :
    unsignedNumeral? sign (unify cs) = (unsignedNumeral? sign cs).map Numeral.folded := by
  cases cs with
  | nil => rfl
  | cons c rest =>
    by_cases hreturn : c = '\r'
    · subst hreturn
      obtain ⟨after, hafter⟩ := Line.head_unify_return rest
      rw [hafter]
      rfl
    · rw [Line.unify_cons hreturn, unsignedNumeral?, unsignedNumeral?, wholeDigits_unify]
      simp only [folded, scanPlaces_unify, scanExponent_unify]
      by_cases hc : c.isDigit = true
      · rw [if_pos hc, if_pos hc]
        rfl
      · rw [if_neg hc, if_neg hc]
        rfl

theorem scanNumeral_unsigned {cs : List Char} (h : ∀ rest, cs ≠ '-' :: rest) :
    scanNumeral? cs = unsignedNumeral? [] cs := by
  unfold scanNumeral?
  split
  next heq =>
  split at heq
  · exact absurd rfl (h _)
  · cases heq
    rfl

theorem scanNumeral_unify (cs : List Char) :
    scanNumeral? (unify cs) = (scanNumeral? cs).map Numeral.folded := by
  rcases Line.front_cases (c := '-') (by decide) (by decide) cs with ⟨rest, rfl, heq⟩ | ⟨hm, hm'⟩
  · rw [heq]
    exact unsignedNumeral_unify ['-'] rest
  · rw [scanNumeral_unsigned hm, scanNumeral_unsigned hm', unsignedNumeral_unify]

theorem agree_scanScalar (cs : List Char) :
    Agree (scanScalar .exact cs) (scanScalar .exact (unify cs)) := by
  unfold scanScalar
  rw [scanWord_unify]
  cases scanWord? cs with
  | some found => exact .ok found.1 found.2
  | none =>
    rw [Option.map_none, scanNumeral_unify]
    cases scanNumeral? cs with
    | none => exact .flawed _ _ _
    | some numeral =>
      simp only [Option.map_some]
      have hvalue : ofNumeral .exact numeral.folded = ofNumeral .exact numeral := rfl
      rw [hvalue]
      cases ofNumeral .exact numeral with
      | ok v => exact .ok v numeral.left
      | error fault => exact Iff.rfl

end Tokens

section Brackets

theorem skipBlanks_unify (cs : List Char) : skipBlanks (unify cs) = unify (skipBlanks cs) :=
  Line.dropWhile_unify rfl cs

/-- Room for as many values as there are characters, before and after folding. -/
structure Room (fuel fuel' : Nat) (cs : List Char) : Prop where
  plain : cs.length < fuel
  folded : (unify cs).length < fuel'

theorem left_suffix {α : Type} {cs left : List Char} {a : α} {r : Result (α × List Char)}
    (hwithin : Within cs r) (h : r = .ok (a, left)) : skipBlanks left <:+ cs := by
  rw [h] at hwithin
  exact (skipBlanks_suffix left).trans hwithin

theorem Room.suffix {fuel fuel' : Nat} {left cs : List Char} (h : Room fuel fuel' cs)
    (hleft : left <:+ cs) : Room fuel fuel' left :=
  ⟨Nat.lt_of_le_of_lt hleft.length_le h.plain,
    Nat.lt_of_le_of_lt (Line.length_unify_suffix hleft) h.folded⟩

/-- Behind a character there is room for one value less. -/
theorem Room.behind {fuel fuel' : Nat} {c : Char} {after cs : List Char}
    (h : Room (fuel + 1) (fuel' + 1) cs) (hc : c ≠ '\r') (hafter : c :: after <:+ cs) :
    Room fuel fuel' after := by
  have hroom := h.suffix hafter
  have hplain := hroom.plain
  have hfolded := hroom.folded
  rw [Line.unify_cons hc] at hfolded
  rw [List.length_cons] at hplain hfolded
  exact ⟨by omega, by omega⟩

section Elements

variable {α : Type} {element element' : List Char → Result (α × List Char)} {bound bound' : Nat}
  {elements elements' : Nat → List Char → Result (List α × List Char)} {close : Char}

/-- The elements of a list are read alike if each of them is, by induction on their bound: behind a
comma there is room for one element less. -/
theorem agree_elements (hclose : close ≠ '\r' ∧ close ≠ '\n') (h : Lists close element elements)
    (h' : Lists close element' elements')
    (helement : ∀ cs, Room bound bound' cs → Agree (element cs) (element' (unify cs)))
    (hwithin : ∀ cs, Within cs (element cs)) (fuel fuel' : Nat) (cs : List Char)
    (hroom : Room fuel fuel' cs) (hbound : Room bound bound' cs) :
    Agree (elements fuel cs) (elements' fuel' (unify cs)) := by
  induction fuel generalizing fuel' cs with
  | zero => exact absurd hroom.plain (Nat.not_lt_zero _)
  | succ fuel ih =>
    cases fuel' with
    | zero => exact absurd hroom.folded (Nat.not_lt_zero _)
    | succ fuel' =>
      rw [h.more, h'.more]
      refine (helement cs hbound).bind fun a left hleft => ?_
      have hsuffix : skipBlanks left <:+ cs := left_suffix (hwithin cs) hleft
      dsimp only
      rw [skipBlanks_unify]
      generalize skipBlanks left = rest at hsuffix ⊢
      cases rest with
      | nil => exact .flawed _ _ _
      | cons c after =>
        by_cases hreturn : c = '\r'
        · subst hreturn
          obtain ⟨behind, hbehind⟩ := Line.head_unify_return after
          rw [hbehind, afterElement, afterElement, if_neg hclose.1.symm, if_neg hclose.2.symm]
          exact .flawed _ _ _
        · rw [Line.unify_cons hreturn, afterElement, afterElement]
          by_cases hend : c = close
          · rw [if_pos hend, if_pos hend]
            exact .ok [a] after
          rw [if_neg hend, if_neg hend]
          by_cases hcomma : c = ','
          · rw [if_pos hcomma, if_pos hcomma]
            have hafter : skipBlanks after <:+ after := skipBlanks_suffix after
            have hnext := (hroom.behind hreturn hsuffix).suffix hafter
            have hwhole := hbound.suffix (hafter.trans ((List.suffix_cons _ _).trans hsuffix))
            have hrest := ih fuel' (skipBlanks after) hnext hwhole
            rw [← skipBlanks_unify] at hrest
            exact hrest.bind_ok (a :: ·)
          · rw [if_neg hcomma, if_neg hcomma]
            exact .flawed _ _ _

theorem agree_bracketed (hclose : close ≠ '\r' ∧ close ≠ '\n')
    {list list' : List Char → Result (List α × List Char)} {cs : List Char}
    (h : Agree (list cs) (list' (unify cs))) (make : List α → Json) :
    Agree (bracketed close list make cs) (bracketed close list' make (unify cs)) := by
  cases cs with
  | nil => exact h.bind_ok make
  | cons c rest =>
    by_cases hreturn : c = '\r'
    · subst hreturn
      obtain ⟨behind, hbehind⟩ := Line.head_unify_return rest
      rw [hbehind] at h ⊢
      rw [bracketed, bracketed, if_neg hclose.1.symm, if_neg hclose.2.symm]
      exact h.bind_ok make
    · rw [Line.unify_cons hreturn] at h ⊢
      rw [bracketed, bracketed]
      by_cases hend : c = close
      · rw [if_pos hend, if_pos hend]
        exact .ok _ rest
      · rw [if_neg hend, if_neg hend]
        exact h.bind_ok make

end Elements

variable {item item' : List Char → Result (Json × List Char)} {bound bound' : Nat}
  (hitem : ∀ cs, Room bound bound' cs → Agree (item cs) (item' (unify cs)))
include hitem

theorem agree_scanMember (cs : List Char) (hbound : Room bound bound' cs) :
    Agree (scanMember half item cs) (scanMember half item' (unify cs)) := by
  unfold scanMember
  rcases Line.front_cases (c := '"') (by decide) (by decide) cs with
    ⟨rest, rfl, heq⟩ | ⟨hquote, hquote'⟩
  · rw [heq]
    refine (agree_scanString _ _ rest).bind fun name left hleft => ?_
    have hsuffix : skipBlanks left <:+ '"' :: rest :=
      (left_suffix (within_scanString _ rest) hleft).trans (List.suffix_cons _ rest)
    dsimp only
    rw [skipBlanks_unify]
    generalize skipBlanks left = behind at hsuffix ⊢
    rcases Line.front_cases (c := ':') (by decide) (by decide) behind with
      ⟨after, rfl, heq⟩ | ⟨hcolon, hcolon'⟩
    · rw [heq]
      have hafter : skipBlanks after <:+ '"' :: rest :=
        ((skipBlanks_suffix after).trans (List.suffix_cons _ _)).trans hsuffix
      have hvalue := hitem (skipBlanks after) (hbound.suffix hafter)
      rw [← skipBlanks_unify] at hvalue
      exact hvalue.bind_ok (String.ofList name, ·)
    · split
      · exact absurd rfl (hcolon _)
      · exact .flawed _ _ _
  · split
    · exact absurd rfl (hquote _)
    · exact .flawed _ _ _

variable (hwithin : ∀ cs, Within cs (item cs))
include hwithin

theorem agree_scanArray (fuel fuel' : Nat) (cs : List Char) (hroom : Room fuel fuel' cs)
    (hbound : Room bound bound' cs) :
    Agree (scanArray item fuel cs) (scanArray item' fuel' (unify cs)) := by
  have hsuffix := skipBlanks_suffix cs
  have hclose : ']' ≠ '\r' ∧ ']' ≠ '\n' := by decide
  have hitems := agree_elements hclose lists_scanItems lists_scanItems hitem hwithin
    fuel fuel' (skipBlanks cs) (hroom.suffix hsuffix) (hbound.suffix hsuffix)
  rw [scanArray_eq, scanArray_eq, skipBlanks_unify]
  exact agree_bracketed hclose hitems Json.array

theorem agree_scanObject (fuel fuel' : Nat) (cs : List Char) (hroom : Room fuel fuel' cs)
    (hbound : Room bound bound' cs) :
    Agree (scanObject half item fuel cs) (scanObject half item' fuel' (unify cs)) := by
  have hsuffix := skipBlanks_suffix cs
  have hclose : '\x7d' ≠ '\r' ∧ '\x7d' ≠ '\n' := by decide
  have hmembers : Agree (scanMembers half item fuel (skipBlanks cs))
      (scanMembers half item' fuel' (unify (skipBlanks cs))) :=
    agree_elements hclose lists_scanMembers lists_scanMembers (agree_scanMember hitem)
      (within_scanMember hwithin) fuel fuel' _ (hroom.suffix hsuffix) (hbound.suffix hsuffix)
  rw [scanObject_eq, scanObject_eq, skipBlanks_unify]
  exact agree_bracketed hclose hmembers Json.object

end Brackets

/-- What begins with no mark of a string, an array or an object is a word or a number. -/
theorem scanValue_scalar {style : NumberStyle} {cs : List Char} (hquote : ∀ rest, cs ≠ '"' :: rest)
    (harray : ∀ rest, cs ≠ '[' :: rest) (hobject : ∀ rest, cs ≠ '\x7b' :: rest) (fuel depth : Nat) :
    scanValue half style fuel depth cs = scanScalar style cs := by
  unfold scanValue
  split
  · exact absurd rfl (hquote _)
  · exact absurd rfl (harray _)
  · exact absurd rfl (hobject _)
  · rfl

theorem agree_tooDeep {α : Type} (bracket : Bracket) :
    Agree (.error (.tooDeep bracket) : Result (α × List Char)) (.error (.tooDeep bracket)) :=
  Iff.rfl

/-- A value is read alike, by induction on the depth to which brackets may still nest. -/
theorem agree_scanValue (fuel fuel' depth : Nat) (cs : List Char) (hroom : Room fuel fuel' cs) :
    Agree (scanValue half .exact fuel depth cs) (scanValue half .exact fuel' depth (unify cs)) := by
  induction depth using Nat.strongRecOn generalizing cs with
  | _ depth ih =>
    rcases Line.front_cases (c := '"') (by decide) (by decide) cs with
      ⟨rest, rfl, heq⟩ | ⟨hquote, hquote'⟩
    · rw [heq, scanValue, scanValue]
      exact (agree_scanString _ _ rest).map fun s => Json.string (String.ofList s)
    rcases Line.front_cases (c := '[') (by decide) (by decide) cs with
      ⟨rest, rfl, heq⟩ | ⟨harray, harray'⟩
    · have hrest := hroom.suffix (List.suffix_cons '[' rest)
      rw [heq, scanValue.eq_def, scanValue.eq_def]
      cases depth with
      | zero => exact agree_tooDeep .array
      | succ depth =>
        exact agree_scanArray (ih depth (Nat.lt_succ_self depth)) (within_scanValue fuel depth)
          fuel fuel' rest hrest hrest
    rcases Line.front_cases (c := '\x7b') (by decide) (by decide) cs with
      ⟨rest, rfl, heq⟩ | ⟨hobject, hobject'⟩
    · have hrest := hroom.suffix (List.suffix_cons '\x7b' rest)
      rw [heq, scanValue.eq_def, scanValue.eq_def]
      cases depth with
      | zero => exact agree_tooDeep .object
      | succ depth =>
        exact agree_scanObject (ih depth (Nat.lt_succ_self depth)) (within_scanValue fuel depth)
          fuel fuel' rest hrest hrest
    · rw [scanValue_scalar hquote harray hobject, scanValue_scalar hquote' harray' hobject']
      exact agree_scanScalar cs

/-- Folding the terminators of a document changes nothing that is read; where the document is
refused it is refused as well, and for the range of a number if it was so before. -/
theorem read_unify (cs : List Char) (half : StandIn) :
    (∃ v, read .exact cs half = .ok v ∧ read .exact (unify cs) half = .ok v) ∨
      ∃ fault fault', read .exact cs half = .error fault ∧
        read .exact (unify cs) half = .error fault' ∧
        (fault = .numberRange ↔ fault' = .numberRange) := by
  rcases Line.front_cases (c := '\ufeff') (by decide) (by decide) cs with
    ⟨rest, rfl, heq⟩ | ⟨hmark, hmark'⟩
  · rw [heq]
    exact .inr ⟨_, _, rfl, rfl, iff_of_false Fault.noConfusion Fault.noConfusion⟩
  have hstart : ∀ ds : List Char, (∀ rest, ds ≠ '\ufeff' :: rest) → ds.head? ≠ some '\ufeff' := by
    intro ds hds hhead
    cases ds with
    | nil => cases hhead
    | cons c rest =>
      cases hhead
      exact hds rest rfl
  rw [read, read, if_neg (hstart cs hmark), if_neg (hstart _ hmark'), skipBlanks_unify]
  have hroom : Room (cs.length + 1) ((unify cs).length + 1) cs :=
    ⟨Nat.lt_succ_self _, Nat.lt_succ_self _⟩
  have hagree : Agree (scanValue half .exact _ _ _) _ :=
    agree_scanValue _ _ maxDepth _ (hroom.suffix (skipBlanks_suffix cs))
  rcases hagree.cases with ⟨v, left, hscan, hscan'⟩ | ⟨fault, fault', hscan, hscan', hrange⟩
  · rw [hscan, hscan']
    simp only [bind, Except.bind, skipBlanks_unify]
    cases skipBlanks left with
    | nil => exact .inl ⟨v, rfl, rfl⟩
    | cons c rest =>
      obtain ⟨d, after, heq⟩ := Line.exists_unify_cons c rest
      rw [heq]
      exact .inr ⟨_, _, rfl, rfl, iff_of_false Fault.noConfusion Fault.noConfusion⟩
  · rw [hscan, hscan']
    exact .inr ⟨fault, fault', rfl, rfl, hrange⟩

end JavaRender.Json
