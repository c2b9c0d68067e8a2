import JavaRender.Proofs.Json.Numeral

/-!
Scanners read their text from the front and leave a part at its end; main statement: a document is
refused for the range of a number only if such a numeral stands in its text.
-/
namespace JavaRender.Json

/-- How a scanner may end on a text: it leaves a part at the end of the text, or it fails, for the
range of a number only if a numeral out of range stands in the text. -/
def Within {α : Type} (cs : List Char) : Result (α × List Char) → Prop
  | .ok (_, left) => left <:+ cs
  | .error fault => fault = .numberRange → ∃ rest, rest <:+ cs ∧ OutOfRange rest

variable {half : StandIn}

section Within

variable {α β : Type} {cs left : List Char}

theorem within_flawed (flaw : Flaw) (place : Nat) :
    Within cs (.error (.flawed flaw place) : Result (α × List Char)) :=
  fun h => nomatch h

theorem Within.mono {r : Result (α × List Char)} (h : Within left r) (hleft : left <:+ cs) :
    Within cs r := by
  cases r with
  | ok found => exact h.trans hleft
  | error fault =>
    intro hfault
    obtain ⟨rest, hrest, hrange⟩ := h hfault
    exact ⟨rest, hrest.trans hleft, hrange⟩

theorem Within.map {r : Result (α × List Char)} (h : Within cs r) (f : α → β) :
    Within cs (r.map fun (a, left) => (f a, left)) := by
  cases r with
  | ok found => exact h
  | error fault => exact h

/-- The next scanner takes up what the first one leaves. -/
theorem Within.bind {r : Result (α × List Char)} (h : Within cs r)
    {f : α × List Char → Result (β × List Char)} (hf : ∀ a left, Within left (f (a, left))) :
    Within cs (r >>= f) := by
  cases r with
  | ok found => exact (hf found.1 found.2).mono h
  | error fault => exact h

/-- What was read may be put together with what was read before. -/
theorem Within.bind_ok {r : Result (α × List Char)} (h : Within cs r) (f : α → β) :
    Within cs (r >>= fun (a, left) => .ok (f a, left)) :=
  h.bind fun _ left => List.suffix_refl left

end Within

theorem skipBlanks_suffix (cs : List Char) : skipBlanks cs <:+ cs := List.dropWhile_suffix _

/-- What stands behind the blanks and one more character. -/
theorem suffix_of_skipBlanks {c : Char} {cs left : List Char} (h : skipBlanks cs = c :: left) :
    left <:+ cs :=
  (List.suffix_cons c left).trans (h ▸ skipBlanks_suffix cs)

theorem scanUnits_error {hex tail : List Char} {fault : Fault}
    (h : scanUnits hex tail = .error fault) : ∃ place, fault = .flawed .hexEscape place := by
  unfold scanUnits at h
  repeat' split at h
  all_goals cases h
  all_goals exact ⟨_, rfl⟩

theorem Within.push {cs : List Char} {r : Result (List Char × List Char)} (h : Within cs r)
    (c : Char) : Within cs (push c r) :=
  h.map (c :: ·)

theorem within_scanString (start cs : List Char) : Within cs (scanString half start cs) := by
  fun_induction scanString half start cs with
  | case2 rest => exact List.suffix_cons _ rest
  | case4 a b c d tail fault hunits =>
    obtain ⟨place, rfl⟩ := scanUnits_error hunits
    exact within_flawed _ _
  | case5 a b c d tail n hunits ih => exact (ih.mono ⟨['\\', 'u', a, b, c, d], rfl⟩).push _
  | case6 a b c d n low e f g h i j more hunits ih =>
    -- two escapes that make one character
    exact (ih.mono ⟨['\\', 'u', a, b, c, d, e, f, g, h, i, j], rfl⟩).push _
  | case10 c tail _ _ x _ ih => exact (ih.mono ⟨['\\', c], rfl⟩).push x
  | case12 c rest _ _ _ ih => exact (ih.mono (List.suffix_cons c rest)).push c
  | _ => exact within_flawed _ _

theorem within_scanScalar (cs : List Char) : Within cs (scanScalar .exact cs) := by
  unfold scanScalar
  split
  · next found hfound =>
    obtain ⟨⟨word, v⟩, -, hword⟩ := List.exists_of_findSome?_eq_some hfound
    dsimp only at hword
    split at hword
    · cases hword
      exact List.drop_suffix _ _
    · cases hword
  · split
    · exact within_flawed _ _
    · next numeral hnumeral =>
      cases hvalue : ofNumeral .exact numeral with
      | ok v => exact scanNumeral_left hnumeral
      | error fault =>
        obtain ⟨-, hrange⟩ := outOfRange_of_error hnumeral hvalue
        exact fun _ => ⟨cs, List.suffix_refl cs, hrange⟩

section Elements

variable {α : Type}

def afterElement (close : Char) (elements : List Char → Result (List α × List Char)) (a : α) :
    List Char → Result (List α × List Char)
  | [] => .error (.flawed .comma 0)
  | c :: left =>
    if c = close then .ok ([a], left)
    else if c = ',' then do
      let (as, left) ← elements (skipBlanks left)
      .ok (a :: as, left)
    else .error (.flawed .comma (left.length + 1))

def bracketed (close : Char) (elements : List Char → Result (List α × List Char))
    (make : List α → Json) : List Char → Result (Json × List Char)
  | [] => do
    let (as, left) ← elements []
    .ok (make as, left)
  | c :: left =>
    if c = close then .ok (make [], left)
    else do
      let (as, left) ← elements (c :: left)
      .ok (make as, left)

structure Lists (close : Char) (element : List Char → Result (α × List Char))
    (elements : Nat → List Char → Result (List α × List Char)) : Prop where
  none : ∀ cs, ∃ flaw place, elements 0 cs = .error (.flawed flaw place)
  more : ∀ fuel cs, elements (fuel + 1) cs =
    element cs >>= fun (a, left) => afterElement close (elements fuel) a (skipBlanks left)

theorem within_afterElement {close : Char} {elements : List Char → Result (List α × List Char)}
    (h : ∀ cs, Within cs (elements cs)) (a : α) (cs : List Char) :
    Within cs (afterElement close elements a cs) := by
  cases cs with
  | nil => exact within_flawed _ _
  | cons c left =>
    rw [afterElement]
    split
    · exact List.suffix_cons c left
    · split
      · have hrest := (h (skipBlanks left)).mono (skipBlanks_suffix left)
        exact (hrest.bind_ok (a :: ·)).mono (List.suffix_cons c left)
      · exact within_flawed _ _

theorem Lists.within {close : Char} {element : List Char → Result (α × List Char)}
    {elements : Nat → List Char → Result (List α × List Char)} (h : Lists close element elements)
    (helement : ∀ cs, Within cs (element cs)) (fuel : Nat) (cs : List Char) :
    Within cs (elements fuel cs) := by
  induction fuel generalizing cs with
  | zero =>
    obtain ⟨flaw, place, hnone⟩ := h.none cs
    rw [hnone]
    exact within_flawed flaw place
  | succ fuel ih =>
    rw [h.more]
    refine (helement cs).bind fun a left => ?_
    exact (within_afterElement ih a _).mono (skipBlanks_suffix left)

theorem within_bracketed {close : Char} {elements : List Char → Result (List α × List Char)}
    (h : ∀ cs, Within cs (elements cs)) (make : List α → Json) (cs : List Char) :
    Within cs (bracketed close elements make cs) := by
  cases cs with
  | nil => exact (h []).bind_ok make
  | cons c left =>
    rw [bracketed]
    split
    · exact List.suffix_cons c left
    · exact (h (c :: left)).bind_ok make

end Elements

section Brackets

variable {item : List Char → Result (Json × List Char)}

theorem lists_scanItems : Lists ']' item (scanItems item) where
  none _ := ⟨_, _, rfl⟩
  more fuel cs := by
    rw [scanItems]
    congr 1
    funext ⟨v, left⟩
    dsimp only
    generalize skipBlanks left = rest
    cases rest with
    | nil => rfl
    | cons c after => split <;> simp_all [afterElement]

theorem scanArray_eq (fuel : Nat) (cs : List Char) :
    scanArray item fuel cs = bracketed ']' (scanItems item fuel) Json.array (skipBlanks cs) := by
  unfold scanArray
  generalize skipBlanks cs = rest
  cases rest with
  | nil => rfl
  | cons c after => split <;> simp_all [bracketed]

theorem lists_scanMembers : Lists '\x7d' (scanMember half item) (scanMembers half item) where
  none _ := ⟨_, _, rfl⟩
  more fuel cs := by
    rw [scanMembers]
    congr 1
    funext ⟨m, left⟩
    dsimp only
    generalize skipBlanks left = rest
    cases rest with
    | nil => rfl
    | cons c after => split <;> simp_all [afterElement]

theorem scanObject_eq (fuel : Nat) (cs : List Char) :
    scanObject half item fuel cs =
      bracketed '\x7d' (scanMembers half item fuel) Json.object (skipBlanks cs) := by
  unfold scanObject
  generalize skipBlanks cs = rest
  cases rest with
  | nil => rfl
  | cons c after => split <;> simp_all [bracketed]

variable (hitem : ∀ cs, Within cs (item cs))
include hitem

theorem within_scanArray (fuel : Nat) (cs : List Char) : Within cs (scanArray item fuel cs) := by
  rw [scanArray_eq]
  exact (within_bracketed (lists_scanItems.within hitem fuel) _ _).mono (skipBlanks_suffix cs)

theorem within_scanMember (cs : List Char) : Within cs (scanMember half item cs) := by
  unfold scanMember
  split
  · next rest =>
    refine ((within_scanString _ rest).bind fun name left => ?_).mono (List.suffix_cons _ _)
    dsimp only
    split
    · next after heq =>
      have hvalue := (hitem (skipBlanks after)).mono (skipBlanks_suffix after)
      exact (hvalue.bind_ok (String.ofList name, ·)).mono (suffix_of_skipBlanks heq)
    · exact within_flawed _ _
  · exact within_flawed _ _

theorem within_scanObject (fuel : Nat) (cs : List Char) :
    Within cs (scanObject half item fuel cs) := by
  rw [scanObject_eq]
  have hlists : Lists '\x7d' (scanMember half item) (scanMembers half item) := lists_scanMembers
  have hmembers := hlists.within (within_scanMember hitem) fuel
  exact (within_bracketed hmembers _ _).mono (skipBlanks_suffix cs)

end Brackets

theorem within_scanValue (fuel depth : Nat) (cs : List Char) :
    Within cs (scanValue half .exact fuel depth cs) := by
  induction depth generalizing cs with
  | zero =>
    unfold scanValue
    split
    · next rest =>
      exact ((within_scanString _ rest).map fun s => Json.string (String.ofList s)).mono
        (List.suffix_cons _ _)
    · exact fun h => nomatch h
    · exact fun h => nomatch h
    · exact within_scanScalar cs
  | succ depth ih =>
    unfold scanValue
    split
    · next rest =>
      exact ((within_scanString _ rest).map fun s => Json.string (String.ofList s)).mono
        (List.suffix_cons _ _)
    · next rest => exact (within_scanArray ih fuel rest).mono (List.suffix_cons _ _)
    · next rest => exact (within_scanObject ih fuel rest).mono (List.suffix_cons _ _)
    · exact within_scanScalar cs

/-- A number out of range is read from a numeral in the text. -/
theorem outOfRange_of_read {cs : List Char} (h : read .exact cs half = .error .numberRange) :
    ∃ rest, rest <:+ cs ∧ OutOfRange rest := by
  unfold read at h
  split at h
  · cases h
  · have hvalue : Within cs (scanValue half .exact (cs.length + 1) maxDepth (skipBlanks cs)) :=
      (within_scanValue _ _ _).mono (skipBlanks_suffix cs)
    cases hscan : scanValue half .exact (cs.length + 1) maxDepth (skipBlanks cs) with
    | error fault =>
      rw [hscan] at h hvalue
      cases h
      exact hvalue rfl
    | ok found =>
      rw [hscan] at h
      simp only [bind, Except.bind] at h
      split at h <;> cases h

end JavaRender.Json
