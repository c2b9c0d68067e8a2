import JavaRender.Proofs.Decoding.Phrase

/-!
Texts that are cut in one way only. In front of a closing parenthesis stands the parenthesis that it
closes, and no other; a text without points is cut off at the last point; and a list with commas
between its parts has no other parts, as long as no word of a part ends in a comma.
-/
namespace JavaRender.Decoding

open Scan

/-- Parentheses that are never closed before they are opened, with anything between them. -/
def matched : Brackets where
  opening := '('
  closing := ')'
  sheltered := [')']
  distinct := by decide
  known := rfl

/-- A text that closes the parentheses that it opens, and no others. -/
def Matched (s : String) : Prop := Steady matched 0 s.toList

section Parentheses

variable {front front' inner inner' middle rest : List Char}

/-- Where blanks are let in as well, a text passes all the more. -/
theorem passes_matched {s s' : State} {text : List Char} (h : Passes parens s text s') :
    Passes matched s text s' := by
  induction h with
  | nil s => exact .nil s
  | cons hc _ ih =>
    have hshelter : ∀ c ∈ matched.sheltered, c ∈ parens.sheltered :=
      fun _ hc => List.mem_cons.mpr (.inl (List.mem_singleton.mp hc))
    exact .cons ⟨hc.1, hc.2.1, fun hmode hmem => hc.2.2 hmode (hshelter _ hmem)⟩ ih

theorem Solid.matched {s : String} (h : Solid s) : Matched s :=
  fun depth hdepth => passes_matched (h depth hdepth)

theorem matched_intercalate {separator : String}
    (hseparator : separator.toList.all (!matched.special.contains ·) = true) {parts : List String}
    (h : ∀ s ∈ parts, Matched s) : Matched (separator.intercalate parts) :=
  Steady.text_intercalate (Steady.plain (notMem_of_all hseparator)) h

/-- Between two parentheses that are both open at the end, not all is closed that is opened: what
stands behind the first would close it. -/
theorem not_matched_between (hfront : Steady matched 0 front)
    (hopened : Steady matched 0 (front ++ '(' :: middle)) :
    ¬ Steady matched 0 (middle ++ rest) := by
  intro h
  have hclosed := (hopened 0 (Int.le_refl 0)).split.2
  rw [(hfront 0 (Int.le_refl 0)).scan_eq] at hclosed
  have hmiddle := (h 0 (Int.le_refl 0)).split.1
  have hdepth := hmiddle.depth_nonneg (by decide) (Int.le_refl 0)
  cases hclosed with
  | cons _ hothers =>
    have hlevel := congrArg State.depth (hmiddle.raise.scan_eq.symm.trans hothers.scan_eq)
    simp only at hlevel
    omega

/-- The parenthesis that is still open can be in one place only. -/
theorem opening_unique (hfront : Steady matched 0 front) (hfront' : Steady matched 0 front')
    (hinner : Steady matched 0 inner) (hinner' : Steady matched 0 inner')
    (h : front ++ '(' :: inner = front' ++ '(' :: inner') : front = front' ∧ inner = inner' := by
  rcases List.append_eq_append_iff.mp h with ⟨middle, hlonger, hrest⟩ | ⟨middle, hlonger, hrest⟩
  · cases middle with
    | nil => exact ⟨by rw [hlonger, List.append_nil], (List.cons.inj hrest).2⟩
    | cons c others =>
      obtain ⟨rfl, rfl⟩ := List.cons.inj hrest
      exact absurd hinner (not_matched_between hfront (hlonger ▸ hfront'))
  · cases middle with
    | nil => exact ⟨by rw [hlonger, List.append_nil], (List.cons.inj hrest).2.symm⟩
    | cons c others =>
      obtain ⟨rfl, rfl⟩ := List.cons.inj hrest
      exact absurd hinner' (not_matched_between hfront' (hlonger ▸ hfront))

/-- A text that ends in a closing parenthesis is cut in one way at the one that it closes. -/
theorem enclosed_unique {s s' t t' : String} (hs : Matched s) (hs' : Matched s') (ht : Matched t)
    (ht' : Matched t') (h : s ++ "(" ++ t ++ ")" = s' ++ "(" ++ t' ++ ")") : s = s' ∧ t = t' := by
  have hopen : ∀ u v : String, (u ++ "(" ++ v).toList = u.toList ++ '(' :: v.toList := by
    intro u v
    simp
  have hchars := congrArg String.toList ((String.append_left_inj ")").mp h)
  rw [hopen, hopen] at hchars
  obtain ⟨hfront, hinner⟩ := opening_unique hs hs' ht ht' hchars
  exact ⟨String.toList_inj.mp hfront, String.toList_inj.mp hinner⟩

end Parentheses

/-- A text is cut in one way only at the last character of a kind. -/
theorem cut_last_unique {c : Char} {front front' last last' : List Char} (hlast : c ∉ last)
    (hlast' : c ∉ last') (h : front ++ c :: last = front' ++ c :: last') :
    front = front' ∧ last = last' := by
  have hreversed := congrArg List.reverse h
  simp only [List.reverse_append, List.reverse_cons, List.append_assoc, List.singleton_append]
    at hreversed
  obtain ⟨hback, hrest⟩ := cut_unique (mt List.mem_reverse.mp hlast)
    (mt List.mem_reverse.mp hlast') hreversed
  exact ⟨List.reverse_inj.mp hrest, List.reverse_inj.mp hback⟩

/-- A word of an expression: it is cut nowhere, and it does not end in a comma. -/
structure Word (w : String) : Prop where
  solid : Solid w
  closed : ∃ c ∈ w.toList.getLast?, c ≠ ','

def listed : List String → List String
  | [] => []
  | [w] => [w ++ ","]
  | w :: v :: rest => w :: listed (v :: rest)

def row : List (List String) → List String
  | [] => []
  | [words] => words
  | words :: next :: rest => listed words ++ row (next :: rest)

section Rows

variable {words words' rest rest' : List String} {parts parts' : List (List String)}

theorem Word.ne_empty {w : String} (h : Word w) : w ≠ "" := by
  rintro rfl
  obtain ⟨c, hc, -⟩ := h.closed
  exact absurd hc (by simp)

theorem not_word_comma (w : String) : ¬ Word (w ++ ",") := by
  intro h
  obtain ⟨c, hc, hcomma⟩ := h.closed
  simp at hc
  exact hcomma hc.symm

theorem listed_append (hne : words ≠ []) (hrest : rest ≠ []) :
    " ".intercalate (listed words ++ rest) =
      " ".intercalate words ++ ", " ++ " ".intercalate rest := by
  have hcomma : ", " = "," ++ " " := by decide
  induction words with
  | nil => exact absurd rfl hne
  | cons w others ih =>
    cases others with
    | nil =>
      obtain ⟨v, tail, rfl⟩ := List.exists_cons_of_ne_nil hrest
      simp only [listed, List.singleton_append, String.intercalate_cons_cons,
        String.intercalate_singleton, hcomma, String.append_assoc]
    | cons v others =>
      have hothers := ih (List.cons_ne_nil v others)
      obtain ⟨x, tail, hx⟩ := List.exists_cons_of_ne_nil
        (List.append_ne_nil_of_right_ne_nil (listed (v :: others)) hrest)
      rw [listed, List.cons_append, hx, String.intercalate_cons_cons, ← hx, hothers,
        String.intercalate_cons_cons]
      simp only [String.append_assoc]

/-- The comma shows where the words of a part end. -/
theorem listed_unique (h : ∀ w ∈ words, Word w) (h' : ∀ w ∈ words', Word w) (hne : words ≠ [])
    (hne' : words' ≠ []) (heq : listed words ++ rest = listed words' ++ rest') :
    words = words' ∧ rest = rest' := by
  induction words generalizing words' with
  | nil => exact absurd rfl hne
  | cons w others ih =>
    obtain ⟨w', others', rfl⟩ := List.exists_cons_of_ne_nil hne'
    have hw := h w List.mem_cons_self
    have hw' := h' w' List.mem_cons_self
    cases others with
    | nil =>
      cases others' with
      | nil =>
        obtain ⟨hword, hrest⟩ := List.cons.inj heq
        exact ⟨by rw [(String.append_left_inj ",").mp hword], hrest⟩
      | cons v' tail' => exact absurd ((List.cons.inj heq).1 ▸ hw') (not_word_comma w)
    | cons v tail =>
      cases others' with
      | nil => exact absurd ((List.cons.inj heq).1 ▸ hw) (not_word_comma w')
      | cons v' tail' =>
        obtain ⟨rfl, hothers⟩ := List.cons.inj heq
        obtain ⟨hsame, hrest⟩ := ih (fun w hmem => h w (List.mem_cons_of_mem _ hmem))
          (fun w hmem => h' w (List.mem_cons_of_mem _ hmem)) (List.cons_ne_nil v tail)
          (List.cons_ne_nil v' tail') hothers
        exact ⟨by rw [hsame], hrest⟩

theorem exists_comma (hne : words ≠ []) : ∃ w, w ++ "," ∈ listed words := by
  induction words with
  | nil => exact absurd rfl hne
  | cons w others ih =>
    cases others with
    | nil => exact ⟨w, List.mem_singleton_self _⟩
    | cons v tail =>
      obtain ⟨u, hu⟩ := ih (List.cons_ne_nil v tail)
      exact ⟨u, List.mem_cons_of_mem w hu⟩

def Parts (parts : List (List String)) : Prop :=
  ∀ words ∈ parts, words ≠ [] ∧ ∀ w ∈ words, Word w

theorem Parts.tail (h : Parts (words :: parts)) : Parts parts :=
  fun other hother => h other (List.mem_cons_of_mem words hother)

theorem Parts.row_ne_nil (h : Parts parts) (hne : parts ≠ []) : row parts ≠ [] := by
  obtain ⟨words, others, rfl⟩ := List.exists_cons_of_ne_nil hne
  obtain ⟨hwords, -⟩ := h words List.mem_cons_self
  cases others with
  | nil => exact hwords
  | cons next others =>
    obtain ⟨w, hw⟩ := exists_comma hwords
    exact List.append_ne_nil_of_left_ne_nil (List.ne_nil_of_mem hw) _

/-- The text of some parts with commas between them is the text of their words. -/
theorem Parts.joined (h : Parts parts) :
    ", ".intercalate (parts.map (" ".intercalate ·)) = " ".intercalate (row parts) := by
  induction parts with
  | nil => rfl
  | cons words others ih =>
    cases others with
    | nil => exact String.intercalate_singleton
    | cons next others =>
      have hrow := h.tail.row_ne_nil (List.cons_ne_nil next others)
      rw [List.map_cons, List.map_cons, String.intercalate_cons_cons, ← List.map_cons, ih h.tail,
        row, listed_append (h words List.mem_cons_self).1 hrow]

/-- A comma makes no word empty and cuts none. -/
theorem solid_listed (h : ∀ w ∈ words, Word w) : ∀ w ∈ listed words, Solid w ∧ w ≠ "" := by
  have hcomma : Solid "," := Steady.unmarked (notMem_of_all rfl)
  induction words with
  | nil => exact fun w hw => absurd hw List.not_mem_nil
  | cons v others ih =>
    have hv := h v List.mem_cons_self
    cases others with
    | nil =>
      intro w hw
      rw [List.mem_singleton.mp hw]
      exact ⟨hv.solid.append hcomma, by simp⟩
    | cons next others =>
      intro w hw
      rcases List.mem_cons.mp hw with rfl | hw
      · exact ⟨hv.solid, hv.ne_empty⟩
      · exact ih (fun w hmem => h w (List.mem_cons_of_mem _ hmem)) w hw

theorem Parts.solid (h : Parts parts) : ∀ w ∈ row parts, Solid w ∧ w ≠ "" := by
  induction parts with
  | nil => exact fun w hw => absurd hw List.not_mem_nil
  | cons words others ih =>
    have hwords := (h words List.mem_cons_self).2
    cases others with
    | nil => exact fun w hw => ⟨(hwords w hw).solid, (hwords w hw).ne_empty⟩
    | cons next others =>
      intro w hw
      rcases List.mem_append.mp hw with hw | hw
      · exact solid_listed hwords w hw
      · exact ih h.tail w hw

/-- The words of one part have no comma that shows another. -/
theorem ne_row (h : ∀ w ∈ words, Word w) (hne' : words' ≠ []) (next : List String) :
    words ≠ row (words' :: next :: parts) := by
  rintro rfl
  obtain ⟨w, hw⟩ := exists_comma hne'
  exact absurd (h (w ++ ",") (List.mem_append_left _ hw)) (not_word_comma w)

/-- A row of words has no other parts. -/
theorem row_unique (h : Parts parts) (h' : Parts parts') (heq : row parts = row parts') :
    parts = parts' := by
  induction parts generalizing parts' with
  | nil =>
    cases parts' with
    | nil => rfl
    | cons words' others' => exact absurd heq.symm (h'.row_ne_nil (List.cons_ne_nil _ _))
  | cons words others ih =>
    obtain ⟨hne, hwords⟩ := h words List.mem_cons_self
    cases parts' with
    | nil => exact absurd heq (h.row_ne_nil (List.cons_ne_nil _ _))
    | cons words' others' =>
      obtain ⟨hne', hwords'⟩ := h' words' List.mem_cons_self
      cases others with
      | nil =>
        cases others' with
        | nil => exact congrArg ([·]) heq
        | cons next' tail' => exact absurd heq (ne_row hwords hne' next')
      | cons next tail =>
        cases others' with
        | nil => exact absurd heq.symm (ne_row hwords' hne next)
        | cons next' tail' =>
          obtain ⟨hsame, hrest⟩ := listed_unique hwords hwords' hne hne' heq
          rw [hsame, ih h.tail h'.tail hrest]

theorem Parts.joined_ne_empty (h : Parts parts) (hne : parts ≠ []) :
    " ".intercalate (row parts) ≠ "" := by
  obtain ⟨w, others, hrow⟩ := List.exists_cons_of_ne_nil (h.row_ne_nil hne)
  have hw := (h.solid w (hrow ▸ List.mem_cons_self)).2
  rw [hrow]
  cases others with
  | nil => rwa [String.intercalate_singleton]
  | cons v others => simp [String.intercalate_cons_cons]

/-- A text of parts with commas between them has no other parts. -/
theorem parts_unique (h : Parts parts) (h' : Parts parts')
    (heq : ", ".intercalate (parts.map (" ".intercalate ·)) =
      ", ".intercalate (parts'.map (" ".intercalate ·))) : parts = parts' := by
  rw [h.joined, h'.joined] at heq
  by_cases hne : parts = []
  · by_cases hne' : parts' = []
    · rw [hne, hne']
    · subst hne
      exact absurd heq.symm (h'.joined_ne_empty hne')
  · by_cases hne' : parts' = []
    · subst hne'
      exact absurd heq (h.joined_ne_empty hne)
    · exact row_unique h h' (words_unique (fun w hw => (h.solid w hw).1)
        (fun w hw => (h'.solid w hw).1) (h.row_ne_nil hne) (h'.row_ne_nil hne') heq)

end Rows

end JavaRender.Decoding
