import JavaRender.Proofs.Json.Written
import Mathlib.Data.List.Forall2

/-!
Objects as a document writes them: members with their names, a comma between two of them. Main
statement: an object is read as its members if the value of each is spelled by its text.
-/
namespace JavaRender.Json

variable {half : StandIn}

def IsPlain (c : Char) : Prop := c ≠ '"' ∧ c ≠ '\\' ∧ 0x20 ≤ c.toNat

def quoted (cs : List Char) : List Char := '"' :: (cs ++ ['"'])

def memberText (entry : String × List Char) : List Char :=
  quoted entry.1.toList ++ ':' :: ' ' :: entry.2

def membersText : List (String × List Char) → List Char
  | [] => []
  | [entry] => memberText entry
  | entry :: rest => memberText entry ++ ',' :: ' ' :: membersText rest

def objectText (entries : List (String × List Char)) : List Char :=
  '\x7b' :: (membersText entries ++ ['\x7d'])

theorem skipBlanks_of_not {c : Char} (hc : isBlank c = false) (rest : List Char) :
    skipBlanks (c :: rest) = c :: rest :=
  List.dropWhile_cons_of_neg (by rw [hc]; exact Bool.false_ne_true)

theorem skipBlanks_space (rest : List Char) : skipBlanks (' ' :: rest) = skipBlanks rest :=
  List.dropWhile_cons_of_pos rfl

theorem scanString_plain {cs : List Char} (h : ∀ c ∈ cs, IsPlain c) (start rest : List Char) :
    scanString half start (cs ++ '"' :: rest) = .ok (cs, rest) := by
  induction cs with
  | nil => rw [List.nil_append, scanString]
  | cons c others ih =>
    obtain ⟨hquote, hback, hcontrol⟩ := h c List.mem_cons_self
    have hothers := ih fun d hd => h d (List.mem_cons_of_mem c hd)
    rw [List.cons_append, scanString, if_neg (Nat.not_lt.mpr hcontrol), hothers]
    · rfl
    · exact hquote
    · exact hback

/-- A text that is read as a value wherever the value may end behind it. -/
structure Spells (text : List Char) (v : Json) : Prop where
  front : ∃ c others, text = c :: others ∧ isBlank c = false
  scan : ∀ {half : StandIn} {rest : List Char}, Follows rest → ∀ fuel depth,
    scanValue half .exact fuel depth (text ++ rest) = .ok (v, rest)

theorem Spells.skipBlanks {text : List Char} {v : Json} (h : Spells text v) (rest : List Char) :
    skipBlanks (text ++ rest) = text ++ rest := by
  obtain ⟨c, others, rfl, hc⟩ := h.front
  exact skipBlanks_of_not hc _

theorem spells_number {w : Written} (hrange : w.value.inRange = true) :
    Spells w.chars (.number w.value) where
  front := by
    obtain ⟨c, others, hmagnitude, hc⟩ := w.exists_digit
    rw [Written.chars, Written.signChars, hmagnitude]
    cases w.negative with
    | true => exact ⟨'-', c :: others, rfl, rfl⟩
    | false =>
      refine ⟨c, others, rfl, ?_⟩
      rw [isBlank]
      by_contra hblank
      simp only [Bool.not_eq_false, Bool.or_eq_true, decide_eq_true_iff] at hblank
      rcases hblank with ((rfl | rfl) | rfl) | rfl <;> exact absurd hc (by decide)
  scan := w.scanValue_chars hrange

/-- A number may stand in a string as it is. -/
theorem Written.plain (w : Written) : ∀ c ∈ w.chars, IsPlain c := by
  have hmarks : ∀ c ∈ ['-', '+', '.', 'e', 'E'], IsPlain c := by simp [IsPlain]
  intro c hc
  rcases w.mem_chars hc with hdigit | hmark
  · have hrange := Numeral.digit_bounds hdigit
    refine ⟨?_, ?_, by omega⟩
    · rintro rfl
      exact absurd hdigit (by decide)
    · rintro rfl
      exact absurd hdigit (by decide)
  · exact hmarks c hmark

theorem spells_string {cs : List Char} (h : ∀ c ∈ cs, IsPlain c) :
    Spells (quoted cs) (.string (String.ofList cs)) where
  front := ⟨'"', _, rfl, rfl⟩
  scan _ fuel depth := by
    rw [quoted, List.cons_append, List.append_assoc, scanValue, List.singleton_append,
      scanString_plain h]
    rfl

theorem spells_text {s : String} (h : ∀ c ∈ s.toList, IsPlain c) :
    Spells (quoted s.toList) (.string s) := by
  have hspells := spells_string h
  rwa [String.ofList_toList] at hspells

structure Entry (entry : String × List Char) (member : String × Json) : Prop where
  name : member.1 = entry.1
  plain : ∀ c ∈ entry.1.toList, IsPlain c
  value : Spells entry.2 member.2

section Members

variable {fuel depth : Nat} {entry : String × List Char} {member : String × Json}
  {entries : List (String × List Char)} {members : List (String × Json)} {rest : List Char}

theorem scanMember_text (h : Entry entry member) (hrest : Follows rest) :
    scanMember half (scanValue half .exact fuel depth) (memberText entry ++ rest) =
      .ok (member, rest) := by
  have htext : memberText entry ++ rest =
      '"' :: (entry.1.toList ++ '"' :: ':' :: ' ' :: (entry.2 ++ rest)) := by
    simp [memberText, quoted]
  rw [htext, scanMember, scanString_plain h.plain]
  simp only [bind, Except.bind]
  rw [skipBlanks_of_not rfl]
  simp only [skipBlanks_space, h.value.skipBlanks, h.value.scan hrest]
  rw [String.ofList_toList, ← h.name]

/-- No blank stands in front of the members. -/
theorem skipBlanks_members (hmember : entries ≠ []) (rest : List Char) :
    skipBlanks (membersText entries ++ rest) = membersText entries ++ rest := by
  cases entries with
  | nil => exact absurd rfl hmember
  | cons entry others =>
    cases others <;> exact skipBlanks_of_not rfl _

/-- Members are read one after another, by induction on the list. -/
theorem scanMembers_text (h : List.Forall₂ Entry entries members) (hne : entries ≠ [])
    (hfuel : entries.length ≤ fuel) {bound : Nat} :
    scanMembers half (scanValue half .exact bound depth) fuel
      (membersText entries ++ '\x7d' :: rest) = .ok (members, rest) := by
  induction h generalizing fuel with
  | nil => exact absurd rfl hne
  | @cons entry member others values hentry hothers ih =>
    obtain ⟨fuel, rfl⟩ : ∃ smaller, fuel = smaller + 1 := Nat.exists_eq_succ_of_ne_zero (by
      rw [List.length_cons] at hfuel
      omega)
    cases hothers with
    | nil =>
      have hclose : Follows ('\x7d' :: rest) := follows_cons (by decide) rest
      rw [membersText, lists_scanMembers.more, scanMember_text hentry hclose]
      simp only [bind, Except.bind]
      rw [skipBlanks_of_not rfl, afterElement, if_pos rfl]
    | @cons second value more values hsecond hmore =>
      have hrest := ih (List.cons_ne_nil _ _) (Nat.le_of_succ_le_succ hfuel)
      have hcomma : ∀ after, Follows (',' :: after) := follows_cons (by decide)
      have hfront := fun after => skipBlanks_members (List.cons_ne_nil second more) after
      rw [membersText, List.append_assoc, List.cons_append, List.cons_append,
        lists_scanMembers.more, scanMember_text hentry (hcomma _)]
      · simp only [bind, Except.bind]
        rw [skipBlanks_of_not rfl, afterElement, if_neg (by decide), if_pos rfl]
        rw [skipBlanks_space, hfront, hrest]
        rfl
      · exact List.cons_ne_nil _ _

theorem length_membersText (entries : List (String × List Char)) :
    entries.length ≤ (membersText entries).length := by
  induction entries with
  | nil => exact Nat.zero_le _
  | cons entry others ih =>
    cases others with
    | nil => exact Nat.le_add_left 1 _
    | cons second more =>
      rw [membersText]
      · rw [List.length_append, List.length_cons (a := ','), List.length_cons (a := ' '),
          List.length_cons (a := entry)]
        omega
      · exact List.cons_ne_nil second more

/-- An object is read as its members. -/
theorem read_objectText (h : List.Forall₂ Entry entries members) (hne : entries ≠ []) :
    read .exact (objectText entries) half = .ok (.object members) := by
  have hstart : (objectText entries).head? ≠ some '\ufeff' := by
    rw [objectText, List.head?_cons]
    decide
  have hfuel : entries.length ≤ (objectText entries).length + 1 := by
    have hlength := length_membersText entries
    rw [objectText, List.length_cons, List.length_append]
    omega
  have hmembers : ∀ depth,
      scanMembers half (scanValue half .exact ((objectText entries).length + 1) depth)
        ((objectText entries).length + 1) (membersText entries ++ ['\x7d']) = .ok (members, []) :=
    fun depth => scanMembers_text h hne hfuel
  obtain ⟨c, others, hfront, hc⟩ : ∃ c others, membersText entries ++ ['\x7d'] = c :: others ∧
      c ≠ '\x7d' := by
    cases entries with
    | nil => exact absurd rfl hne
    | cons entry rest => cases rest <;> exact ⟨'"', _, rfl, by decide⟩
  rw [read, if_neg hstart]
  have hblank : skipBlanks (objectText entries) = objectText entries := skipBlanks_of_not rfl _
  rw [hblank]
  have hvalue : scanValue half .exact ((objectText entries).length + 1) maxDepth
      (objectText entries) = .ok (.object members, []) := by
    generalize (objectText entries).length + 1 = fuel at hmembers ⊢
    rw [objectText, maxDepth, scanValue, scanObject_eq, skipBlanks_members hne, hfront, bracketed,
      if_neg hc, ← hfront, hmembers]
    rfl
  rw [hvalue]
  rfl

end Members

end JavaRender.Json
