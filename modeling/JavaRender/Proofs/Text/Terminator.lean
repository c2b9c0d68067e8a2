import JavaRender.Text.Line

/-!
Folding terminators to line feeds. What holds no terminator is kept, characters behind a terminator
stay in order, and a part of a folded text without a line feed stood there before.
-/
namespace JavaRender.Line

theorem unify_cons {c : Char} (hc : c ≠ '\r') (rest : List Char) :
    unify (c :: rest) = c :: unify rest := by
  rw [unify, if_neg hc]
  intro _ heq
  exact absurd heq hc

/-- A carriage return goes into the line feed behind it or becomes one itself. -/
theorem unify_return (rest : List Char) :
    (∃ others, rest = '\n' :: others ∧ unify ('\r' :: rest) = unify rest) ∨
      unify ('\r' :: rest) = '\n' :: unify rest := by
  by_cases hpair : ∃ others, rest = '\n' :: others
  · obtain ⟨others, rfl⟩ := hpair
    exact .inl ⟨others, rfl, (unify_cons (by decide) others).symm⟩
  · refine .inr ?_
    rw [unify, if_pos rfl]
    intro others _ heq
    exact hpair ⟨others, heq⟩

theorem head_unify_return (rest : List Char) :
    ∃ after, unify ('\r' :: rest) = '\n' :: after := by
  rcases unify_return rest with ⟨others, rfl, heq⟩ | heq
  · exact ⟨unify others, heq.trans (unify_cons (by decide) others)⟩
  · exact ⟨unify rest, heq⟩

/-- A text that is not empty does not become so. -/
theorem exists_unify_cons (c : Char) (rest : List Char) :
    ∃ d after, unify (c :: rest) = d :: after := by
  by_cases hc : c = '\r'
  · subst hc
    exact ⟨'\n', head_unify_return rest⟩
  · exact ⟨c, unify rest, unify_cons hc rest⟩

theorem unify_append {front : List Char} (h : '\r' ∉ front) (rest : List Char) :
    unify (front ++ rest) = front ++ unify rest := by
  induction front with
  | nil => rfl
  | cons c others ih =>
    rw [List.mem_cons, not_or] at h
    rw [List.cons_append, unify_cons (Ne.symm h.1), ih h.2, List.cons_append]

/-- What stands at the front of a folded text and holds no line feed stood at the front before. -/
theorem exists_append {front rest cs : List Char} (h : '\n' ∉ front)
    (hcs : unify cs = front ++ rest) : ∃ left, cs = front ++ left ∧ unify left = rest := by
  induction front generalizing cs with
  | nil => exact ⟨cs, rfl, hcs⟩
  | cons c others ih =>
    rw [List.mem_cons, not_or] at h
    cases cs with
    | nil => cases hcs
    | cons d after =>
      by_cases hd : d = '\r'
      · subst hd
        obtain ⟨folded, hfolded⟩ := head_unify_return after
        rw [hfolded] at hcs
        cases hcs
        exact absurd rfl h.1
      · rw [unify_cons hd, List.cons_append, List.cons.injEq] at hcs
        obtain ⟨rfl, hafter⟩ := hcs
        obtain ⟨left, rfl, hleft⟩ := ih h.2 hafter
        exact ⟨left, rfl, hleft⟩

/-- A character at the front of a folded text stood there before, unless it is a line feed. -/
theorem exists_cons {c : Char} {rest cs : List Char} (hc : c ≠ '\n') (h : unify cs = c :: rest) :
    ∃ left, cs = c :: left ∧ unify left = rest := by
  have hfront : unify cs = [c] ++ rest := h
  exact exists_append (by simpa using hc.symm) hfront

/-- A text and the folded text begin with the same character, or neither begins with it. -/
theorem front_cases {c : Char} (hreturn : c ≠ '\r') (hfeed : c ≠ '\n') (cs : List Char) :
    (∃ rest, cs = c :: rest ∧ unify cs = c :: unify rest) ∨
      (∀ rest, cs ≠ c :: rest) ∧ ∀ rest, unify cs ≠ c :: rest := by
  by_cases hstart : ∃ rest, cs = c :: rest
  · obtain ⟨rest, rfl⟩ := hstart
    exact .inl ⟨rest, rfl, unify_cons hreturn rest⟩
  · refine .inr ⟨fun rest heq => hstart ⟨rest, heq⟩, fun rest heq => ?_⟩
    obtain ⟨left, hleft, -⟩ := exists_cons hfeed heq
    exact hstart ⟨left, hleft⟩

theorem length_unify_tail (c : Char) (rest : List Char) :
    (unify rest).length ≤ (unify (c :: rest)).length := by
  by_cases hc : c = '\r'
  · subst hc
    rcases unify_return rest with ⟨_, -, heq⟩ | heq
    · exact Nat.le_of_eq (congrArg List.length heq.symm)
    · rw [heq]
      exact Nat.le_succ _
  · rw [unify_cons hc]
    exact Nat.le_succ _

/-- The more characters there are, the more are left when the terminators are folded. -/
theorem length_unify_suffix {left cs : List Char} (h : left <:+ cs) :
    (unify left).length ≤ (unify cs).length := by
  obtain ⟨front, rfl⟩ := h
  induction front with
  | nil => exact Nat.le_refl _
  | cons c others ih => exact Nat.le_trans ih (length_unify_tail c (others ++ left))

section Spans

variable {p : Char → Bool}

theorem dropWhile_unify (hp : p '\r' = p '\n') (cs : List Char) :
    (unify cs).dropWhile p = unify (cs.dropWhile p) := by
  fun_induction unify cs with
  | case1 => rfl
  | case2 rest ih =>
    by_cases hbreak : p '\n' = true
    · rw [List.dropWhile_cons_of_pos hbreak, List.dropWhile_cons_of_pos (hp.trans hbreak),
        List.dropWhile_cons_of_pos hbreak, ih]
    · rw [List.dropWhile_cons_of_neg hbreak, List.dropWhile_cons_of_neg (hp ▸ hbreak)]
      rfl
  | case3 c rest hc ih =>
    have hfold : p (if c = '\r' then '\n' else c) = p c := by
      by_cases hreturn : c = '\r'
      · rw [if_pos hreturn, hreturn, hp]
      · rw [if_neg hreturn]
    by_cases hkeep : p c = true
    · rw [List.dropWhile_cons_of_pos (hfold.trans hkeep), List.dropWhile_cons_of_pos hkeep, ih]
    · rw [List.dropWhile_cons_of_neg (hfold ▸ hkeep), List.dropWhile_cons_of_neg hkeep, unify]
      exact hc

theorem takeWhile_unify (hreturn : p '\r' = false) (hfeed : p '\n' = false) (cs : List Char) :
    (unify cs).takeWhile p = cs.takeWhile p := by
  induction cs with
  | nil => rfl
  | cons c rest ih =>
    by_cases hc : c = '\r'
    · subst hc
      obtain ⟨after, hafter⟩ := head_unify_return rest
      rw [hafter, List.takeWhile_cons_of_neg (by simp [hfeed]),
        List.takeWhile_cons_of_neg (by simp [hreturn])]
    · rw [unify_cons hc, List.takeWhile_cons, List.takeWhile_cons, ih]

end Spans

end JavaRender.Line
