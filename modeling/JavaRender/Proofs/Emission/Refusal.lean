import JavaRender.Proofs.Emission.Visit

/-!
Playing events against a sink that refuses one write. Where the refused write is none of theirs, all
fragments arrive; where it is, exactly those before it arrive and no further write is tried.
-/
namespace JavaRender.Emission

open JavaRender.Tree (Fault)

/-- The write that a sink refuses is none of the next `count` ones. -/
def Spares (sink : Sink) (count : Nat) : Prop :=
  ∀ n, sink.failAt = some n → n < sink.attempts ∨ sink.attempts + count ≤ n

/-- A sink that refuses nothing spares every write. -/
theorem spares_of_none {sink : Sink} (h : sink.failAt = none) (count : Nat) :
    Spares sink count := by
  intro n hn
  rw [h] at hn
  cases hn

def taken (sink : Sink) (parts : List String) : Sink :=
  ⟨sink.written ++ parts.toArray, sink.attempts + parts.length, sink.failAt⟩

theorem text_taken (parts : List String) : (taken {} parts).text = String.join parts := by
  simp [taken, Sink.text, String.join]

theorem taken_nil (sink : Sink) : taken sink [] = sink := by
  simp only [taken, List.length_nil, Nat.add_zero, Array.append_empty]

theorem taken_cons (sink : Sink) (s : String) (rest : List String) :
    taken (taken sink [s]) rest = taken sink (s :: rest) := by
  have hparts : sink.written ++ #[s] ++ rest.toArray = sink.written ++ (s :: rest).toArray := by
    rw [Array.append_assoc]
    simp
  have hcount : sink.attempts + 1 + rest.length = sink.attempts + (s :: rest).length := by
    rw [List.length_cons]
    omega
  simp only [taken, List.length_singleton, hparts, hcount]

theorem take_spared {sink : Sink} (s : String) (h : sink.failAt ≠ some sink.attempts) :
    Sink.take s sink = (.ok (), taken sink [s]) := by
  rw [Sink.take, if_neg h]
  rfl

theorem take_refused {sink : Sink} (s : String) (h : sink.failAt = some sink.attempts) :
    Sink.take s sink = (.error .sinkFull, { sink with attempts := sink.attempts + 1 }) := by
  rw [Sink.take, if_pos h]

/-- All fragments reach a sink that spares them. -/
theorem play_spared (events : List Event) (e : Emitter)
    (h : Spares e.sink (fragments events).length) :
    play events e =
      (.ok (), { e with
        sink := taken e.sink (fragments events), notices := e.notices ++ notices events }) := by
  induction events generalizing e with
  | nil => simp only [play, fragments, notices, taken_nil, List.append_nil]
  | cons event rest ih =>
    cases event with
    | notice n =>
      rw [play, ih { e with notices := e.notices ++ [n] } h]
      simp only [fragments, notices, List.append_assoc, List.cons_append, List.nil_append]
    | fragment s =>
      have hfirst : e.sink.failAt ≠ some e.sink.attempts := by
        intro hfail
        have := h _ hfail
        simp only [fragments, List.length_cons] at this
        omega
      have hrest : Spares (taken e.sink [s]) (fragments rest).length := by
        intro n hn
        have := h n hn
        simp only [fragments, List.length_cons, taken, List.length_nil] at this ⊢
        omega
      rw [play, write_eq, take_spared s hfirst]
      simp only
      rw [ih { e with sink := taken e.sink [s] } hrest]
      simp only [taken_cons, fragments, notices]

/-- A write in the middle of the events is refused: the fragments before it have arrived and it is
the last one tried. -/
theorem play_refused (events : List Event) (e : Emitter) {n : Nat}
    (hfail : e.sink.failAt = some n) (hstart : e.sink.attempts ≤ n)
    (hstop : n < e.sink.attempts + (fragments events).length) :
    (play events e).1 = .error .sinkFull ∧
      (play events e).2.sink =
        ⟨e.sink.written ++ ((fragments events).take (n - e.sink.attempts)).toArray, n + 1,
          some n⟩ := by
  induction events generalizing e with
  | nil =>
    simp only [fragments, List.length_nil] at hstop
    omega
  | cons event rest ih =>
    cases event with
    | notice note =>
      rw [play]
      exact ih { e with notices := e.notices ++ [note] } hfail hstart hstop
    | fragment s =>
      simp only [fragments, List.length_cons] at hstop
      rw [play, write_eq]
      by_cases hnow : e.sink.attempts = n
      · rw [take_refused s (by rw [hfail, hnow])]
        simp only [hnow, hfail, Nat.sub_self, List.take_zero, Array.append_empty, and_self]
      · rw [take_spared s (by rw [hfail]; simpa using Ne.symm hnow)]
        have hlater := ih { e with sink := taken e.sink [s] } hfail
          (by simp only [taken, List.length_singleton]; omega)
          (by simp only [taken, List.length_singleton]; omega)
        have hindex : n - e.sink.attempts = n - (e.sink.attempts + 1) + 1 := by omega
        simp only [taken, List.length_singleton, fragments] at hlater ⊢
        rw [hindex, List.take_succ_cons]
        refine ⟨hlater.1, hlater.2.trans ?_⟩
        rw [Array.append_assoc]
        simp

end JavaRender.Emission
