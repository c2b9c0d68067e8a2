import JavaRender.Proofs.Emission.Refusal

/-!
Renderings that print a text. What they write is known as one text, together with the notices they
leave; texts of renderings in a row are appended.
-/
namespace JavaRender.Emission

open JavaRender.Tree (Fault)

def indent (level : Nat) : String := String.join (List.replicate level Emitter.indentation)

theorem indent_succ (level : Nat) : indent (level + 1) = indent level ++ "    " := by
  rw [indent, List.replicate_succ', String.join_append]
  rfl

/-- A rendering that succeeds with a value, writes fragments that make up a text and leaves
notices. -/
def Prints {α : Type} (m : Render α) (terminator : String) (level : Nat) (a : α) (text : String)
    (ns : List Notice) : Prop :=
  ∃ events, Plays m terminator level events (.ok a) ∧
    String.join (fragments events) = text ∧ notices events = ns

namespace Prints

variable {α β : Type} {terminator text text' : String} {level : Nat} {ns ns' : List Notice}

theorem pure (a : α) : Prints (pure a : Render α) terminator level a "" [] :=
  ⟨[], Plays.pure a, rfl, rfl⟩

theorem write (s : String) : Prints (Emitter.write s) terminator level () s [] :=
  ⟨_, Plays.write s,
    by simp only [fragments, String.join_cons, String.join_nil, String.append_empty], rfl⟩

theorem newline : Prints Emitter.newline terminator level () terminator [] :=
  ⟨_, Plays.newline,
    by simp only [fragments, String.join_cons, String.join_nil, String.append_empty], rfl⟩

theorem indentLine : Prints Emitter.indentLine terminator level () (indent level) [] := by
  refine ⟨_, Plays.indentLine, ?_, ?_⟩
  · cases level with
    | zero => rfl
    | succ n =>
      have hne : ((n + 1 : Nat) : Int) ≠ 0 := by omega
      rw [if_neg hne]
      simp only [fragments, String.join_cons, String.join_nil, String.append_empty,
        Int.toNat_natCast]
      rfl
  · split <;> rfl

theorem note (n : Notice) :
    Prints (modify fun e => { e with notices := e.notices ++ [n] } : Render Unit) terminator level
      () "" [n] :=
  ⟨_, Plays.note n, rfl, rfl⟩

theorem bind {m : Render α} {f : α → Render β} {a : α} {b : β}
    (hm : Prints m terminator level a text ns) (hf : Prints (f a) terminator level b text' ns') :
    Prints (m >>= f) terminator level b (text ++ text') (ns ++ ns') := by
  obtain ⟨first, hfirst, htext, hnotices⟩ := hm
  obtain ⟨second, hsecond, htext', hnotices'⟩ := hf
  refine ⟨first ++ second, hfirst.bind hsecond, ?_, ?_⟩
  · rw [fragments_append, String.join_append, htext, htext']
  · rw [notices_append, hnotices, hnotices']

/-- A check that passes writes nothing. -/
theorem lift_bind {r : Except Fault α} {f : α → Render β} {a : α} {b : β} (hr : r = .ok a)
    (hf : Prints (f a) terminator level b text ns) :
    Prints ((liftM r : Render α) >>= f) terminator level b text ns := by
  subst hr
  exact hf

/-- An expression is noted before anything of its statement is written. -/
theorem noting_bind {t : Noting α} {f : α → Render β} {a : α} {b : β} (ht : Notes t ns (.ok a))
    (hf : Prints (f a) terminator level b text ns') :
    Prints (Emitter.noting t >>= f) terminator level b text (ns ++ ns') := by
  have hnoting : Prints (Emitter.noting t) terminator level a "" ns :=
    ⟨_, ht.plays terminator level, by rw [fragments_map_notice]; rfl, notices_map_notice ns⟩
  have h := hnoting.bind hf
  rwa [String.empty_append] at h

theorem block {body : Render α} {a : α} (h : Prints body terminator (level + 1) a text ns) :
    Prints (Emitter.block body) terminator level a text ns := by
  obtain ⟨events, hplays, htext, hnotices⟩ := h
  exact ⟨events, Plays.block hplays, htext, hnotices⟩

theorem line {fragment : Except Fault String} {s : String} (h : fragment = .ok s) :
    Prints (Emitter.line fragment) terminator level () (indent level ++ s) [] :=
  indentLine.bind (lift_bind h (write s))

theorem congr {m : Render α} {a : α} (h : Prints m terminator level a text ns)
    (htext : text = text') (hns : ns = ns') : Prints m terminator level a text' ns' := by
  subst htext hns
  exact h

/-- What a rendering prints is what it has written and noted on an emitter of its own. -/
theorem fresh {m : Render α} {a : α} (h : Prints m terminator level a text ns) :
    ∃ after : Emitter, m { terminator, level } = (.ok a, after) ∧ after.sink.text = text ∧
      after.notices = ns := by
  obtain ⟨events, hplays, htext, hnotices⟩ := h
  have hplay := play_spared events { terminator, level } (spares_of_none rfl _)
  have hrun := hplays { terminator, level } rfl rfl
  rw [playTo, hplay] at hrun
  refine ⟨_, hrun, ?_, ?_⟩
  · exact (text_taken _).trans htext
  · rw [← hnotices]
    exact List.nil_append _

end Prints

end JavaRender.Emission
