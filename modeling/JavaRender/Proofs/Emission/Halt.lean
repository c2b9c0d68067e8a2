import JavaRender.Proofs.Emission.Print

/-!
Renderings that end in a fault. What they have written by then is known as one text. A check that
fails has written nothing; whatever is printed before a rendering that halts stands in front of its
text, and nothing comes behind it.
-/
namespace JavaRender.Emission

open JavaRender.Tree (Fault)

def Fails {α : Type} (text : Noting α) (fault : Fault) : Prop :=
  ∃ ns, Notes text ns (.error fault)

namespace Fails

variable {α β : Type} {fault : Fault}

/-- What follows a fault is not begun. -/
theorem bind {m : Noting α} {f : α → Noting β} (h : Fails m fault) : Fails (m >>= f) fault := by
  obtain ⟨ns, hnotes⟩ := h
  exact ⟨ns, Notes.bind_error f hnotes⟩

theorem lift_bind {r : Except Fault α} {f : α → Noting β} (hr : r = .error fault) :
    Fails ((liftM r : Noting α) >>= f) fault :=
  bind ⟨[], hr ▸ Notes.lift r⟩

theorem of_check {r : Except Fault α} {f : α → Noting β} {a : α} (hr : r = .ok a)
    (hf : Fails (f a) fault) : Fails ((liftM r : Noting α) >>= f) fault := by
  subst hr
  exact hf

theorem of_notes {m : Noting α} {f : α → Noting β} {a : α} {ns : List Notice}
    (hm : Notes m ns (.ok a)) (hf : Fails (f a) fault) : Fails (m >>= f) fault := by
  obtain ⟨ns', hnotes⟩ := hf
  exact ⟨ns ++ ns', hm.bind hnotes⟩

end Fails

/-- A rendering that writes fragments that make up a text and then ends in a fault. -/
def Halts {α : Type} (m : Render α) (terminator : String) (level : Nat) (fault : Fault)
    (text : String) : Prop :=
  ∃ events, Plays m terminator level events (.error fault) ∧
    String.join (fragments events) = text

namespace Halts

variable {α β : Type} {terminator text text' : String} {level : Nat} {fault : Fault}

theorem bind {m : Render α} {f : α → Render β} (h : Halts m terminator level fault text) :
    Halts (m >>= f) terminator level fault text := by
  obtain ⟨events, hplays, htext⟩ := h
  exact ⟨events, Plays.bind_error f hplays, htext⟩

theorem lift_bind {r : Except Fault α} {f : α → Render β} (hr : r = .error fault) :
    Halts ((liftM r : Render α) >>= f) terminator level fault "" :=
  bind ⟨[], hr ▸ Plays.lift r, rfl⟩

theorem of_check {r : Except Fault α} {f : α → Render β} {a : α} (hr : r = .ok a)
    (hf : Halts (f a) terminator level fault text) :
    Halts ((liftM r : Render α) >>= f) terminator level fault text := by
  subst hr
  exact hf

theorem noting_bind {t : Noting α} {f : α → Render β} (ht : Fails t fault) :
    Halts (Emitter.noting t >>= f) terminator level fault "" := by
  obtain ⟨ns, hnotes⟩ := ht
  exact bind ⟨_, hnotes.plays terminator level, by rw [fragments_map_notice]; rfl⟩

/-- What is printed before stands in front. -/
theorem of_prints {m : Render α} {f : α → Render β} {a : α} {ns : List Notice}
    (hm : Prints m terminator level a text ns) (hf : Halts (f a) terminator level fault text') :
    Halts (m >>= f) terminator level fault (text ++ text') := by
  obtain ⟨first, hfirst, htext, -⟩ := hm
  obtain ⟨second, hsecond, htext'⟩ := hf
  refine ⟨first ++ second, hfirst.bind hsecond, ?_⟩
  rw [fragments_append, String.join_append, htext, htext']

/-- Notices are not written. -/
theorem of_noting {t : Noting α} {f : α → Render β} {a : α} {ns : List Notice}
    (ht : Notes t ns (.ok a)) (hf : Halts (f a) terminator level fault text) :
    Halts (Emitter.noting t >>= f) terminator level fault text := by
  have hnoting : Prints (Emitter.noting t) terminator level a "" ns :=
    ⟨_, ht.plays terminator level, by rw [fragments_map_notice]; rfl, notices_map_notice ns⟩
  have h := of_prints hnoting hf
  rwa [String.empty_append] at h

theorem block {body : Render α} (h : Halts body terminator (level + 1) fault text) :
    Halts (Emitter.block body) terminator level fault text := by
  obtain ⟨events, hplays, htext⟩ := h
  exact ⟨events, Plays.block hplays, htext⟩

theorem congr {m : Render α} (h : Halts m terminator level fault text) (htext : text = text') :
    Halts m terminator level fault text' :=
  htext ▸ h

/-- An emitter of its own holds the text when a rendering has halted. -/
theorem fresh {m : Render α} (h : Halts m terminator level fault text) :
    ∃ after : Emitter, m { terminator, level } = (.error fault, after) ∧
      after.sink.text = text := by
  obtain ⟨events, hplays, htext⟩ := h
  have hplay := play_spared events { terminator, level } (spares_of_none rfl _)
  have hrun := hplays { terminator, level } rfl rfl
  rw [playTo, hplay] at hrun
  exact ⟨_, hrun, (text_taken _).trans htext⟩

end Halts

end JavaRender.Emission
