import JavaRender.Proofs.Emission.Refusal

/-!
Computations that decide a condition: they succeed exactly when it holds, and otherwise end in one
of the faults that are expected. Of two such computations in a row both conditions have to hold.
Emitters are looked at with a sink that takes every write.
-/
namespace JavaRender.Emission

open JavaRender.Tree (Fault)

/-- The end of a computation that is to succeed exactly when `good` holds: a value that meets
`post`, or a fault that meets `bad`. -/
def Verdict {α : Type} (good : Prop) (bad : Fault → Prop) (post : α → Prop) :
    Except Fault α → Prop
  | .ok a => good ∧ post a
  | .error fault => ¬ good ∧ bad fault

/-- From every state that meets `inv` a computation comes to a verdict and `inv` still holds. -/
def Decides {σ α : Type} (inv : σ → Prop) (m : ExceptT Fault (StateM σ) α) (good : Prop)
    (bad : Fault → Prop) (post : α → Prop) : Prop :=
  ∀ s, inv s → inv (m s).2 ∧ Verdict good bad post (m s).1

def Reliable (e : Emitter) : Prop := e.sink.failAt = none

def anything {α : Type} (_ : α) : Prop := True

theorem Verdict.congr {α : Type} {good good' : Prop} {bad : Fault → Prop} {post post' : α → Prop}
    {r : Except Fault α} (h : Verdict good bad post r) (hgood : good ↔ good')
    (hpost : ∀ a, post a → post' a) : Verdict good' bad post' r := by
  cases r with
  | ok a => exact ⟨hgood.mp h.1, hpost a h.2⟩
  | error fault => exact ⟨fun hg => h.1 (hgood.mpr hg), h.2⟩

theorem Verdict.bind {α β : Type} {good good' : Prop} {bad : Fault → Prop} {post : α → Prop}
    {post' : β → Prop} {r : Except Fault α} {f : α → Except Fault β} (hr : Verdict good bad post r)
    (hf : ∀ a, post a → Verdict good' bad post' (f a)) :
    Verdict (good ∧ good') bad post' (r >>= f) := by
  cases r with
  | error fault => exact ⟨fun hg => hr.1 hg.1, hr.2⟩
  | ok a => exact (hf a hr.2).congr (and_iff_right hr.1).symm fun _ hp => hp

namespace Decides

variable {σ α β : Type} {inv : σ → Prop} {good good' : Prop} {bad : Fault → Prop}
  {post : α → Prop} {post' : β → Prop}

theorem pure {a : α} (h : post a) :
    Decides inv (pure a : ExceptT Fault (StateM σ) α) True bad post :=
  fun _ hs => ⟨hs, trivial, h⟩

theorem lift {r : Except Fault α} (h : Verdict good bad post r) :
    Decides inv (liftM r : ExceptT Fault (StateM σ) α) good bad post :=
  fun _ hs => ⟨hs, h⟩

theorem throw {fault : Fault} (h : bad fault) :
    Decides inv (throw fault : ExceptT Fault (StateM σ) α) False bad post :=
  fun _ hs => ⟨hs, not_false, h⟩

/-- A computation that does nothing but fail decides what does not hold. -/
theorem refused {m : ExceptT Fault (StateM σ) α} {fault : Fault}
    (hrun : ∀ s, m s = (.error fault, s)) (hfault : bad fault) (hgood : ¬ good) :
    Decides inv m good bad post := by
  intro s hs
  rw [hrun]
  exact ⟨hs, hgood, hfault⟩

theorem congr {m : ExceptT Fault (StateM σ) α} (h : Decides inv m good bad post)
    (hgood : good ↔ good') : Decides inv m good' bad post :=
  fun s hs => ⟨(h s hs).1, (h s hs).2.congr hgood fun _ hp => hp⟩

theorem weaken {m : ExceptT Fault (StateM σ) α} {post' : α → Prop} (h : Decides inv m good bad post)
    (hpost : ∀ a, post a → post' a) : Decides inv m good bad post' :=
  fun s hs => ⟨(h s hs).1, (h s hs).2.congr Iff.rfl hpost⟩

/-- Where the condition holds no fault is to be expected, and so any. -/
theorem certain {m : ExceptT Fault (StateM σ) α} {bad' : Fault → Prop}
    (h : Decides inv m good bad post) (hgood : good) : Decides inv m True bad' post := by
  intro s hs
  obtain ⟨hinv, hverdict⟩ := h s hs
  refine ⟨hinv, ?_⟩
  cases hrun : (m s).1 with
  | ok a =>
    rw [hrun] at hverdict
    exact ⟨trivial, hverdict.2⟩
  | error fault =>
    rw [hrun] at hverdict
    exact absurd hgood hverdict.1

/-- What a computation decides holds where it succeeds. -/
theorem holds {m : ExceptT Fault (StateM σ) α} {s : σ} {a : α} (h : Decides inv m good bad post)
    (hs : inv s) (hrun : (m s).1 = .ok a) : good := by
  have hverdict := (h s hs).2
  rw [hrun] at hverdict
  exact hverdict.1

/-- Both of two computations in a row have to succeed. -/
theorem bind {m : ExceptT Fault (StateM σ) α} {f : α → ExceptT Fault (StateM σ) β}
    (hm : Decides inv m good bad post) (hf : ∀ a, post a → Decides inv (f a) good' bad post') :
    Decides inv (m >>= f) (good ∧ good') bad post' := by
  intro s hs
  obtain ⟨hinv, hverdict⟩ := hm s hs
  rw [bind_apply]
  rcases hrun : m s with ⟨r, after⟩
  rw [hrun] at hinv hverdict
  cases r with
  | error fault => exact ⟨hinv, fun hg => hverdict.1 hg.1, hverdict.2⟩
  | ok a =>
    obtain ⟨hafter, hnext⟩ := hf a hverdict.2 after hinv
    exact ⟨hafter, hnext.congr (and_iff_right hverdict.1).symm fun _ hp => hp⟩

/-- A first computation that always succeeds decides nothing. -/
theorem skip {m : ExceptT Fault (StateM σ) α} {f : α → ExceptT Fault (StateM σ) β}
    (hm : Decides inv m True bad post) (hf : ∀ a, post a → Decides inv (f a) good bad post') :
    Decides inv (m >>= f) good bad post' :=
  (hm.bind hf).congr (and_iff_right trivial)

/-- A check that passes decides nothing. -/
theorem lift_bind {r : Except Fault α} {f : α → ExceptT Fault (StateM σ) β} {a : α} (hr : r = .ok a)
    (hf : Decides inv (f a) good bad post') :
    Decides inv ((liftM r : ExceptT Fault (StateM σ) α) >>= f) good bad post' := by
  subst hr
  exact hf

/-- A check of something that `good` includes may stand in front. -/
theorem check {r : Except Fault α} {m : ExceptT Fault (StateM σ) β}
    (hr : Verdict good bad post r) (himplied : good' → good)
    (hm : good → Decides inv m good' bad post') :
    Decides inv ((liftM r : ExceptT Fault (StateM σ) α) >>= fun _ => m) good' bad post' := by
  cases r with
  | ok a => exact hm hr.1
  | error fault => exact fun s hs => ⟨hs, fun hg => hr.1 (himplied hg), hr.2⟩

/-- A rendering that plays its events to the end wants nothing but a sink that takes them. -/
theorem of_plays {m : Render Unit}
    (h : ∀ terminator level, ∃ events, Plays m terminator level events (.ok ())) :
    Decides Reliable m True bad anything := by
  intro e he
  obtain ⟨events, hplays⟩ := h e.terminator e.level
  rw [hplays e rfl rfl, playTo, play_spared events e (spares_of_none he _)]
  exact ⟨he, trivial, trivial⟩

theorem write (s : String) : Decides Reliable (Emitter.write s) True bad anything :=
  of_plays fun _ _ => ⟨_, Plays.write s⟩

theorem newline : Decides Reliable Emitter.newline True bad anything :=
  of_plays fun _ _ => ⟨_, Plays.newline⟩

theorem indentLine : Decides Reliable Emitter.indentLine True bad anything :=
  of_plays fun _ _ => ⟨_, Plays.indentLine⟩

/-- A line is written when there is a text for it. -/
theorem line {fragment : Except Fault String} (h : Verdict good bad anything fragment) :
    Decides Reliable (Emitter.line fragment) good bad anything :=
  indentLine.skip fun _ _ => ((lift h).bind fun s _ => write s).congr (and_iff_left trivial)

theorem fullLine {fragment : Except Fault String} (h : Verdict good bad anything fragment) :
    Decides Reliable (Emitter.line fragment >>= fun _ => Emitter.newline) good bad anything :=
  ((line h).bind fun _ _ => newline).congr (and_iff_left trivial)

/-- A block decides what its body decides. -/
theorem block {body : Render Unit} (h : Decides Reliable body good bad anything) :
    Decides Reliable (Emitter.block body) good bad anything :=
  fun e he => h { e with level := e.level + 1 } he

/-- The notices of an emitter play no part in a decision. -/
theorem noting {text : Noting α} (h : Decides anything text good bad post) :
    Decides Reliable (Emitter.noting text) good bad post :=
  fun e he => ⟨he, (h e.notices trivial).2⟩

end Decides

end JavaRender.Emission
