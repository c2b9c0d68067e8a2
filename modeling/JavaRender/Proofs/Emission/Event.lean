import JavaRender.Emitter.Session

/-!
What an emitter does to the outside, as a list of events: writes of fragments and notices. Playing
events stops at the first write that the sink refuses and never touches level or terminator.
A rendering that plays the same events from every emitter of one terminator and one level is
described by them whatever its sink does; such renderings compose.
-/
namespace JavaRender.Emission

open JavaRender.Tree (Fault)

inductive Event where
  | fragment (s : String)
  | notice (n : Notice)
deriving DecidableEq, Repr

def fragments : List Event → List String
  | [] => []
  | .fragment s :: rest => s :: fragments rest
  | .notice _ :: rest => fragments rest

def notices : List Event → List Notice
  | [] => []
  | .fragment _ :: rest => notices rest
  | .notice n :: rest => n :: notices rest

theorem fragments_append (first second : List Event) :
    fragments (first ++ second) = fragments first ++ fragments second := by
  induction first with
  | nil => rfl
  | cons event rest ih => cases event <;> simp only [List.cons_append, fragments, ih]

theorem notices_append (first second : List Event) :
    notices (first ++ second) = notices first ++ notices second := by
  induction first with
  | nil => rfl
  | cons event rest ih => cases event <;> simp only [List.cons_append, notices, ih]

theorem fragments_map_notice (ns : List Notice) : fragments (ns.map .notice) = [] := by
  induction ns with
  | nil => rfl
  | cons n rest ih => exact ih

theorem notices_map_notice (ns : List Notice) : notices (ns.map .notice) = ns := by
  induction ns with
  | nil => rfl
  | cons n rest ih => simp only [List.map_cons, notices, ih]

def play : List Event → Emitter → Except Fault Unit × Emitter
  | [], e => (.ok (), e)
  | .fragment s :: rest, e =>
    match Emitter.write s e with
    | (.ok _, after) => play rest after
    | (.error fault, after) => (.error fault, after)
  | .notice n :: rest, e => play rest { e with notices := e.notices ++ [n] }

def playTo {α : Type} (outcome : Except Fault α) (events : List Event) (e : Emitter) :
    Except Fault α × Emitter :=
  match play events e with
  | (.ok _, after) => (outcome, after)
  | (.error fault, after) => (.error fault, after)

/-- A write changes the sink only. -/
theorem write_eq (s : String) (e : Emitter) :
    Emitter.write s e = ((Sink.take s e.sink).1, { e with sink := (Sink.take s e.sink).2 }) := rfl

theorem play_frame (events : List Event) (e : Emitter) :
    (play events e).2.level = e.level ∧ (play events e).2.terminator = e.terminator := by
  induction events generalizing e with
  | nil => exact ⟨rfl, rfl⟩
  | cons event rest ih =>
    cases event with
    | notice n =>
      have h := ih { e with notices := e.notices ++ [n] }
      exact h
    | fragment s =>
      rw [play, write_eq]
      cases (Sink.take s e.sink).1 with
      | error fault => exact ⟨rfl, rfl⟩
      | ok _ =>
        have h := ih { e with sink := (Sink.take s e.sink).2 }
        exact h

theorem playTo_snd {α : Type} (outcome : Except Fault α) (events : List Event) (e : Emitter) :
    (playTo outcome events e).2 = (play events e).2 := by
  rw [playTo]
  rcases play events e with ⟨r, after⟩
  cases r <;> rfl

theorem play_append (first second : List Event) (e : Emitter) :
    play (first ++ second) e =
      match play first e with
      | (.ok _, after) => play second after
      | (.error fault, after) => (.error fault, after) := by
  induction first generalizing e with
  | nil => rfl
  | cons event rest ih =>
    cases event with
    | notice n => exact ih { e with notices := e.notices ++ [n] }
    | fragment s =>
      rw [List.cons_append, play, play, write_eq]
      cases (Sink.take s e.sink).1 with
      | error fault => rfl
      | ok _ => exact ih { e with sink := (Sink.take s e.sink).2 }

theorem play_map_notice (ns : List Notice) (e : Emitter) :
    play (ns.map .notice) e = (.ok (), { e with notices := e.notices ++ ns }) := by
  induction ns generalizing e with
  | nil => simp only [List.map_nil, play, List.append_nil]
  | cons n rest ih =>
    rw [List.map_cons, play, ih]
    simp only [List.append_assoc, List.cons_append, List.nil_append]

/-- Events do not read the level. -/
theorem play_setLevel (events : List Event) (e : Emitter) (level : Int) :
    play events { e with level } =
      ((play events e).1, { (play events e).2 with level }) := by
  induction events generalizing e with
  | nil => rfl
  | cons event rest ih =>
    cases event with
    | notice n => exact ih { e with notices := e.notices ++ [n] }
    | fragment s =>
      rw [play, play, write_eq, write_eq]
      cases (Sink.take s e.sink).1 with
      | error fault => rfl
      | ok _ => exact ih { e with sink := (Sink.take s e.sink).2 }

/-- Of two computations in a row the second starts where the first ends without a fault. -/
theorem bind_apply {σ α β : Type} (m : ExceptT Fault (StateM σ) α)
    (f : α → ExceptT Fault (StateM σ) β) (s : σ) :
    (m >>= f) s =
      match m s with
      | (.ok a, after) => f a after
      | (.error fault, after) => (.error fault, after) := by
  change (match m s with | (r, after) => ExceptT.bindCont f r after) = _
  rcases m s with ⟨r, after⟩
  cases r <;> rfl

/-- From every emitter of the given terminator and level, a rendering plays the given events and
ends in the given outcome, unless a write is refused. -/
def Plays {α : Type} (m : Render α) (terminator : String) (level : Int) (events : List Event)
    (outcome : Except Fault α) : Prop :=
  ∀ e : Emitter, e.terminator = terminator → e.level = level → m e = playTo outcome events e

namespace Plays

variable {α β : Type} {terminator : String} {level : Int} {first second : List Event}

theorem pure (a : α) : Plays (pure a : Render α) terminator level [] (.ok a) :=
  fun _ _ _ => rfl

theorem lift (r : Except Fault α) : Plays (liftM r : Render α) terminator level [] r :=
  fun _ _ _ => rfl

theorem throw (fault : Fault) :
    Plays (throw fault : Render α) terminator level [] (.error fault) :=
  fun _ _ _ => rfl

theorem write (s : String) :
    Plays (Emitter.write s) terminator level [.fragment s] (.ok ()) := by
  intro e _ _
  rw [playTo, play, write_eq]
  cases (Sink.take s e.sink).1 with
  | error fault => rfl
  | ok _ => rfl

/-- The events of two renderings in a row are appended. -/
theorem bind {m : Render α} {f : α → Render β} {a : α} {outcome : Except Fault β}
    (hm : Plays m terminator level first (.ok a))
    (hf : Plays (f a) terminator level second outcome) :
    Plays (m >>= f) terminator level (first ++ second) outcome := by
  intro e hterminator hlevel
  have hframe := play_frame first e
  rw [bind_apply, hm e hterminator hlevel]
  simp only [playTo, play_append]
  rcases hplay : play first e with ⟨r, after⟩
  rw [hplay] at hframe
  cases r with
  | error fault => rfl
  | ok _ => exact hf after (hframe.2.trans hterminator) (hframe.1.trans hlevel)

/-- What follows an error is not begun. -/
theorem bind_error {m : Render α} (f : α → Render β) {fault : Fault}
    (hm : Plays m terminator level first (.error fault)) :
    Plays (m >>= f) terminator level first (.error fault) := by
  intro e hterminator hlevel
  rw [bind_apply, hm e hterminator hlevel]
  simp only [playTo]
  rcases play first e with ⟨r, after⟩
  cases r <;> rfl

theorem note (n : Notice) :
    Plays (modify fun e => { e with notices := e.notices ++ [n] } : Render Unit) terminator level
      [.notice n] (.ok ()) :=
  fun _ _ _ => rfl

theorem newline : Plays Emitter.newline terminator level [.fragment terminator] (.ok ()) := by
  intro e hterminator hlevel
  subst hterminator
  exact write e.terminator e rfl hlevel

/-- The write that stands for the blanks in front of a line, if there is one. -/
theorem indentLine :
    Plays Emitter.indentLine terminator level
      (if level = 0 then [] else
        [.fragment (String.join (List.replicate level.toNat Emitter.indentation))]) (.ok ()) := by
  intro e hterminator hlevel
  subst hlevel
  change (if e.level = 0 then Pure.pure () else
    Emitter.write (String.join (List.replicate e.level.toNat Emitter.indentation)) : Render Unit) e
      = _
  by_cases hzero : e.level = 0
  · rw [if_pos hzero, if_pos hzero]
    rfl
  · rw [if_neg hzero, if_neg hzero]
    exact write _ e hterminator rfl

/-- A body plays its events one level deeper than the block around it stands. -/
theorem block {body : Render α} {outcome : Except Fault α}
    (h : Plays body terminator (level + 1) first outcome) :
    Plays (Emitter.block body) terminator level first outcome := by
  intro e hterminator hlevel
  have hbody := h { e with level := e.level + 1 } hterminator (by rw [← hlevel])
  have hframe := (play_frame first e).1
  change (((body { e with level := e.level + 1 })).1,
    { (body { e with level := e.level + 1 }).2 with
      level := (body { e with level := e.level + 1 }).2.level - 1 }) = _
  rw [hbody]
  simp only [playTo, play_setLevel]
  rcases hplay : play first e with ⟨r, after⟩
  rw [hplay] at hframe
  have hafter : after.level = e.level := hframe
  have hback : e.level + 1 - 1 = after.level := by omega
  cases r <;> simp only [hback]

end Plays

def Scripted {α : Type} (m : Render α) : Prop :=
  ∀ terminator level, ∃ events outcome, Plays m terminator level events outcome

namespace Scripted

variable {α β : Type}

/-- A scripted rendering leaves level and terminator as they are, however it ends. -/
theorem frame {m : Render α} (h : Scripted m) (e : Emitter) :
    (m e).2.level = e.level ∧ (m e).2.terminator = e.terminator := by
  obtain ⟨events, outcome, hplays⟩ := h e.terminator e.level
  rw [hplays e rfl rfl, playTo_snd]
  exact play_frame events e

theorem pure (a : α) : Scripted (pure a : Render α) :=
  fun _ _ => ⟨_, _, Plays.pure a⟩

theorem lift (r : Except Fault α) : Scripted (liftM r : Render α) :=
  fun _ _ => ⟨_, _, Plays.lift r⟩

theorem throw (fault : Fault) : Scripted (throw fault : Render α) :=
  fun _ _ => ⟨_, _, Plays.throw fault⟩

theorem write (s : String) : Scripted (Emitter.write s) :=
  fun _ _ => ⟨_, _, Plays.write s⟩

theorem note (n : Notice) :
    Scripted (modify fun e => { e with notices := e.notices ++ [n] } : Render Unit) :=
  fun _ _ => ⟨_, _, Plays.note n⟩

theorem newline : Scripted Emitter.newline :=
  fun _ _ => ⟨_, _, Plays.newline⟩

theorem indentLine : Scripted Emitter.indentLine :=
  fun _ _ => ⟨_, _, Plays.indentLine⟩

theorem bind {m : Render α} {f : α → Render β} (hm : Scripted m) (hf : ∀ a, Scripted (f a)) :
    Scripted (m >>= f) := by
  intro terminator level
  obtain ⟨first, outcome, hfirst⟩ := hm terminator level
  cases outcome with
  | error fault => exact ⟨first, .error fault, Plays.bind_error f hfirst⟩
  | ok a =>
    obtain ⟨second, outcome, hsecond⟩ := hf a terminator level
    exact ⟨first ++ second, outcome, hfirst.bind hsecond⟩

theorem line (fragment : Except Fault String) : Scripted (Emitter.line fragment) :=
  indentLine.bind fun _ => (lift fragment).bind write

theorem block {body : Render α} (h : Scripted body) : Scripted (Emitter.block body) := by
  intro terminator level
  obtain ⟨events, outcome, hbody⟩ := h terminator (level + 1)
  exact ⟨events, outcome, hbody.block⟩

end Scripted

end JavaRender.Emission
