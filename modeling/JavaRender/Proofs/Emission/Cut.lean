import JavaRender.Proofs.Emission.Refusal

/-!
One refused write in the middle of a rendering. Up to that write a rendering does the same as with a
sink that refuses none; the refusal ends it, and the refusal of a write that it never makes changes
nothing.
-/
namespace JavaRender.Emission

open JavaRender.Tree (Fault)

inductive Rendering where
  | visit
  | emit
deriving DecidableEq, Repr

namespace Rendering

def run : Rendering → Tree → Render Unit
  | visit => Emitter.visit
  | emit => Emitter.emit

/-- The level that a rendering starts from and leaves: that of the emitter, or zero. -/
def baseLevel : Rendering → Int → Int
  | visit, level => level
  | emit, _ => 0

/-- All emitters of one terminator and one level play the same events. -/
theorem run_script (r : Rendering) (t : Tree) (terminator : String) (level : Int) :
    ∃ events outcome, ∀ e : Emitter, e.terminator = terminator → e.level = level →
      r.run t e = playTo outcome events { e with level := r.baseLevel level } := by
  cases r with
  | visit =>
    obtain ⟨events, outcome, hplays⟩ := Scripted.visit t terminator level
    refine ⟨events, outcome, fun e hterminator hlevel => ?_⟩
    subst hlevel
    exact hplays e hterminator rfl
  | emit =>
    obtain ⟨events, outcome, hscript⟩ := emit_script t terminator
    exact ⟨events, outcome, fun e hterminator _ => hscript e hterminator⟩

end Rendering

/-- An emitter whose sink refuses one of the writes to come, counted from zero, or none. -/
def refusing (e : Emitter) (n : Option Nat) : Emitter :=
  { e with sink := { e.sink with failAt := n.map (e.sink.attempts + ·) } }

section Playing

variable {outcome : Except Fault Unit} {events : List Event} {e : Emitter}

/-- Events that are spared by the sink come to their own outcome. -/
theorem playTo_spared (h : Spares e.sink (fragments events).length) :
    playTo outcome events e = (outcome, { e with
      sink := taken e.sink (fragments events), notices := e.notices ++ notices events }) := by
  rw [playTo, play_spared events e h]

/-- The events up to a refused write, which is the last one tried. -/
theorem playTo_refused {n : Nat} (hfail : e.sink.failAt = some (e.sink.attempts + n))
    (hn : n < (fragments events).length) :
    (playTo outcome events e).1 = .error .sinkFull ∧
      (playTo outcome events e).2.sink =
        ⟨e.sink.written ++ ((fragments events).take n).toArray, e.sink.attempts + n + 1,
          some (e.sink.attempts + n)⟩ ∧
      (playTo outcome events e).2.level = e.level := by
  have hframe := (play_frame events e).1
  obtain ⟨herror, hsink⟩ := play_refused events e hfail (by omega) (by omega)
  have hindex : e.sink.attempts + n - e.sink.attempts = n := by omega
  rw [hindex] at hsink
  rw [playTo]
  rcases hplay : play events e with ⟨result, after⟩
  rw [hplay] at herror hsink hframe
  subst herror
  exact ⟨rfl, hsink, hframe⟩

end Playing

/-- Whatever a rendering is given, it makes the same writes against every sink. If the sink refuses
one of them, the rendering ends in the fault of the sink: the writes before have arrived, no other
is tried and the level is back. If the sink refuses a later one, nothing changes at all. -/
theorem refused_write_cuts (r : Rendering) (t : Tree) (e : Emitter) :
    let free := r.run t (refusing e none)
    ∃ writes : List String,
      free.2.sink = taken (refusing e none).sink writes ∧
      ∀ n : Nat,
        let cut := r.run t (refusing e (some n))
        (n < writes.length →
          cut.1 = .error .sinkFull ∧
          cut.2.sink = ⟨e.sink.written ++ (writes.take n).toArray, e.sink.attempts + n + 1,
            some (e.sink.attempts + n)⟩ ∧
          cut.2.level = r.baseLevel e.level) ∧
        (writes.length ≤ n →
          cut = (free.1, { free.2 with
            sink := { free.2.sink with failAt := some (e.sink.attempts + n) } })) := by
  intro free
  obtain ⟨events, outcome, hscript⟩ := r.run_script t e.terminator e.level
  have hnone : Spares (refusing e none).sink (fragments events).length := by
    intro n hn
    cases hn
  have hfree : free = (outcome, { refusing e none with
      level := r.baseLevel e.level, sink := taken (refusing e none).sink (fragments events),
      notices := e.notices ++ notices events }) :=
    (hscript (refusing e none) rfl rfl).trans (playTo_spared hnone)
  refine ⟨fragments events, by rw [hfree], fun n => ⟨fun hn => ?_, fun hn => ?_⟩⟩
  · rw [hscript (refusing e (some n)) rfl rfl]
    exact playTo_refused rfl hn
  · -- the refused write lies behind the last one that is made
    have hspares : Spares (refusing e (some n)).sink (fragments events).length := by
      intro k hk
      cases hk
      exact .inr (Nat.add_le_add_left hn _)
    rw [hscript (refusing e (some n)) rfl rfl, hfree]
    exact playTo_spared hspares

end JavaRender.Emission
