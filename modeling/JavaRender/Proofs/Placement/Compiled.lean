import JavaRender.Proofs.Json.Range
import JavaRender.Proofs.Placement.Rendering

/-!
Compiling whole documents; main statements: every document compiles or ends in a declared error,
but for numbers out of range and accesses among fields, and a document compiles exactly when each
node of its tree stands where it is rendered. Some nodes are rendered where they do not belong.
-/
namespace JavaRender

open Emission

def CompileError.Declared : CompileError → Prop
  | .load (.refused _) => True
  | .load .numberRange => False
  | .tree fault => IsMalformed fault

namespace Document

theorem outOfRange_of_load {text : List Char} (h : load text = .error .numberRange) :
    ∃ rest, rest <:+ text ∧ Json.OutOfRange rest := by
  unfold load parse sourceOf at h
  cases hread : Json.read .exact text with
  | error fault =>
    rw [hread] at h
    cases fault with
    | numberRange => exact Json.outOfRange_of_read hread
    | _ => cases h
  | ok v =>
    rw [hread] at h
    -- what comes after reading only ends in refusals
    cases hnode : nodeOf v with
    | error refusal =>
      simp only [bind, Except.bind, Except.mapError, hnode] at h
      cases h
    | ok node =>
      simp only [bind, Except.bind, Except.mapError, hnode] at h
      cases node <;> cases h

end Document

theorem compile_eq (text terminator : String) :
    compile text terminator =
      match Document.load text.toList with
      | .error e => .error (.load e)
      | .ok node => (render node terminator).1.mapError .tree := by
  unfold compile
  cases Document.load text.toList <;> rfl

/-- Compiling ends in a text or in a declared error, unless a number is out of range or an access
stands among fields. -/
theorem compile_outcome (text terminator : String) :
    (∃ java, compile text terminator = .ok java) ∨
      ∃ e, compile text terminator = .error e ∧
        (e.Declared ∨
          e = .load .numberRange ∧ (∃ rest, rest <:+ text.toList ∧ Json.OutOfRange rest) ∨
          e = .tree Node.fieldAccessFault ∧
            ∃ node, Document.load text.toList = .ok node ∧ node.HasFieldAccess) := by
  rw [compile_eq]
  cases hload : Document.load text.toList with
  | error e =>
    refine .inr ⟨_, rfl, ?_⟩
    cases e with
    | refused refusal => exact .inl trivial
    | numberRange => exact .inr (.inl ⟨rfl, Document.outOfRange_of_load hload⟩)
  | ok node =>
    have hverdict := node.render_verdict terminator
    dsimp only
    cases hrender : (render node terminator).1 with
    | ok java => exact .inl ⟨java, rfl⟩
    | error fault =>
      rw [hrender] at hverdict
      refine .inr ⟨_, rfl, ?_⟩
      rcases hverdict.2 with hmalformed | ⟨rfl, haccess⟩
      · exact .inl hmalformed
      · exact .inr (.inr ⟨rfl, node, rfl, haccess⟩)

def hugeExponent : String := "1e1000000000000000000"

def accessField : String :=
  "\x7b\"_type\": \"Source\", \"methods\": [], \"fields\": [\x7b\"_type\": \"Access\", " ++
    "\"variable\": \x7b\"name\": \"x\", \"type\": \"Integer\"\x7d\x7d]\x7d"

theorem compile_undeclared :
    (compile hugeExponent "\n" = .error (.load .numberRange) ∧
      ¬ CompileError.Declared (.load .numberRange)) ∧
    (compile accessField "\n" = .error (.tree Node.fieldAccessFault) ∧
      ¬ CompileError.Declared (.tree Node.fieldAccessFault)) := by
  refine ⟨⟨by decide +kernel, id⟩, by decide +kernel, ?_⟩
  rintro ⟨owner, slot, problem, h⟩
  cases h

/-- A document compiles exactly when every node of its tree stands in a place where it is rendered
and every method has a name for each parameter type. -/
theorem compile_ok_iff (text terminator : String) :
    (∃ java, compile text terminator = .ok java) ↔
      ∃ node, Document.load text.toList = .ok node ∧ node.Renderable := by
  rw [compile_eq]
  cases hload : Document.load text.toList with
  | error e => exact iff_of_false (fun ⟨_, h⟩ => nomatch h) fun ⟨_, h, _⟩ => nomatch h
  | ok node =>
    have hverdict := node.render_verdict terminator
    have hnode : (∃ n, (.ok node : Except Document.LoadError Node) = .ok n ∧ n.Renderable) ↔
        node.Renderable := by
      simp only [Except.ok.injEq, exists_eq_left']
    rw [hnode]
    dsimp only
    cases hrender : (render node terminator).1 with
    | ok java =>
      rw [hrender] at hverdict
      exact iff_of_true ⟨java, rfl⟩ hverdict.1
    | error fault =>
      rw [hrender] at hverdict
      exact iff_of_false (fun ⟨_, h⟩ => nomatch h) hverdict.1

def bareLiterals : String :=
  "\x7b\"_type\":\"Source\",\"fields\":[],\"methods\":[\x7b\"_type\":\"Method\"," ++
    "\"function\":\x7b\"name\":\"f\",\"return_type\":\"Nil\"\x7d,\"parameters\":[]," ++
    "\"statements\":[\x7b\"_type\":\"Literal\",\"kind\":\"NIL\"\x7d," ++
    "\x7b\"_type\":\"Literal\",\"kind\":\"NIL\"\x7d]\x7d]\x7d"

def bareLiteralsJava : String :=
  "public class Main \x7b\n" ++
    "    public static void main(String[] args) \x7b\n" ++
    "        System.exit(new Main().main());\n    \x7d\n\n" ++
    "    Void f() \x7b\nnullnull    \x7d\n\x7d"

theorem bareLiterals_compiles :
    compile bareLiterals "\n" = .ok bareLiteralsJava ∧
      ∃ node, Document.load bareLiterals.toList = .ok node ∧ ¬ node.WellPlaced := by
  have hchecked : (Document.load bareLiterals.toList).toOption.any (fun node =>
      decide ((render node "\n").1 = .ok bareLiteralsJava ∧ ¬ node.WellPlaced)) = true := by
    decide +kernel
  rw [compile_eq]
  cases hload : Document.load bareLiterals.toList with
  | error e =>
    rw [hload] at hchecked
    cases hchecked
  | ok node =>
    rw [hload] at hchecked
    obtain ⟨hrender, hmisplaced⟩ := of_decide_eq_true hchecked
    dsimp only
    rw [hrender]
    exact ⟨rfl, node, rfl, hmisplaced⟩

end JavaRender
