import Mathlib.Algebra.GroupWithZero.Nat
import Mathlib.Data.List.Basic

/-! Runs of a partial step function that takes an input and shows an output. A run
is kept as the list of its transitions, so that facts about it can mention the
states it went through. -/
namespace Runs

structure Transition (S I O : Type) where
  before : S
  input : I
  output : O
  after : S

variable {S I O : Type} {step : S → I → Option (S × O)}

abbrev Transition.IsStep (step : S → I → Option (S × O)) (t : Transition S I O) : Prop :=
  step t.before t.input = some (t.after, t.output)

inductive Run (step : S → I → Option (S × O)) : S → List (Transition S I O) → S → Prop where
  | nil (s : S) : Run step s [] s
  | cons {s next last : S} {input : I} {output : O} {rest : List (Transition S I O)}
      (hStep : step s input = some (next, output)) (hRest : Run step next rest last) :
      Run step s (⟨s, input, output, next⟩ :: rest) last

def exec (step : S → I → Option (S × O)) (s : S) : List I → Option (List (Transition S I O) × S)
  | [] => some ([], s)
  | input :: inputs =>
    (step s input).bind fun next =>
      (exec step next.1 inputs).map fun rest => (⟨s, input, next.2, next.1⟩ :: rest.1, rest.2)

variable {s middle last : S} {run front back : List (Transition S I O)} {t : Transition S I O}
  {inputs : List I}

variable {input : I} {P : List (Transition S I O) → S → Prop} {Inv : S → Prop}

theorem exec_cons (hExec : exec step s (input :: inputs) = some (run, last)) :
    ∃ next output rest, step s input = some (next, output) ∧
      exec step next inputs = some (rest, last) ∧ run = ⟨s, input, output, next⟩ :: rest := by
  obtain ⟨⟨next, output⟩, hStep, hRest⟩ := Option.bind_eq_some_iff.mp hExec
  obtain ⟨⟨rest, last'⟩, hTail, hResult⟩ := Option.map_eq_some_iff.mp hRest
  obtain ⟨rfl, rfl⟩ := Prod.mk.inj hResult
  exact ⟨next, output, rest, hStep, hTail, rfl⟩

theorem Run.of_exec (hExec : exec step s inputs = some (run, last)) : Run step s run last := by
  induction inputs generalizing s run with
  | nil =>
    cases hExec
    exact .nil _
  | cons input inputs ih =>
    obtain ⟨next, output, rest, hStep, hTail, rfl⟩ := exec_cons hExec
    exact .cons hStep (ih hTail)

theorem inputs_of_exec (hExec : exec step s inputs = some (run, last)) :
    run.map (·.input) = inputs := by
  induction inputs generalizing s run with
  | nil =>
    cases hExec
    rfl
  | cons input inputs ih =>
    obtain ⟨next, output, rest, -, hTail, rfl⟩ := exec_cons hExec
    rw [List.map_cons, ih hTail]

/-- A run on given inputs, with what is computed from it. -/
theorem Run.exists_of_exec (inputs : List I)
    (hFacts : ∃ result ∈ exec step s inputs, P result.1 result.2) :
    ∃ run last, Run step s run last ∧ run.map (·.input) = inputs ∧ P run last := by
  obtain ⟨⟨run, last⟩, hExec, hFacts⟩ := hFacts
  exact ⟨run, last, .of_exec hExec, inputs_of_exec hExec, hFacts⟩

theorem Run.append {first second : List (Transition S I O)} (hFirst : Run step s first middle)
    (hSecond : Run step middle second last) : Run step s (first ++ second) last := by
  induction hFirst with
  | nil s => exact hSecond
  | cons hStep _ ih => exact .cons hStep (ih hSecond)

theorem Run.snoc {output : O} (hRun : Run step s run middle)
    (hStep : step middle input = some (last, output)) :
    Run step s (run ++ [⟨middle, input, output, last⟩]) last :=
  hRun.append (.cons hStep (.nil last))

section

variable (hRun : Run step s (front ++ t :: back) last)
include hRun

theorem Run.before :
    Run step s front t.before ∧ step t.before t.input = some (t.after, t.output) := by
  induction front generalizing s with
  | nil =>
    cases hRun with
    | cons hStep _ => exact ⟨.nil _, hStep⟩
  | cons first front ih =>
    cases hRun with
    | cons hStep hRest =>
      obtain ⟨hFront, hLast⟩ := ih hRest
      exact ⟨.cons hStep hFront, hLast⟩

theorem Run.upTo : Run step s (front ++ [t]) t.after :=
  hRun.before.1.snoc hRun.before.2

theorem Run.after : Run step t.after back last := by
  induction front generalizing s with
  | nil =>
    cases hRun with
    | cons _ hRest => exact hRest
  | cons first front ih =>
    cases hRun with
    | cons _ hRest => exact ih hRest

end

section

variable (hPreserve : ∀ s input next output, Inv s → step s input = some (next, output) → Inv next)
  (hRun : Run step s run last) (hInv : Inv s)
include hPreserve hRun hInv

theorem Run.invariant : Inv last := by
  induction hRun with
  | nil s => exact hInv
  | cons hStep _ ih => exact ih (hPreserve _ _ _ _ hInv hStep)

theorem Run.invariant_before :
    ∀ t ∈ run, Inv t.before ∧ step t.before t.input = some (t.after, t.output) := by
  induction hRun with
  | nil s =>
    intro t hMem
    cases hMem
  | cons hStep _ ih => grind

end

/-- What holds of the empty history and of each longer one, step by step, holds of a whole
run. -/
theorem Run.history (hRun : Run step s run last) (hNil : P [] s)
    (hSnoc : ∀ front t, t ∈ run → step t.before t.input = some (t.after, t.output) →
      P front t.before → P (front ++ [t]) t.after) : P run last := by
  have hFrom : ∀ front, P front s → P (front ++ run) last := by
    clear hNil
    induction hRun with
    | nil s =>
      intro front hFront
      rwa [List.append_nil]
    | @cons s next last input output rest hStep _ ih =>
      intro front hFront
      have hNext := hSnoc front ⟨s, input, output, next⟩ List.mem_cons_self hStep hFront
      grind
  exact hFrom [] hNil

/-- What a state holds is conserved along a run when each step accounts for what it
takes in and what it gives out. -/
theorem Run.conserves {A : Type} {held : S → List A} {gained lost : Transition S I O → List A}
    (hRun : Run step s run last)
    (hStep : ∀ t ∈ run, held t.before ++ gained t = lost t ++ held t.after) :
    held s ++ run.flatMap gained = run.flatMap lost ++ held last := by
  induction hRun with
  | nil s => simp
  | cons _ _ ih => grind

/-- A quantity falls along a run by at most what its steps lose. -/
theorem Run.losses_le {held : S → Nat} {lost : Transition S I O → Nat}
    (hRun : Run step s run last) (hStep : ∀ t ∈ run, held t.before ≤ held t.after + lost t) :
    held s ≤ held last + (run.map lost).sum := by
  induction hRun with
  | nil s => exact Nat.le_add_right _ _
  | cons _ _ ih => grind

end Runs
