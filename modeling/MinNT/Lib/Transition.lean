import Mathlib.Algebra.BigOperators.Group.Finset.Piecewise

/-! Runs of a system that takes one labelled step at a time. A step that is not
possible in a state is `none`. -/

namespace Transition

open List

variable {σ ι : Type} {step : σ → ι → Option σ} {allowed : σ → ι → Prop} {start : σ}

/-- The states of the runs from `start` all of whose steps meet a condition on
the state they are taken in. -/
inductive Reaches (step : σ → ι → Option σ) (allowed : σ → ι → Prop) (start : σ) : σ → Prop
  | start : Reaches step allowed start start
  | step {state next : σ} {label : ι} (run : Reaches step allowed start state)
      (meets : allowed state label) (done : step state label = some next) :
      Reaches step allowed start next

theorem Reaches.invariant {holds : σ → Prop} (initial : holds start)
    (preserved : ∀ state label next, holds state → allowed state label →
      step state label = some next → holds next)
    {state : σ} (run : Reaches step allowed start state) : holds state := by
  induction run with
  | start => exact initial
  | step _ meets done ih => exact preserved _ _ _ ih meets done

theorem Reaches.mono {other : σ → ι → Prop} (weaker : ∀ state label, allowed state label →
    other state label) {state : σ} (run : Reaches step allowed start state) :
    Reaches step other start state := by
  induction run with
  | start => exact .start
  | step _ meets done ih => exact ih.step (weaker _ _ meets) done

/-- One run, given by its labels. -/
def runFrom (step : σ → ι → Option σ) : σ → List ι → Option σ
  | state, [] => some state
  | state, label :: labels => (step state label).bind fun next => runFrom step next labels

theorem runFrom_cons (step : σ → ι → Option σ) (state : σ) (label : ι) (labels : List ι) :
    runFrom step state (label :: labels) =
      (step state label).bind fun next => runFrom step next labels := rfl

variable {labels : List ι}

theorem Reaches.append {state : σ} (run : Reaches step allowed start state)
    (always : ∀ label ∈ labels, ∀ state, allowed state label) {next : σ}
    (done : runFrom step state labels = some next) : Reaches step allowed start next := by
  induction labels generalizing state with
  | nil =>
    cases done
    exact run
  | cons label labels ih =>
    rw [runFrom_cons, Option.bind_eq_some_iff] at done
    obtain ⟨middle, first, rest⟩ := done
    have meets := always label mem_cons_self state
    exact ih (.step run meets first)
      (fun other member => always other (mem_cons_of_mem _ member)) rest

/-- The state after the labels, if the condition is met before each of them. -/
def checkedRun (step : σ → ι → Option σ) (allowed : σ → ι → Prop)
    [∀ state label, Decidable (allowed state label)] : σ → List ι → Option σ
  | state, [] => some state
  | state, label :: labels =>
      if allowed state label then
        (step state label).bind fun next => checkedRun step allowed next labels
      else none

theorem Reaches.checked [∀ state label, Decidable (allowed state label)] {state : σ}
    (run : Reaches step allowed start state) {next : σ}
    (done : checkedRun step allowed state labels = some next) :
    Reaches step allowed start next := by
  induction labels generalizing state with
  | nil =>
    cases done
    exact run
  | cons label labels ih =>
    rw [checkedRun] at done
    split at done
    · rename_i meets
      obtain ⟨middle, first, rest⟩ := Option.bind_eq_some_iff.mp done
      exact ih (run.step meets first) rest
    · cases done

theorem reaches_of_runFrom {next : σ} (done : runFrom step start labels = some next) :
    Reaches step (fun _ _ => True) start next :=
  Reaches.start.append (fun _ _ _ => trivial) done

theorem runFrom_append (step : σ → ι → Option σ) (state : σ) (first second : List ι) :
    runFrom step state (first ++ second) =
      (runFrom step state first).bind fun next => runFrom step next second := by
  induction first generalizing state with
  | nil => rfl
  | cons label first ih =>
    rw [cons_append, runFrom_cons, runFrom_cons]
    cases step state label with
    | none => rfl
    | some next => exact ih next

theorem runFrom_keeps {holds : σ → Prop} {meets : ι → Prop}
    (preserved : ∀ state label next, holds state → meets label →
      step state label = some next → holds next) {state next : σ} (initial : holds state)
    (all : ∀ label ∈ labels, meets label) (done : runFrom step state labels = some next) :
    holds next := by
  induction labels generalizing state with
  | nil =>
    cases done
    exact initial
  | cons label labels ih =>
    rw [runFrom_cons, Option.bind_eq_some_iff] at done
    obtain ⟨middle, first, rest⟩ := done
    exact ih (preserved _ _ _ initial (all label mem_cons_self) first)
      (fun other member => all other (mem_cons_of_mem _ member)) rest

theorem runFrom_simulates {τ : Type} {model : τ → ι → Option τ} {related : σ → τ → Prop}
    (simulates : ∀ state abstract label next, related state abstract →
      step state label = some next → ∃ following, model abstract label = some following ∧
        related next following) {state next : σ} {abstract : τ} (initial : related state abstract)
    (done : runFrom step state labels = some next) :
    ∃ following, runFrom model abstract labels = some following ∧ related next following := by
  induction labels generalizing state abstract with
  | nil =>
    cases done
    exact ⟨abstract, rfl, initial⟩
  | cons label labels ih =>
    rw [runFrom_cons, Option.bind_eq_some_iff] at done
    obtain ⟨middle, first, rest⟩ := done
    obtain ⟨following, modelFirst, relatedMiddle⟩ := simulates _ _ _ _ initial first
    obtain ⟨last, modelRest, relatedLast⟩ := ih relatedMiddle rest
    refine ⟨last, ?_, relatedLast⟩
    rw [runFrom_cons, modelFirst]
    exact modelRest

section Machines

variable {κ ρ τ : Type}

/-- The answers to a sequence of calls, and the state behind the last one. -/
def runCalls (machine : σ → ι → ρ × σ) : σ → List ι → List ρ × σ
  | state, [] => ([], state)
  | state, call :: calls =>
      let answer := machine state call
      let rest := runCalls machine answer.2 calls
      (answer.1 :: rest.1, rest.2)

/-- A relation that single calls keep, with equal answers, is kept by whole runs.
A call of the abstract machine may have more in it than the call it stands for. -/
theorem runCalls_simulates (machine : σ → ι → ρ × σ) (abstract : τ → κ → ρ × τ) (erase : κ → ι)
    (related : σ → τ → Prop)
    (simulates : ∀ state model call, related state model → ∃ detailed, erase detailed = call ∧
      (machine state call).1 = (abstract model detailed).1 ∧
      related (machine state call).2 (abstract model detailed).2)
    {state : σ} {model : τ} (start : related state model) (calls : List ι) :
    ∃ detailed, detailed.map erase = calls ∧
      (runCalls machine state calls).1 = (runCalls abstract model detailed).1 ∧
      related (runCalls machine state calls).2 (runCalls abstract model detailed).2 := by
  induction calls generalizing state model with
  | nil => exact ⟨[], rfl, rfl, start⟩
  | cons call calls ih =>
    obtain ⟨first, same, answer, next⟩ := simulates state model call start
    obtain ⟨rest, others, answers, last⟩ := ih next
    refine ⟨first :: rest, by rw [map_cons, same, others], ?_, last⟩
    simp only [runCalls]
    rw [answer, answers]

end Machines

theorem sum_update {τ : Type} {parties party : Nat} (known : party < parties) (weight : τ → Nat)
    (old : Nat → τ) (new : τ) :
    ∑ other ∈ Finset.range parties, weight (Function.update old party new other) +
        weight (old party) =
      ∑ other ∈ Finset.range parties, weight (old other) + weight new := by
  have member : party ∈ Finset.range parties := Finset.mem_range.mpr known
  have others : ∑ other ∈ (Finset.range parties).erase party,
        weight (Function.update old party new other) =
      ∑ other ∈ (Finset.range parties).erase party, weight (old other) := by
    apply Finset.sum_congr rfl
    intro other inside
    rw [Function.update_of_ne (Finset.ne_of_mem_erase inside)]
  rw [← Finset.add_sum_erase _ _ member, ← Finset.add_sum_erase _ _ member, others,
    Function.update_self]
  omega

end Transition
