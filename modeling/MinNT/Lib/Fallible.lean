set_option autoImplicit false

/-! Computations on a state that end with a value or an error, or do not end. An
error keeps what was changed before it. -/

namespace Fallible

variable {σ τ ε α β : Type}

abbrev Action (σ ε α : Type) := ExceptT ε (StateT σ Option) α

/-- The outcome and the state behind it; `none` is a run that does not end. -/
def Action.runFrom (action : Action σ ε α) (start : σ) : Option (Except ε α × σ) :=
  StateT.run (ExceptT.run action) start

/-- The run that does not end. -/
def stuck : Action σ ε α := ExceptT.mk (fun _ => none)

/-- The same computation so many times. -/
def times (action : Action σ ε Unit) : Nat → Action σ ε Unit
  | 0 => pure ()
  | count + 1 => do
      action
      times action count

theorem runFrom_bind (action : Action σ ε α) (next : α → Action σ ε β) (start : σ) :
    (action >>= next).runFrom start =
      match action.runFrom start with
      | none => none
      | some (.error reason, after) => some (.error reason, after)
      | some (.ok value, after) => (next value).runFrom after := by
  unfold Action.runFrom ExceptT.run StateT.run
  simp only [bind, ExceptT.bind, ExceptT.mk, StateT.bind, ExceptT.bindCont]
  cases result : action start with
  | none => rfl
  | some outcome =>
    obtain ⟨value, after⟩ := outcome
    cases value <;> rfl

/-- The run ends, in a state that has the invariant; if it ends with a value, the
value and the state are as said. -/
def Ends (inv : σ → Prop) (action : Action σ ε α) (start : σ) (post : α → σ → Prop) : Prop :=
  ∃ result after, action.runFrom start = some (result, after) ∧ inv after ∧
    ∀ value, result = .ok value → post value after

section Ends

variable {inv : σ → Prop} {start : σ}

theorem ends_pure {value : α} {post : α → σ → Prop} (holds : inv start)
    (known : post value start) : Ends inv (pure value : Action σ ε α) start post := by
  refine ⟨.ok value, start, rfl, holds, ?_⟩
  intro other same
  cases same
  exact known

theorem ends_throw {reason : ε} {post : α → σ → Prop} (holds : inv start) :
    Ends inv (throw reason : Action σ ε α) start post :=
  ⟨.error reason, start, rfl, holds, fun _ impossible => by cases impossible⟩

theorem Ends.bind {action : Action σ ε α} {next : α → Action σ ε β} {middle : α → σ → Prop}
    {post : β → σ → Prop} (left : Ends inv action start middle)
    (right : ∀ value after, inv after → middle value after → Ends inv (next value) after post) :
    Ends inv (action >>= next) start post := by
  obtain ⟨result, after, run, holds, known⟩ := left
  cases result with
  | error reason =>
    refine ⟨.error reason, after, ?_, holds, fun _ impossible => by cases impossible⟩
    rw [runFrom_bind, run]
  | ok value =>
    obtain ⟨result, last, rest, kept, reached⟩ := right value after holds (known value rfl)
    refine ⟨result, last, ?_, kept, reached⟩
    rw [runFrom_bind, run]
    exact rest

theorem Ends.mono {action : Action σ ε α} {post weaker : α → σ → Prop}
    (ends : Ends inv action start post) (implies : ∀ value after, post value after →
      weaker value after) : Ends inv action start weaker := by
  obtain ⟨result, after, run, holds, known⟩ := ends
  exact ⟨result, after, run, holds, fun value same => implies value after (known value same)⟩

theorem ends_times {action : Action σ ε Unit} {ready : σ → Prop}
    (body : ∀ state, inv state → ready state → Ends inv action state (fun _ => ready))
    (count : Nat) (holds : inv start) (first : ready start) :
    Ends inv (times action count) start (fun _ => ready) := by
  induction count generalizing start with
  | zero => exact ends_pure holds first
  | succ count ih =>
    apply (body start holds first).bind
    intro _ after kept next
    exact ih kept next

end Ends

/-- From states that belong together both runs do not end, or both end with the
same outcome, in states that belong together. -/
def Simulates (related : σ → τ → Prop) (action : Action σ ε α) (other : Action τ ε α) : Prop :=
  ∀ start start', related start start' →
    Option.Rel (fun left right => left.1 = right.1 ∧ related left.2 right.2)
      (action.runFrom start) (other.runFrom start')

section Simulates

variable {related : σ → τ → Prop}

theorem simulates_pure (value : α) : Simulates related (pure value : Action σ ε α) (pure value) :=
  fun _ _ together => .some ⟨rfl, together⟩

theorem simulates_throw (reason : ε) :
    Simulates related (throw reason : Action σ ε α) (throw reason) :=
  fun _ _ together => .some ⟨rfl, together⟩

theorem simulates_stuck : Simulates related (stuck : Action σ ε α) stuck := fun _ _ _ => .none

theorem Simulates.bind {action : Action σ ε α} {other : Action τ ε α} {next : α → Action σ ε β}
    {next' : α → Action τ ε β} (left : Simulates related action other)
    (right : ∀ value, Simulates related (next value) (next' value)) :
    Simulates related (action >>= next) (other >>= next') := by
  intro start start' together
  have outcome := left start start' together
  rw [runFrom_bind, runFrom_bind]
  cases run : action.runFrom start with
  | none =>
    cases run' : other.runFrom start' with
    | none => exact .none
    | some result' =>
      rw [run, run'] at outcome
      cases outcome
  | some result =>
    cases run' : other.runFrom start' with
    | none =>
      rw [run, run'] at outcome
      cases outcome
    | some result' =>
      rw [run, run'] at outcome
      obtain ⟨value, after⟩ := result
      obtain ⟨value', after'⟩ := result'
      obtain ⟨same, still⟩ : value = value' ∧ related after after' := by
        cases outcome with
        | some both => exact both
      subst same
      cases value with
      | error reason => exact .some ⟨rfl, still⟩
      | ok value => exact right value after after' still

theorem simulates_ite {condition : Prop} [Decidable condition] {yes no : Action σ ε α}
    {yes' no' : Action τ ε α} (left : Simulates related yes yes')
    (right : Simulates related no no') :
    Simulates related (if condition then yes else no) (if condition then yes' else no') := by
  split
  · exact left
  · exact right

theorem simulates_times {action : Action σ ε Unit} {other : Action τ ε Unit}
    (body : Simulates related action other) (count : Nat) :
    Simulates related (times action count) (times other count) := by
  induction count with
  | zero => exact simulates_pure ()
  | succ count ih => exact body.bind (fun _ => ih)

theorem Simulates.returns {action : Action σ ε α} {other : Action τ ε α}
    (simulates : Simulates related action other) {start : σ} {start' : τ}
    (together : related start start') {result : Except ε α} {after : σ}
    (run : action.runFrom start = some (result, after)) :
    ∃ after', other.runFrom start' = some (result, after') ∧ related after after' := by
  have outcome := simulates start start' together
  rw [run] at outcome
  cases run' : other.runFrom start' with
  | none =>
    rw [run'] at outcome
    cases outcome
  | some result' =>
    rw [run'] at outcome
    obtain ⟨value', after'⟩ := result'
    cases outcome with
    | some both =>
      obtain ⟨same, still⟩ : result = value' ∧ related after after' := both
      subst same
      exact ⟨after', rfl, still⟩

end Simulates

end Fallible
