import Mathlib.Data.Finset.Card

/-! Loops with a bound on their turns, over a control state of which there are only
finitely many: one that has not ended after that many turns never ends. -/

namespace FuelLoop

section Turns

variable {σ : Type} (next : σ → Option σ)

/-- The state after some turns, if the loop goes on that long. -/
def after : Nat → σ → Option σ
  | 0, state => some state
  | turns + 1, state => (next state).bind (after turns)

/-- Every turn is followed by another one. -/
def Forever (state : σ) : Prop := ∀ turns, (after next turns state).isSome

theorem after_add (first second : Nat) (state : σ) :
    after next (first + second) state = (after next first state).bind (after next second) := by
  induction first generalizing state with
  | zero => rw [Nat.zero_add, after, Option.bind_some]
  | succ first ih =>
    rw [Nat.add_right_comm, after, after]
    cases next state with
    | none => rfl
    | some following => exact ih following

theorem after_succ (turns : Nat) (state : σ) :
    after next (turns + 1) state = (after next turns state).bind next := by
  have one : after next 1 = next := by
    funext state
    rw [after]
    exact Option.bind_fun_some (next state)
  rw [after_add, one]

variable {next} {state : σ}

theorem isSome_of_le {fewer turns : Nat} (le : fewer ≤ turns)
    (long : (after next turns state).isSome) : (after next fewer state).isSome := by
  obtain ⟨more, rfl⟩ := Nat.exists_eq_add_of_le le
  rw [after_add] at long
  cases known : after next fewer state with
  | none => simp [known] at long
  | some reached => rfl

theorem forever_of_repeat {first again : Nat} (less : first < again)
    (same : after next first state = after next again state)
    (long : (after next again state).isSome) : Forever next state := by
  intro turns
  -- Strong induction: from the second visit on, take the turns from the first one on.
  induction turns using Nat.strongRecOn with
  | _ turns ih =>
    rcases Nat.lt_or_ge again turns with behind | before
    · obtain ⟨more, rfl⟩ := Nat.exists_eq_add_of_lt behind
      have earlier := ih (first + (more + 1)) (by omega)
      rw [Nat.add_assoc, after_add, ← same, ← after_add]
      exact earlier
    · exact isSome_of_le before long

theorem exists_repeat (states : Finset σ)
    (image : ∀ state following, next state = some following → following ∈ states)
    (long : (after next (states.card + 1) state).isSome) :
    ∃ first again, first < again ∧ after next first state = after next again state ∧
      (after next again state).isSome := by
  have inside : ∀ turns ∈ Finset.range (states.card + 1),
      after next (turns + 1) state ∈ states.map ⟨some, Option.some_injective σ⟩ := by
    intro turns member
    have known := isSome_of_le (Finset.mem_range.mp member) long
    obtain ⟨reached, here⟩ := Option.isSome_iff_exists.mp known
    rw [here]
    rw [after_succ, Option.bind_eq_some_iff] at here
    obtain ⟨before, _, last⟩ := here
    exact Finset.mem_map_of_mem _ (image before reached last)
  obtain ⟨first, few, again, few', different, same⟩ :=
    Finset.exists_ne_map_eq_of_card_lt_of_maps_to (by simp) inside
  rw [Finset.mem_range] at few few'
  rcases Nat.lt_or_gt_of_ne different with less | less
  · exact ⟨_, _, Nat.succ_lt_succ less, same, isSome_of_le (by omega) long⟩
  · exact ⟨_, _, Nat.succ_lt_succ less, same.symm, isSome_of_le (by omega) long⟩

theorem forever_of_long (states : Finset σ)
    (image : ∀ state following, next state = some following → following ∈ states)
    (long : (after next (states.card + 1) state).isSome) : Forever next state := by
  obtain ⟨first, again, less, same, known⟩ := exists_repeat states image long
  exact forever_of_repeat less same known

theorem turns_le_card (states : Finset σ)
    (image : ∀ state following, next state = some following → following ∈ states) {turns : Nat}
    {reached : σ} (known : after next turns state = some reached) (stops : next reached = none) :
    turns ≤ states.card := by
  by_contra long
  have forever := forever_of_long states image (isSome_of_le (Nat.lt_of_not_le long)
    (by rw [known]; rfl)) (turns + 1)
  rw [after_succ, known, Option.bind_some, stops] at forever
  cases forever

/-- With finitely many states to come to, a loop goes on for ever exactly if it comes to one of
them twice. -/
theorem forever_iff_repeat (states : Finset σ)
    (image : ∀ state following, next state = some following → following ∈ states) :
    Forever next state ↔
      ∃ first again reached, first < again ∧ after next first state = some reached ∧
        after next again state = some reached := by
  constructor
  · intro forever
    obtain ⟨first, again, less, same, known⟩ := exists_repeat states image (forever _)
    obtain ⟨reached, known⟩ := Option.isSome_iff_exists.mp known
    exact ⟨first, again, reached, less, same.trans known, known⟩
  · rintro ⟨first, again, reached, less, here, there⟩
    apply forever_of_repeat less (here.trans there.symm)
    rw [there]
    rfl

theorem forever_step : Forever next state ↔
    ∃ following, next state = some following ∧ Forever next following := by
  constructor
  · intro forever
    obtain ⟨following, step⟩ := Option.isSome_iff_exists.mp (forever 1)
    rw [after, Option.bind_eq_some_iff] at step
    obtain ⟨following, step, _⟩ := step
    refine ⟨following, step, fun turns => ?_⟩
    have later := forever (turns + 1)
    rwa [after, step] at later
  · rintro ⟨following, step, forever⟩ turns
    cases turns with
    | zero => rfl
    | succ turns =>
      rw [after, step]
      exact forever turns

end Turns

section Loop

variable {σ τ ρ : Type} {next : σ → Option σ} {loop : Nat → τ → Option ρ} {control : τ → σ}

/-- The loop takes a turn where its control state has a next one, and where it has none it
ends in at most two. -/
structure Controls (loop : Nat → τ → Option ρ) (control : τ → σ) (next : σ → Option σ) : Prop where
  zero : ∀ state, loop 0 state = none
  turn : ∀ state following, next (control state) = some following →
    ∃ state', control state' = following ∧ ∀ fuel, loop (fuel + 1) state = loop fuel state'
  stop : ∀ state, next (control state) = none → ∀ fuel, (loop (fuel + 2) state).isSome

section Controls

variable (controls : Controls loop control next)
include controls

theorem Controls.none_of_forever (fuel : Nat) :
    ∀ {state : τ}, Forever next (control state) → loop fuel state = none := by
  induction fuel with
  | zero => exact fun _ => controls.zero _
  | succ fuel ih =>
    intro state forever
    obtain ⟨following, step, later⟩ := forever_step.mp forever
    obtain ⟨state', rfl, taken⟩ := controls.turn state following step
    rw [taken]
    exact ih later

theorem Controls.isSome_of_ends (turns : Nat) :
    ∀ {state : τ} {fuel : Nat}, after next turns (control state) = none → turns + 1 ≤ fuel →
      (loop fuel state).isSome := by
  induction turns with
  | zero => exact fun ends _ => nomatch ends
  | succ turns ih =>
    intro state fuel ends enough
    cases step : next (control state) with
    | none =>
      obtain ⟨fuel, rfl⟩ := Nat.exists_eq_add_of_le' (show 2 ≤ fuel by omega)
      exact controls.stop state step fuel
    | some following =>
      obtain ⟨fuel, rfl⟩ := Nat.exists_eq_add_of_le' (show 1 ≤ fuel by omega)
      obtain ⟨state', rfl, taken⟩ := controls.turn state following step
      rw [after, step] at ends
      rw [taken]
      exact ih ends (by omega)

theorem Controls.isSome_iff (states : Finset σ)
    (image : ∀ state following, next state = some following → following ∈ states) {fuel : Nat}
    (enough : states.card + 2 ≤ fuel) (state : τ) :
    (loop fuel state).isSome ↔ ¬ Forever next (control state) := by
  constructor
  · intro ends forever
    rw [controls.none_of_forever fuel forever] at ends
    cases ends
  · intro finite
    apply controls.isSome_of_ends (states.card + 1) _ enough
    rw [← Option.not_isSome_iff_eq_none]
    exact fun long => finite (forever_of_long states image long)

end Controls

end Loop

end FuelLoop
