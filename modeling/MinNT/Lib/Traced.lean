import Mathlib.Data.List.Basic

/-! Computations that leave a trace of what they touch. -/

/-- A value and what was touched on the way to it. -/
structure Traced (α β : Type) where
  touched : List α
  value : β

namespace Traced

open List

variable {α β γ : Type}

instance : Monad (Traced α) where
  pure value := ⟨[], value⟩
  bind first next := ⟨first.touched ++ (next first.value).touched, (next first.value).value⟩

/-- Touches one thing for a value. -/
def touch (thing : α) (value : β) : Traced α β := ⟨[thing], value⟩

/-- Everything that is touched has a property. -/
def All (holds : α → Prop) (run : Traced α β) : Prop := ∀ thing ∈ run.touched, holds thing

@[simp] theorem pure_value (value : β) : (pure value : Traced α β).value = value := (rfl)

@[simp] theorem bind_value (first : Traced α β) (next : β → Traced α γ) :
    (first >>= next).value = (next first.value).value := (rfl)

@[simp] theorem touch_value (thing : α) (value : β) : (touch thing value).value = value := (rfl)

variable {holds : α → Prop}

@[simp] theorem all_pure (value : β) : (pure value : Traced α β).All holds :=
  fun _ member => absurd member not_mem_nil

@[simp] theorem all_touch (thing : α) (value : β) :
    (touch thing value).All holds ↔ holds thing := by
  unfold All touch
  simp only [mem_singleton, forall_eq]

@[simp] theorem all_bind (first : Traced α β) (next : β → Traced α γ) :
    (first >>= next).All holds ↔ first.All holds ∧ (next first.value).All holds := by
  constructor
  · exact fun all => ⟨fun thing member => all thing (mem_append_left _ member),
      fun thing member => all thing (mem_append_right _ member)⟩
  · rintro ⟨inFirst, inNext⟩ thing member
    rcases mem_append.mp member with front | back
    · exact inFirst thing front
    · exact inNext thing back

theorem all_ite_pure {done : Prop} [Decidable done] (value : β) (rest : Traced α β) :
    (if done then pure value else rest).All holds ↔ (¬ done → rest.All holds) := by
  by_cases here : done
  · rw [if_pos here]
    exact iff_of_true (all_pure value) fun undone => absurd here undone
  · rw [if_neg here]
    exact (imp_iff_right here).symm

/-- A loop over a list touches only good things exactly if its turns do, where what a turn touches
does not depend on the state that the turns before it leave. -/
theorem all_foldlM {σ ι : Type} {turn : σ → ι → Traced α σ} {items : List ι} {state : σ}
    {good : ι → Prop} (turns : ∀ item ∈ items, ∀ state, (turn state item).All holds ↔ good item) :
    (items.foldlM turn state).All holds ↔ ∀ item ∈ items, good item := by
  induction items generalizing state with
  | nil =>
    rw [foldlM_nil]
    exact iff_of_true (all_pure state) fun _ member => absurd member not_mem_nil
  | cons item items ih =>
    rw [foldlM_cons, all_bind, turns item mem_cons_self state,
      ih fun other member => turns other (mem_cons_of_mem _ member), forall_mem_cons]

theorem foldlM_value {σ ι : Type} (turn : σ → ι → Traced α σ) (items : List ι) (state : σ) :
    (items.foldlM turn state).value =
      items.foldl (fun state item => (turn state item).value) state := by
  induction items generalizing state with
  | nil => rfl
  | cons item items ih =>
    rw [foldlM_cons, bind_value, foldl_cons]
    exact ih _

theorem all_foldlM_of_fixed {σ ι : Type} {turn : σ → ι → Traced α σ} {items : List ι} {state : σ}
    (fixed : ∀ item ∈ items, (turn state item).value = state) :
    ((items.foldlM turn state).All holds ↔ ∀ item ∈ items, (turn state item).All holds) ∧
      (items.foldlM turn state).value = state := by
  induction items with
  | nil =>
    rw [foldlM_nil]
    exact ⟨iff_of_true (all_pure state) fun _ member => absurd member not_mem_nil, rfl⟩
  | cons item items ih =>
    have rest := ih fun other member => fixed other (mem_cons_of_mem _ member)
    have first := fixed item mem_cons_self
    rw [foldlM_cons, all_bind, bind_value, first, rest.1, rest.2, forall_mem_cons]
    exact ⟨Iff.rfl, rfl⟩

end Traced
