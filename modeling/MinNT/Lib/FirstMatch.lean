import Mathlib.Data.List.Pairwise

/-! The first match in two lists that hold the same matches in different orders. -/

namespace FirstMatch

open List

variable {α β : Type} {found : α → Bool}

/-- What comes behind the first match in one of the lists does not come in front
of it, unless the lists order the two differently. -/
theorem find?_value_eq {first second : List α} {before after : α → α → Prop} {value : α → β}
    (firstOrder : first.Pairwise before) (secondOrder : second.Pairwise after)
    (same : ∀ item, found item = true → (item ∈ first ↔ item ∈ second))
    (agree : ∀ left right, found left = true → found right = true →
      before left right → after right left → value left = value right) :
    (first.find? found).map value = (second.find? found).map value := by
  cases fromFirst : first.find? found with
  | none =>
    have noneSecond : second.find? found = none := by
      rw [find?_eq_none] at fromFirst ⊢
      intro item member isFound
      exact fromFirst item ((same item isFound).mpr member) isFound
    rw [noneSecond]
  | some left =>
    have leftFound := find?_some fromFirst
    obtain ⟨_, front, back, shape, skipped⟩ := find?_eq_some_iff_append.mp fromFirst
    have leftSecond := (same left leftFound).mp (mem_of_find?_eq_some fromFirst)
    cases fromSecond : second.find? found with
    | none => exact absurd leftFound (find?_eq_none.mp fromSecond left leftSecond)
    | some right =>
      have rightFound := find?_some fromSecond
      obtain ⟨_, head, tail, other, missed⟩ := find?_eq_some_iff_append.mp fromSecond
      have rightFirst := (same right rightFound).mpr (mem_of_find?_eq_some fromSecond)
      by_cases equal : left = right
      · rw [equal]
      -- each of the two lies behind the other one in the list that skips it
      have behindLeft : right ∈ back := by
        rw [shape, mem_append, mem_cons] at rightFirst
        rcases rightFirst with earlier | here | later
        · exact absurd rightFound (by simpa using skipped right earlier)
        · exact absurd here.symm equal
        · exact later
      have behindRight : left ∈ tail := by
        rw [other, mem_append, mem_cons] at leftSecond
        rcases leftSecond with earlier | here | later
        · exact absurd leftFound (by simpa using missed left earlier)
        · exact absurd here equal
        · exact later
      rw [shape, pairwise_append, pairwise_cons] at firstOrder
      rw [other, pairwise_append, pairwise_cons] at secondOrder
      exact congrArg some (agree left right leftFound rightFound
        (firstOrder.2.1.1 right behindLeft) (secondOrder.2.1.1 left behindRight))

end FirstMatch
