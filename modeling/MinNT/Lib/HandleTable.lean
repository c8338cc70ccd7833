import Mathlib.Data.List.Perm.Basic
import Mathlib.Data.List.Range
import Mathlib.Logic.Function.Basic

/-! Tables of a fixed size whose slots are free or hold an entry. What they hold
matters up to its order only. -/

namespace HandleTable

open List Function

variable {α : Type} {size slot : Nat} {table : Nat → Option α} {entry : α}

/-- What the slots hold. -/
def occupants (size : Nat) (table : Nat → Option α) : List α :=
  (range size).filterMap table

def firstFree (size : Nat) (table : Nat → Option α) : Option Nat :=
  (range size).find? fun slot => (table slot).isNone

theorem occupants_succ (size : Nat) (table : Nat → Option α) :
    occupants (size + 1) table = occupants size table ++ (table size).toList := by
  unfold occupants
  rw [range_succ, filterMap_append]
  rfl

theorem mem_occupants : entry ∈ occupants size table ↔ ∃ slot < size, table slot = some entry := by
  simp [occupants, mem_filterMap]

theorem firstFree_free (found : firstFree size table = some slot) :
    slot < size ∧ table slot = none :=
  ⟨mem_range.mp (mem_of_find?_eq_some found),
    Option.isNone_iff_eq_none.mp (by simpa using find?_some found)⟩

theorem occupants_update_of_le (outside : size ≤ slot) (value : Option α) :
    occupants size (update table slot value) = occupants size table := by
  apply filterMap_congr
  intro other member
  have inside := mem_range.mp member
  exact update_of_ne (by omega) _ _

theorem occupants_put (inside : slot < size) (free : table slot = none) (entry : α) :
    (occupants size (update table slot (some entry))).Perm (entry :: occupants size table) := by
  induction size with
  | zero => exact absurd inside (Nat.not_lt_zero slot)
  | succ size ih =>
    rw [occupants_succ, occupants_succ]
    rcases Nat.lt_succ_iff_lt_or_eq.mp inside with below | same
    · have kept : update table slot (some entry) size = table size :=
        update_of_ne (by omega) _ _
      rw [kept]
      exact (ih below).append_right _
    · subst same
      rw [occupants_update_of_le (Nat.le_refl slot), update_self, free]
      rw [Option.toList_some, Option.toList_none, append_nil]
      exact perm_append_singleton entry _

theorem occupants_clear (inside : slot < size) (taken : table slot = some entry) :
    (occupants size table).Perm (entry :: occupants size (update table slot none)) := by
  have back := occupants_put inside (update_self slot none table) entry
  rwa [update_idem, ← taken, update_eq_self] at back

theorem length_occupants_le (size : Nat) (table : Nat → Option α) :
    (occupants size table).length ≤ size := by
  have bound := length_filterMap_le table (range size)
  rwa [length_range] at bound

end HandleTable
