import Mathlib.Data.List.Nodup

/-! Ranges of addresses cut into cells, each of which starts where the one
before it ends. -/

namespace Tiling

open List

/-- The cells, of the given extents, fill `[low, high)` in order. -/
def Tiles (extent : Nat → Nat) : Nat → Nat → List Nat → Prop
  | low, high, [] => low = high
  | low, high, cell :: cells => cell = low ∧ Tiles extent (low + extent cell) high cells

variable {low high : Nat} {cells : List Nat} {extent : Nat → Nat}

theorem Tiles.congr {extent extent' : Nat → Nat} (tiles : Tiles extent low high cells)
    (same : ∀ cell ∈ cells, extent' cell = extent cell) : Tiles extent' low high cells := by
  induction cells generalizing low with
  | nil => exact tiles
  | cons cell cells ih =>
    refine ⟨tiles.1, ?_⟩
    rw [same cell mem_cons_self]
    exact ih tiles.2 (fun other member => same other (mem_cons_of_mem _ member))

section Tiles

variable (tiles : Tiles extent low high cells)
include tiles

theorem Tiles.le : low ≤ high := by
  induction cells generalizing low with
  | nil => exact Nat.le_of_eq tiles
  | cons cell cells ih =>
    have rest := ih tiles.2
    omega

theorem Tiles.inside (cell : Nat) (member : cell ∈ cells) :
    low ≤ cell ∧ cell + extent cell ≤ high := by
  induction cells generalizing low with
  | nil => cases member
  | cons first cells ih =>
    obtain ⟨rfl, rest⟩ := tiles
    rcases mem_cons.mp member with same | later
    · subst cell
      have upper := rest.le
      omega
    · have bounds := ih rest later
      omega

theorem Tiles.apart (left right : Nat) (leftMember : left ∈ cells) (rightMember : right ∈ cells)
    (different : left ≠ right) : left + extent left ≤ right ∨ right + extent right ≤ left := by
  induction cells generalizing low with
  | nil => cases leftMember
  | cons first cells ih =>
    obtain ⟨rfl, rest⟩ := tiles
    rcases mem_cons.mp leftMember with leftFirst | leftLater
    · rcases mem_cons.mp rightMember with rightFirst | rightLater
      · omega
      · have bounds := rest.inside right rightLater
        subst left
        omega
    · rcases mem_cons.mp rightMember with rightFirst | rightLater
      · have bounds := rest.inside left leftLater
        subst right
        omega
      · exact ih rest leftLater rightLater

theorem Tiles.nodup (positive : ∀ cell ∈ cells, 0 < extent cell) : cells.Nodup := by
  induction cells generalizing low with
  | nil => exact nodup_nil
  | cons first cells ih =>
    obtain ⟨rfl, rest⟩ := tiles
    apply nodup_cons.mpr
    refine ⟨?_, ih rest (fun cell member => positive cell (mem_cons_of_mem _ member))⟩
    intro member
    have bounds := rest.inside first member
    have here := positive first mem_cons_self
    omega

end Tiles

theorem Tiles.cut {extent extent' : Nat → Nat} {front back : List Nat}
    {cell part : Nat} (tiles : Tiles extent low high (front ++ cell :: back))
    (starts : part = cell + extent' cell) (parts : extent' cell + extent' part = extent cell)
    (sameFront : ∀ other ∈ front, extent' other = extent other)
    (sameBack : ∀ other ∈ back, extent' other = extent other) :
    Tiles extent' low high (front ++ cell :: part :: back) := by
  induction front generalizing low with
  | nil =>
    obtain ⟨rfl, rest⟩ := tiles
    refine ⟨rfl, starts, ?_⟩
    rw [Nat.add_assoc, parts]
    exact rest.congr sameBack
  | cons first front ih =>
    refine ⟨tiles.1, ?_⟩
    rw [sameFront first mem_cons_self]
    exact ih tiles.2 (fun other member => sameFront other (mem_cons_of_mem _ member))

end Tiling
