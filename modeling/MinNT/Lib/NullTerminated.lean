import Mathlib.Data.List.Basic

/-! Singly linked lists that end in a null pointer, and the loops over them. -/

namespace NullTerminated

open List

variable {ι : Type}

/-- The links lead from `head` through `cells` to the null pointer. -/
def Listed (next : ι → Option ι) : Option ι → List ι → Prop
  | head, [] => head = none
  | head, cell :: cells => head = some cell ∧ Listed next (next cell) cells

/-- Walk to the first cell that is wanted. The outer `none` is a walk that has
not ended when the fuel is used up. -/
def search (next : ι → Option ι) (wanted : ι → Bool) : Nat → Option ι → Option (Option ι)
  | _, none => some none
  | 0, some _ => none
  | fuel + 1, some cell =>
      if wanted cell then some (some cell) else search next wanted fuel (next cell)

/-- Walk to the cell that has no next one. -/
def lastCell (next : ι → Option ι) : Nat → ι → Option ι
  | 0, _ => none
  | fuel + 1, cell =>
      match next cell with
      | none => some cell
      | some after => lastCell next fuel after

/-- Follow `count` links, as far as there are any. -/
def follow (next : ι → Option ι) : Nat → Option ι → Option ι
  | _, none => none
  | 0, some cell => some cell
  | count + 1, some cell => follow next count (next cell)

variable {next next' : ι → Option ι} {head : Option ι} {cells : List ι}

theorem Listed.congr (listed : Listed next head cells)
    (same : ∀ cell ∈ cells, next' cell = next cell) : Listed next' head cells := by
  induction cells generalizing head with
  | nil => exact listed
  | cons cell cells ih =>
    refine ⟨listed.1, ?_⟩
    rw [same cell mem_cons_self]
    exact ih listed.2 (fun other member => same other (mem_cons_of_mem _ member))

theorem Listed.unique {cells' : List ι} (listed : Listed next head cells)
    (listed' : Listed next head cells') : cells = cells' := by
  induction cells generalizing head cells' with
  | nil =>
    obtain rfl : head = none := listed
    cases cells' with
    | nil => rfl
    | cons cell cells' => cases listed'.1
  | cons cell cells ih =>
    obtain ⟨rfl, rest⟩ := listed
    cases cells' with
    | nil => cases listed'
    | cons cell' cells' =>
      obtain ⟨same, rest'⟩ := listed'
      obtain rfl := Option.some.inj same
      rw [ih rest rest']

theorem Listed.extend {last cell : ι} (listed : Listed next head (cells ++ [last]))
    (link : next' last = some cell) (ends : next' cell = none)
    (same : ∀ other ∈ cells, next' other = next other) :
    Listed next' head (cells ++ [last] ++ [cell]) := by
  induction cells generalizing head with
  | nil => exact ⟨listed.1, link, ends⟩
  | cons first cells ih =>
    refine ⟨listed.1, ?_⟩
    rw [same first mem_cons_self]
    exact ih listed.2 (fun other member => same other (mem_cons_of_mem _ member))

theorem Listed.search_eq (listed : Listed next head cells) (wanted : ι → Bool) {fuel : Nat}
    (enough : cells.length ≤ fuel) : search next wanted fuel head = some (cells.find? wanted) := by
  induction cells generalizing head fuel with
  | nil =>
    obtain rfl : head = none := listed
    simp only [search, find?_nil]
  | cons cell cells ih =>
    obtain ⟨rfl, rest⟩ := listed
    cases fuel with
    | zero => simp at enough
    | succ fuel =>
      have shorter : cells.length ≤ fuel := by
        simpa using enough
      rw [search, find?_cons]
      cases found : wanted cell with
      | true => rfl
      | false => exact ih rest shorter

theorem Listed.lastCell_eq {first : ι} (listed : Listed next (some first) cells) {fuel : Nat}
    (enough : cells.length ≤ fuel) : lastCell next fuel first = cells.getLast? := by
  induction cells generalizing first fuel with
  | nil => cases listed
  | cons cell cells ih =>
    obtain ⟨same, rest⟩ := listed
    obtain rfl := Option.some.inj same
    cases fuel with
    | zero => simp at enough
    | succ fuel =>
      have shorter : cells.length ≤ fuel := by
        simpa using enough
      cases after : next first with
      | none =>
        rw [after] at rest
        cases cells with
        | nil => simp only [lastCell, after, getLast?_singleton]
        | cons second cells => cases rest.1
      | some second =>
        rw [after] at rest
        cases cells with
        | nil => cases rest
        | cons third cells =>
          simp only [lastCell, after, ih rest shorter, getLast?_cons_cons]

theorem Listed.follow_eq (listed : Listed next head cells) (count : Nat) :
    follow next count head = cells[count]? := by
  induction cells generalizing head count with
  | nil =>
    obtain rfl : head = none := listed
    cases count <;> rfl
  | cons cell cells ih =>
    obtain ⟨rfl, rest⟩ := listed
    cases count with
    | zero => rfl
    | succ count => simpa only [follow, getElem?_cons_succ] using ih rest count

end NullTerminated
