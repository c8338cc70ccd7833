import Mathlib.Data.List.Perm.Basic
import Mathlib.Logic.Function.Basic

/-! Hash tables with chaining: `size` chains, read as one list of entries in which the order does
not matter. -/

namespace ChainedTable

open List Function

variable {ε : Type} {chosen : ε → Bool} {change : ε → Option ε} {table : Nat → List ε} {size : Nat}

/-- The first chosen entry of a chain, and the chain with it changed or, for `none`, taken out. -/
def alterFirst (chosen : ε → Bool) (change : ε → Option ε) : List ε → Option (ε × List ε)
  | [] => none
  | entry :: rest =>
      if chosen entry then some (entry, (change entry).toList ++ rest)
      else (alterFirst chosen change rest).map fun altered => (altered.1, entry :: altered.2)

theorem alterFirst_none {chain : List ε} (missing : alterFirst chosen change chain = none) :
    ∀ entry ∈ chain, chosen entry = false := by
  induction chain with
  | nil => exact fun entry member => absurd member not_mem_nil
  | cons entry rest ih =>
    unfold alterFirst at missing
    by_cases here : chosen entry = true
    · rw [if_pos here] at missing
      cases missing
    · rw [if_neg here, Option.map_eq_none_iff] at missing
      exact forall_mem_cons.mpr ⟨eq_false_of_ne_true here, ih missing⟩

theorem alterFirst_some {chain after : List ε} {found : ε}
    (altered : alterFirst chosen change chain = some (found, after)) :
    chosen found = true ∧ ∃ before rest, chain = before ++ found :: rest ∧
      after = before ++ ((change found).toList ++ rest) := by
  induction chain generalizing after with
  | nil => cases altered
  | cons entry rest ih =>
    unfold alterFirst at altered
    by_cases here : chosen entry = true
    · rw [if_pos here] at altered
      cases altered
      exact ⟨here, [], rest, rfl, rfl⟩
    · rw [if_neg here, Option.map_eq_some_iff] at altered
      obtain ⟨⟨deeper, tail⟩, inRest, same⟩ := altered
      cases same
      obtain ⟨isChosen, before, behind, split, rest⟩ := ih inRest
      exact ⟨isChosen, entry :: before, behind, congrArg (entry :: ·) split,
        congrArg (entry :: ·) rest⟩

theorem alterFirst_fst (chosen : ε → Bool) (change : ε → Option ε) (chain : List ε) :
    (alterFirst chosen change chain).map Prod.fst = chain.find? chosen := by
  induction chain with
  | nil => rfl
  | cons entry rest ih =>
    unfold alterFirst
    by_cases here : chosen entry = true
    · rw [if_pos here, find?_cons_of_pos here]
      rfl
    · rw [if_neg here, find?_cons_of_neg here, ← ih, Option.map_map]
      rfl

/-- The entries of all chains. -/
def entries (table : Nat → List ε) (size : Nat) : List ε := (range size).flatMap table

theorem mem_entries {entry : ε} :
    entry ∈ entries table size ↔ ∃ hash < size, entry ∈ table hash := by
  unfold entries
  simp only [mem_flatMap, mem_range]

theorem entries_succ (table : Nat → List ε) (size : Nat) :
    entries table (size + 1) = entries table size ++ table size := by
  unfold entries
  rw [range_succ, flatMap_append, flatMap_singleton]

variable {hash : Nat}

theorem entries_update_of_le (table : Nat → List ε) (outside : size ≤ hash)
    (chain : List ε) : entries (update table hash chain) size = entries table size := by
  unfold entries
  refine flatMap_congr fun other member => ?_
  have less := mem_range.mp member
  have different : other ≠ hash := by omega
  rw [Function.update_of_ne different]

theorem entries_update (table : Nat → List ε) (inside : hash < size) :
    ∃ others, (entries table size).Perm (table hash ++ others) ∧
      ∀ chain, (entries (update table hash chain) size).Perm (chain ++ others) := by
  induction size with
  | zero => omega
  | succ size ih =>
    rcases Nat.lt_succ_iff_lt_or_eq.mp inside with before | rfl
    · obtain ⟨others, held, replaced⟩ := ih before
      refine ⟨others ++ table size, ?_, fun chain => ?_⟩
      · rw [entries_succ, ← append_assoc]
        exact held.append_right _
      · rw [entries_succ, ← append_assoc, Function.update_of_ne (by omega)]
        exact (replaced chain).append_right _
    · refine ⟨entries table hash, ?_, fun chain => ?_⟩
      · rw [entries_succ]
        exact perm_append_comm
      · rw [entries_succ, entries_update_of_le table (Nat.le_refl hash), Function.update_self]
        exact perm_append_comm

theorem entries_push (table : Nat → List ε) (inside : hash < size) (entry : ε) :
    (entries (update table hash (entry :: table hash)) size).Perm
      (entry :: entries table size) := by
  obtain ⟨others, held, replaced⟩ := entries_update table inside
  exact (replaced _).trans (held.symm.cons entry)

theorem entries_alter (inside : hash < size) {found : ε} {chain : List ε}
    (altered : alterFirst chosen change (table hash) = some (found, chain)) :
    ∃ others, (entries table size).Perm (found :: others) ∧
      (entries (update table hash chain) size).Perm ((change found).toList ++ others) := by
  obtain ⟨-, before, rest, split, rfl⟩ := alterFirst_some altered
  obtain ⟨others, held, replaced⟩ := entries_update table inside
  refine ⟨before ++ rest ++ others, ?_, ?_⟩
  · rw [split] at held
    exact held.trans (perm_middle.append_right others)
  · have front : (before ++ ((change found).toList ++ rest)).Perm
        ((change found).toList ++ (before ++ rest)) := by
      rw [← append_assoc, ← append_assoc]
      exact perm_append_comm.append_right rest
    have whole := (replaced _).trans (front.append_right others)
    rwa [append_assoc] at whole

/-- The first chosen entry of all chains in their order, and the table with it changed. -/
def alterIn (chosen : ε → Bool) (change : ε → Option ε) (table : Nat → List ε) (size : Nat) :
    Option (ε × (Nat → List ε)) :=
  (range size).findSome? fun hash =>
    (alterFirst chosen change (table hash)).map fun altered =>
      (altered.1, update table hash altered.2)

theorem alterIn_some {found : ε} {after : Nat → List ε}
    (altered : alterIn chosen change table size = some (found, after)) :
    ∃ hash < size, ∃ chain, alterFirst chosen change (table hash) = some (found, chain) ∧
      after = update table hash chain := by
  obtain ⟨hash, member, here⟩ := exists_of_findSome?_eq_some altered
  obtain ⟨⟨entry, chain⟩, inChain, same⟩ := Option.map_eq_some_iff.mp here
  cases same
  exact ⟨hash, mem_range.mp member, chain, inChain, rfl⟩

end ChainedTable
