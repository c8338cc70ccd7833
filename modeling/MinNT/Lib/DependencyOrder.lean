import Mathlib.Data.Fintype.Pigeonhole
import Mathlib.Logic.Relation

/-! Orders in which every node comes behind the nodes it needs. -/

namespace DependencyOrder

open List Relation

variable {α : Type} {needs : α → α → Prop} {order : List α} {node : α}

/-- The node is on a cycle or needs, through others, one that is. -/
def LeadsToCycle (needs : α → α → Prop) (node : α) : Prop :=
  ∃ other, ReflTransGen needs node other ∧ TransGen needs other other

def Acyclic (needs : α → α → Prop) : Prop := ∀ node, ¬ TransGen needs node node

/-- Every node comes behind all it needs. -/
def Behind (needs : α → α → Prop) (order : List α) : Prop :=
  ∀ front node back, order = front ++ node :: back → ∀ other, needs node other → other ∈ front

theorem behind_nil : Behind needs [] := by
  intro front node back shape
  simp at shape

theorem append_singleton_split {front back : List α} {last : α}
    (shape : order ++ [last] = front ++ node :: back) :
    (back = [] ∧ front = order ∧ node = last) ∨
      ∃ rest, back = rest ++ [last] ∧ order = front ++ node :: rest := by
  rcases eq_nil_or_concat back with empty | ⟨rest, other, ends⟩
  · left
    rw [empty] at shape
    obtain ⟨same, lasts⟩ := append_inj' shape rfl
    exact ⟨empty, same.symm, (singleton_inj.mp lasts).symm⟩
  · right
    rw [concat_eq_append] at ends
    rw [ends, ← cons_append, ← append_assoc] at shape
    obtain ⟨same, lasts⟩ := append_inj' shape rfl
    refine ⟨rest, ?_, same⟩
    rw [ends, singleton_inj.mp lasts]

theorem Behind.append (behind : Behind needs order)
    (ready : ∀ other, needs node other → other ∈ order) : Behind needs (order ++ [node]) := by
  intro front candidate back shape other need
  rcases append_singleton_split shape with ⟨_, same, isLast⟩ | ⟨rest, _, same⟩
  · rw [same]
    rw [isLast] at need
    exact ready other need
  · exact behind front candidate rest same other need

theorem not_self_of_acc {r : α → α → Prop} (acc : Acc r node) : ¬ r node node := by
  induction acc with
  | intro node _ ih => exact fun self => ih node self self

theorem Behind.grounded (behind : Behind needs order) :
    ∀ node ∈ order, Acc (Function.swap needs) node := by
  induction order using List.reverseRecOn with
  | nil => exact fun node member => absurd member not_mem_nil
  | append_singleton order last ih =>
    have shorter : Behind needs order := by
      intro front candidate back shape
      apply behind front candidate (back ++ [last])
      rw [shape, append_assoc, cons_append]
    have before := ih shorter
    intro candidate inside
    rcases mem_append.mp inside with old | new
    · exact before candidate old
    · rw [mem_singleton.mp new]
      exact .intro last (fun other need => before other (behind order last [] rfl other need))

theorem Behind.noCycle (behind : Behind needs order) (member : node ∈ order) :
    ¬ LeadsToCycle needs node := by
  have below : ∀ other, ReflTransGen needs node other → Acc (Function.swap needs) other := by
    intro other reached
    induction reached with
    | refl => exact behind.grounded node member
    | tail _ need ih => exact ih.inv need
  rintro ⟨other, reached, cycle⟩
  exact not_self_of_acc (below other reached).transGen (transGen_swap.mpr cycle)

/-- Where every node of a finite set needs another one of the set, each leads to a
cycle: a walk through the set comes back to a node it has left. -/
theorem leadsToCycle_of_stuck {stuck : Set α} (finite : stuck.Finite)
    (needy : ∀ node ∈ stuck, ∃ other ∈ stuck, needs node other) (member : node ∈ stuck) :
    LeadsToCycle needs node := by
  have following : ∀ here : stuck, ∃ next : stuck, needs here.1 next.1 := by
    intro here
    obtain ⟨other, inside, need⟩ := needy here.1 here.2
    exact ⟨⟨other, inside⟩, need⟩
  choose next need using following
  have walk : ∀ (count : Nat) (here : stuck), ReflTransGen needs here.1 (next^[count] here).1 := by
    intro count
    induction count with
    | zero => exact fun here => .refl
    | succ count ih =>
      intro here
      rw [Function.iterate_succ_apply]
      exact .head (need here) (ih (next here))
  have : Finite stuck := finite
  obtain ⟨first, second, different, same⟩ :=
    Finite.exists_ne_map_eq_of_infinite fun count : Nat => next^[count] ⟨node, member⟩
  have closes : ∀ early late : Nat, early < late →
      next^[early] ⟨node, member⟩ = next^[late] ⟨node, member⟩ → LeadsToCycle needs node := by
    intro early late order same
    refine ⟨(next^[early] ⟨node, member⟩).1, walk early ⟨node, member⟩, ?_⟩
    obtain ⟨more, rfl⟩ : ∃ more, late = more + 1 + early := ⟨late - early - 1, by omega⟩
    rw [Function.iterate_add_apply, Function.iterate_succ_apply] at same
    have round := walk more (next (next^[early] ⟨node, member⟩))
    rw [← same] at round
    exact .head' (need _) round
  rcases Nat.lt_or_gt_of_ne different with ordered | ordered
  · exact closes first second ordered same
  · exact closes second first ordered same.symm

end DependencyOrder
