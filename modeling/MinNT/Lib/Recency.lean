import Mathlib.Data.List.Dedup

/-! Keys in the order of their last use, in a place for so many of them. -/

namespace Recency

open List

variable {κ : Type} [DecidableEq κ]

/-- The keys after the use of one, the most recent first. One that is not there
takes the place of the least recent if there is no other. -/
def touch (capacity : Nat) (keys : List κ) (key : κ) : List κ :=
  key ::
    if key ∈ keys then keys.erase key
    else if keys.length < capacity then keys else keys.dropLast

variable {capacity : Nat} {keys : List κ} {key : κ}

theorem touch_nodup (once : keys.Nodup) (key : κ) : (touch capacity keys key).Nodup := by
  unfold touch
  by_cases held : key ∈ keys
  · rw [if_pos held]
    exact nodup_cons.mpr ⟨once.not_mem_erase, once.erase key⟩
  · rw [if_neg held]
    split
    · exact nodup_cons.mpr ⟨held, once⟩
    · refine nodup_cons.mpr ⟨?_, once.sublist (dropLast_sublist keys)⟩
      exact fun member => held ((dropLast_sublist keys).subset member)

theorem mem_touch_of_mem (once : keys.Nodup)
    (held : key ∈ keys) (other : κ) : other ∈ touch capacity keys key ↔ other ∈ keys := by
  rw [touch, if_pos held, mem_cons, once.mem_erase_iff]
  by_cases same : other = key
  · simp [same, held]
  · simp [same]

theorem touch_leads {recent keys set : List κ} (once : keys.Nodup)
    (leads : recent <+: keys) (within : recent ⊆ set) (member : key ∈ set)
    (fits : set.length ≤ capacity) : key :: recent.erase key <+: touch capacity keys key := by
  obtain ⟨older, rfl⟩ := leads
  rw [touch, cons_prefix_cons]
  refine ⟨rfl, ?_⟩
  by_cases held : key ∈ recent ++ older
  · rw [if_pos held]
    by_cases here : key ∈ recent
    · rw [erase_append_left _ here]
      exact prefix_append _ _
    · rw [erase_append_right _ here, erase_of_not_mem here]
      exact prefix_append _ _
  · rw [if_neg held]
    have notRecent : key ∉ recent := fun here => held (mem_append_left _ here)
    rw [erase_of_not_mem notRecent]
    -- With the key the recent ones are still no more than the set.
    have shorter : recent.length < capacity := by
      have distinct : (key :: recent).Nodup :=
        nodup_cons.mpr ⟨notRecent, (nodup_append.mp once).1⟩
      have all : key :: recent ⊆ set := cons_subset.mpr ⟨member, within⟩
      have length := distinct.length_le_of_subset all
      rw [length_cons] at length
      omega
    split
    · exact prefix_append _ _
    · rename_i full
      have more : older ≠ [] := by
        rintro rfl
        rw [append_nil] at full
        exact full shorter
      rw [dropLast_append_of_ne_nil more]
      exact prefix_append _ _

theorem mem_uses {set : List κ} (fits : set.length ≤ capacity) {uses : List κ} (all : uses ⊆ set)
    {recent keys : List κ} (once : keys.Nodup) (leads : recent <+: keys) (within : recent ⊆ set)
    (member : key ∈ uses ∨ key ∈ recent) : key ∈ uses.foldl (touch capacity) keys := by
  induction uses generalizing recent keys with
  | nil =>
    rcases member with impossible | here
    · cases impossible
    · exact leads.subset here
  | cons use uses ih =>
    obtain ⟨inSet, rest⟩ := cons_subset.mp all
    have next := touch_leads once leads within inSet fits
    apply ih rest (touch_nodup once use) next
    · exact cons_subset.mpr ⟨inSet, List.Subset.trans erase_subset within⟩
    · rcases member with now | here
      · rcases mem_cons.mp now with rfl | later
        · exact .inr mem_cons_self
        · exact .inl later
      · by_cases same : key = use
        · rw [same]
          exact .inr mem_cons_self
        · exact .inr (mem_cons_of_mem _ ((mem_erase_of_ne same).mpr here))

/-- After uses of no more different keys than there is place for, each of them is
there, whatever was there before. -/
theorem mem_foldl_touch {uses keys : List κ} (once : keys.Nodup)
    (fits : uses.dedup.length ≤ capacity) (member : key ∈ uses) :
    key ∈ uses.foldl (touch capacity) keys :=
  mem_uses fits (fun _ inside => mem_dedup.mpr inside) once ( nil_prefix)
    (nil_subset _) (.inl member)

/-- The number of uses since the last one of a key, and of all uses for a key that
was never used. The history has the latest use in front. -/
def age (history : List κ) (key : κ) : Nat := history.idxOf key

theorem age_cons_self (history : List κ) (key : κ) : age (key :: history) key = 0 :=
  idxOf_cons_self

theorem age_cons_ne (history : List κ) {key other : κ} (different : other ≠ key) :
    age (key :: history) other = age history other + 1 :=
  idxOf_cons_ne history (Ne.symm different)

/-- Every key was used later than all keys behind it. -/
def Sorted (history keys : List κ) : Prop :=
  keys.Pairwise (fun key older => age history key < age history older)

variable {history keys : List κ}

theorem Sorted.once (sorted : Sorted history keys) : keys.Nodup := by
  apply List.Pairwise.imp _ sorted
  intro key older less same
  rw [same] at less
  omega

theorem Sorted.use (sorted : Sorted history keys)
    (absent : key ∉ keys) : Sorted (key :: history) (key :: keys) := by
  have aged : ∀ other ∈ keys, age (key :: history) other = age history other + 1 := by
    intro other member
    apply age_cons_ne
    intro same
    exact absent (same ▸ member)
  apply pairwise_cons.mpr
  constructor
  · intro other member
    rw [age_cons_self, aged other member]
    omega
  · apply List.Pairwise.imp_of_mem _ sorted
    intro first second firstIn secondIn less
    rw [aged first firstIn, aged second secondIn]
    omega

theorem Sorted.touch (sorted : Sorted history keys) (capacity : Nat)
    (key : κ) : Sorted (key :: history) (touch capacity keys key) := by
  unfold Recency.touch
  by_cases held : key ∈ keys
  · rw [if_pos held]
    have fewer : Sorted history (keys.erase key) := sorted.sublist erase_sublist
    exact fewer.use sorted.once.not_mem_erase
  · rw [if_neg held]
    split
    · exact sorted.use held
    · have fewer : Sorted history keys.dropLast := sorted.sublist (dropLast_sublist keys)
      exact fewer.use (fun member => held ((dropLast_sublist keys).subset member))

theorem Sorted.foldl {history keys : List κ} (sorted : Sorted history keys) (capacity : Nat)
    (uses : List κ) :
    Sorted (uses.reverse ++ history) (uses.foldl (Recency.touch capacity) keys) := by
  induction uses generalizing history keys with
  | nil => exact sorted
  | cons use uses ih =>
    have next := ih (sorted.touch capacity use)
    rw [reverse_cons, append_assoc]
    exact next

theorem Sorted.oldest (sorted : Sorted history keys) (nonempty : keys ≠ []) (member : key ∈ keys)
    (other : key ≠ keys.getLast nonempty) :
    age history key < age history (keys.getLast nonempty) := by
  have shape := dropLast_append_getLast nonempty
  have front : key ∈ keys.dropLast := by
    rw [← shape] at member
    rcases mem_append.mp member with front | last
    · exact front
    · exact absurd (mem_singleton.mp last) other
  unfold Sorted at sorted
  rw [← shape, pairwise_append] at sorted
  exact sorted.2.2 key front _ (mem_singleton.mpr rfl)

theorem mem_touch_of_lt (absent : key ∉ keys) (place : keys.length < capacity) (other : κ) :
    other ∈ touch capacity keys key ↔ other = key ∨ other ∈ keys := by
  rw [touch, if_neg absent, if_pos place, mem_cons]

theorem mem_touch_of_full (once : keys.Nodup)
    (absent : key ∉ keys) (full : ¬ keys.length < capacity) (nonempty : keys ≠ []) (other : κ) :
    other ∈ touch capacity keys key ↔
      other = key ∨ other ∈ keys ∧ other ≠ keys.getLast nonempty := by
  rw [touch, if_neg absent, if_neg full, mem_cons]
  apply or_congr_right
  have shape := dropLast_append_getLast nonempty
  have apart := once
  rw [← shape, nodup_append] at apart
  constructor
  · intro front
    exact ⟨(dropLast_sublist keys).subset front, apart.2.2 other front _ (mem_singleton.mpr rfl)⟩
  · rintro ⟨member, different⟩
    rw [← shape] at member
    rcases mem_append.mp member with front | last
    · exact front
    · exact absurd (mem_singleton.mp last) different

/-- Uses of new keys while there is place for them. -/
theorem foldl_touch_fresh {uses keys : List κ} (once : uses.Nodup)
    (fresh : ∀ use ∈ uses, use ∉ keys) (fits : uses.length + keys.length ≤ capacity) :
    uses.foldl (touch capacity) keys = uses.reverse ++ keys := by
  induction uses generalizing keys with
  | nil => rfl
  | cons use uses ih =>
    obtain ⟨apart, rest⟩ := nodup_cons.mp once
    rw [length_cons] at fits
    have step : touch capacity keys use = use :: keys := by
      rw [touch, if_neg (fresh use mem_cons_self), if_pos (by omega)]
    rw [foldl_cons, step, ih rest]
    · simp
    · intro other member inside
      rcases mem_cons.mp inside with rfl | before
      · exact apart member
      · exact fresh other (mem_cons_of_mem _ member) before
    · rw [length_cons]
      omega

end Recency
