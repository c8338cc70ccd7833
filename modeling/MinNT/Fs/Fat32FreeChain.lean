import MinNT.Fs.Fat32Chain
import MinNT.Fs.Fat32FollowChain

namespace MinNT.Fat32

open Chain List

/-- A cluster of the FAT that the chain from `start` on leads to. -/
def Reachable (v : Volume) (start cluster : Nat) : Prop :=
  cluster < v.fatEntries ∧ ∃ position, clusterAt v start position = some cluster

theorem clusterAt_first {v : Volume} {start : Nat} (proper : Proper start) :
    clusterAt v start 0 = some start := if_pos proper

theorem clusterAt_next {v : Volume} {cluster : Nat} (proper : Proper (fat32GetFatEntry v cluster))
    (position : Nat) : ∀ start, clusterAt v start position = some cluster →
      clusterAt v start (position + 1) = some (fat32GetFatEntry v cluster) := by
  induction position with
  | zero =>
    intro start known
    rw [clusterAt] at known
    split at known
    · rename_i here
      cases known
      rw [clusterAt, if_pos here, clusterAt, if_pos proper]
    · cases known
  | succ position ih =>
    intro start known
    rw [clusterAt] at known
    split at known
    · rename_i here
      rw [clusterAt, if_pos here]
      exact ih _ known
    · cases known

/-- The loop that frees a chain, between two turns: the clusters freed so far are all
that the chain leads to, apart from what it leads to from `cur` on. -/
structure Freeing (v : Volume) (start cur : Nat) (freed : List Nat) (w : Volume) : Prop where
  entries : w.fatEntries = v.fatEntries
  cache : ∀ cluster, w.fatCache cluster = if cluster ∈ freed then 0 else v.fatCache cluster
  once : freed.Nodup
  inside : ∀ cluster ∈ freed, Proper cluster ∧ Reachable v start cluster
  reached : Proper cur → ∃ position, clusterAt v start position = some cur
  started : start ∈ freed ∨ start = cur
  closed : ∀ cluster ∈ freed, fat32GetFatEntry v cluster ∈ freed ∨ fat32GetFatEntry v cluster = cur

theorem Freeing.start (v : Volume) (start : Nat) : Freeing v start start [] v where
  entries := rfl
  cache := fun _ => rfl
  once := nodup_nil
  inside := fun _ member => absurd member not_mem_nil
  reached := fun proper => ⟨0, clusterAt_first proper⟩
  started := .inr rfl
  closed := fun _ member => absurd member not_mem_nil

section Freeing

variable {v w : Volume} {start cur : Nat} {freed : List Nat}

/-- When the walk stops, all that is reachable is free. -/
theorem Freeing.complete (inv : Freeing v start cur freed w)
    (stops : Proper cur → cur ∈ freed ∨ v.fatEntries ≤ cur) {cluster : Nat}
    (reachable : Reachable v start cluster) : cluster ∈ freed := by
  obtain ⟨inside, position, known⟩ := reachable
  have from_here : ∀ position current, current ∈ freed ∨ current = cur →
      clusterAt v current position = some cluster → cluster ∈ freed := by
    intro position
    induction position with
    | zero =>
      intro current source known
      rw [clusterAt] at known
      split at known
      · rename_i proper
        cases known
        rcases source with member | rfl
        · exact member
        · exact (stops proper).resolve_right (Nat.not_le.mpr inside)
      · cases known
    | succ position ih =>
      intro current source known
      rw [clusterAt] at known
      split at known
      · rename_i proper
        rcases source with member | rfl
        · exact ih _ (inv.closed current member) known
        · rcases stops proper with member | outside
          · exact ih _ (inv.closed current member) known
          · -- Behind the FAT every entry reads as an end mark.
            rw [fat32GetFatEntry, if_pos outside] at known
            cases position <;> simp [clusterAt, Proper, endOfChain, chainEnd] at known
      · cases known
  exact from_here position start inv.started known

theorem Freeing.result (inv : Freeing v start cur freed w)
    (stops : Proper cur → cur ∈ freed ∨ v.fatEntries ≤ cur) (cluster : Nat) :
    (Reachable v start cluster → w.fatCache cluster = 0) ∧
      (¬ Reachable v start cluster → w.fatCache cluster = v.fatCache cluster) := by
  constructor
  · intro reachable
    rw [inv.cache, if_pos (inv.complete stops reachable)]
  · intro unreachable
    rw [inv.cache, if_neg (fun member => unreachable (inv.inside cluster member).2)]

/-- Freeing one more cluster of the chain. -/
theorem Freeing.step (inv : Freeing v start cur freed w) (proper : Proper cur)
    (inside : cur < v.fatEntries) (fresh : cur ∉ freed) :
    Freeing v start (fat32GetFatEntry w cur) (cur :: freed) (fat32SetFatEntry w cur 0).2 := by
  have inside' : cur < w.fatEntries := by rw [inv.entries]; exact inside
  obtain ⟨position, here⟩ := inv.reached proper
  have next : fat32GetFatEntry w cur = fat32GetFatEntry v cur := by
    rw [fat32GetFatEntry_inside inside', fat32GetFatEntry_inside inside, inv.cache, if_neg fresh]
  rw [next]
  refine ⟨?_, ?_, nodup_cons.mpr ⟨fresh, inv.once⟩, ?_, ?_, ?_, ?_⟩
  · rw [fat32SetFatEntry_fatEntries, inv.entries]
  · intro cluster
    by_cases isCur : cluster = cur
    · subst isCur
      rw [if_pos mem_cons_self, fat32SetFatEntry_cache inside', Nat.zero_mod]
    · rw [fat32SetFatEntry_other isCur, inv.cache]
      simp [isCur]
  · intro cluster member
    rcases mem_cons.mp member with rfl | old
    · exact ⟨proper, inside, position, here⟩
    · exact inv.inside cluster old
  · exact fun more => ⟨position + 1, clusterAt_next more position start here⟩
  · rcases inv.started with member | rfl
    · exact .inl (mem_cons_of_mem _ member)
    · exact .inl mem_cons_self
  · intro cluster member
    rcases mem_cons.mp member with rfl | old
    · exact .inr rfl
    · rcases inv.closed cluster old with again | same
      · exact .inl (mem_cons_of_mem _ again)
      · rw [same]
        exact .inl mem_cons_self

/-- A turn at a cluster that has been freed or is outside of the FAT changes nothing and
is the last one: the entry reads as 0 or as an end mark. -/
theorem Freeing.last (inv : Freeing v start cur freed w) (proper : Proper cur)
    (stops : cur ∈ freed ∨ v.fatEntries ≤ cur) (fuel : Nat) :
    ∃ after, freeChain (fuel + 2) w cur = some after ∧
      ∀ cluster, after.fatCache cluster = w.fatCache cluster := by
  have unchanged : ∀ cluster,
      (fat32SetFatEntry w cur 0).2.fatCache cluster = w.fatCache cluster := by
    intro cluster
    by_cases isCur : cluster = cur
    · subst isCur
      rcases stops with member | outside
      · have free : w.fatCache cluster = 0 := by rw [inv.cache, if_pos member]
        rcases Nat.lt_or_ge cluster w.fatEntries with inside | outside
        · rw [fat32SetFatEntry_cache inside, free, Nat.zero_mod]
        · rw [fat32SetFatEntry, if_pos outside]
      · rw [fat32SetFatEntry, if_pos (by rw [inv.entries]; exact outside)]
    · exact fat32SetFatEntry_other isCur 0
  have ends : ¬ Proper (fat32GetFatEntry w cur) := by
    rcases Nat.lt_or_ge cur w.fatEntries with inside | outside
    · have member := stops.resolve_right (by rw [← inv.entries]; omega)
      rw [fat32GetFatEntry_inside inside, inv.cache, if_pos member]
      decide
    · rw [fat32GetFatEntry, if_pos outside]
      decide
  refine ⟨_, ?_, unchanged⟩
  rw [freeChain, if_pos ⟨proper.2, proper.1⟩, freeChain, if_neg (fun more => ends ⟨more.2, more.1⟩)]

theorem freeChain_freeing (fuel : Nat) :
    ∀ {w : Volume} {cur : Nat} {freed : List Nat}, Freeing v start cur freed w →
      chainEnd + 2 ≤ freed.length + fuel →
      ∃ after, freeChain fuel w cur = some after ∧ ∀ cluster,
        (Reachable v start cluster → after.fatCache cluster = 0) ∧
          (¬ Reachable v start cluster → after.fatCache cluster = v.fatCache cluster) := by
  induction fuel with
  | zero =>
    intro w cur freed inv enough
    have few := length_le_of_nodup inv.once (fun cluster member => (inv.inside cluster member).1.2)
    omega
  | succ fuel ih =>
    intro w cur freed inv enough
    have few := length_le_of_nodup inv.once (fun cluster member => (inv.inside cluster member).1.2)
    by_cases proper : Proper cur
    · by_cases new : cur < v.fatEntries ∧ cur ∉ freed
      · rw [freeChain, if_pos ⟨proper.2, proper.1⟩]
        exact ih (inv.step proper new.1 new.2) (by rw [length_cons]; omega)
      obtain ⟨fuel, rfl⟩ : ∃ less, fuel = less + 1 := ⟨fuel - 1, by omega⟩
      have stops : cur ∈ freed ∨ v.fatEntries ≤ cur := by
        by_contra both
        rw [not_or] at both
        exact new ⟨Nat.lt_of_not_le both.2, both.1⟩
      obtain ⟨after, done, same⟩ := inv.last proper stops fuel
      refine ⟨after, done, fun cluster => ?_⟩
      rw [same]
      exact inv.result (fun _ => stops) cluster
    · refine ⟨w, ?_, inv.result (fun here => absurd here proper)⟩
      rw [freeChain, if_neg (fun more => proper ⟨more.2, more.1⟩)]

end Freeing

/-- The loop that frees a chain ends on every FAT. The entries that are 0 afterwards are
those that were 0 before and those of the clusters the chain leads to. -/
theorem freeChain_frees_reachable (v : Volume) (start : Nat) :
    ∃ after, freeChain loopSteps v start = some after ∧
      (∀ cluster, after.fatCache cluster = 0 ↔
        v.fatCache cluster = 0 ∨ Reachable v start cluster) ∧
      ∀ cluster, ¬ Reachable v start cluster → after.fatCache cluster = v.fatCache cluster := by
  obtain ⟨after, done, freed⟩ := freeChain_freeing loopSteps (Freeing.start v start) (by
    rw [loopSteps]
    decide)
  refine ⟨after, done, ?_, fun cluster => (freed cluster).2⟩
  intro cluster
  by_cases reachable : Reachable v start cluster
  · exact iff_of_true ((freed cluster).1 reachable) (.inr reachable)
  · rw [(freed cluster).2 reachable]
    simp [reachable]

end MinNT.Fat32
