import MinNT.Fs.Fat32FollowChain
import MinNT.Lib.FuelLoop

namespace MinNT.Fat32

open FuelLoop SlotTable DirEntry Option

/-- The chain from `start` on comes back to one of its clusters. -/
def Cyclic (v : Volume) (start : Nat) : Prop :=
  ∃ first again cluster, first < again ∧ clusterAt v start first = some cluster ∧
    clusterAt v start again = some cluster

/-- The chain from `start` on passes the cluster. -/
def OnChain (v : Volume) (start cluster : Nat) : Prop :=
  ∃ position, clusterAt v start position = some cluster

/-- A step from a cluster to the next one, for a loop that goes on at clusters of a kind. -/
def chainStep (v : Volume) (goes : Nat → Bool) (cur : Nat) : Option Nat :=
  if Proper cur ∧ goes cur = true ∧ Proper (fat32GetFatEntry v cur) then
    some (fat32GetFatEntry v cur)
  else none

variable {v : Volume} {goes : Nat → Bool} {start : Nat}

theorem chainStep_eq_some {cur next : Nat} :
    chainStep v goes cur = some next ↔
      (Proper cur ∧ goes cur = true ∧ Proper (fat32GetFatEntry v cur)) ∧
        fat32GetFatEntry v cur = next := by
  unfold chainStep
  rw [ite_none_right_eq_some, some_inj]

theorem clusterAt_improper (improper : ¬ Proper start)
    (position : Nat) : clusterAt v start position = none := by
  cases position with
  | zero => exact if_neg improper
  | succ position => exact if_neg improper

theorem clusterAt_from {cluster : Nat} (position : Nat) :
    ∀ {start : Nat}, clusterAt v start position = some cluster → ∀ further,
      clusterAt v start (position + further) = clusterAt v cluster further := by
  induction position with
  | zero =>
    intro start known further
    rw [clusterAt, ite_none_right_eq_some, some_inj] at known
    rw [Nat.zero_add, known.2]
  | succ position ih =>
    intro start known further
    rw [clusterAt, ite_none_right_eq_some] at known
    rw [Nat.add_right_comm, clusterAt, if_pos known.1]
    exact ih known.2 further

theorem OnChain.later {cur cluster : Nat} (proper : Proper cur)
    (behind : OnChain v (fat32GetFatEntry v cur) cluster) : OnChain v cur cluster := by
  obtain ⟨position, known⟩ := behind
  exact ⟨position + 1, by rwa [clusterAt, if_pos proper]⟩

theorem after_chainStep (turns : Nat) (proper : Proper start) :
    after (chainStep v fun _ => true) turns start = clusterAt v start turns := by
  induction turns generalizing start with
  | zero => rw [after, clusterAt, if_pos proper]
  | succ turns ih =>
    rw [after, clusterAt, if_pos proper, chainStep]
    by_cases more : Proper (fat32GetFatEntry v start)
    · rw [if_pos ⟨proper, rfl, more⟩, bind_some, ih more]
    · rw [if_neg (fun all => more all.2.2), clusterAt_improper more, bind_none]

theorem chainStep_image (cur next : Nat)
    (step : chainStep v goes cur = some next) : next ∈ Finset.range chainEnd := by
  obtain ⟨all, rfl⟩ := chainStep_eq_some.mp step
  exact Finset.mem_range.mpr all.2.2.2

theorem forever_chainStep_positions :
    Forever (chainStep v goes) start ↔
      ∀ position, ∃ cluster, clusterAt v start position = some cluster ∧ goes cluster = true := by
  constructor
  · intro forever position
    induction position generalizing start with
    | zero =>
      obtain ⟨next, step, _⟩ := forever_step.mp forever
      obtain ⟨all, rfl⟩ := chainStep_eq_some.mp step
      exact ⟨start, if_pos all.1, all.2.1⟩
    | succ position ih =>
      obtain ⟨next, step, later⟩ := forever_step.mp forever
      obtain ⟨all, rfl⟩ := chainStep_eq_some.mp step
      rw [clusterAt, if_pos all.1]
      exact ih later
  · intro goesOn turns
    induction turns generalizing start with
    | zero => rfl
    | succ turns ih =>
      obtain ⟨first, here, going⟩ := goesOn 0
      obtain ⟨second, there, _⟩ := goesOn 1
      have proper : Proper start := by
        by_contra improper
        rw [clusterAt_improper improper] at here
        cases here
      obtain rfl : start = first := by
        rw [clusterAt, if_pos proper] at here
        exact Option.some.inj here
      have tail : ∀ position, clusterAt v start (position + 1) =
          clusterAt v (fat32GetFatEntry v start) position := fun _ => if_pos proper
      have more : Proper (fat32GetFatEntry v start) := by
        by_contra improper
        rw [tail, clusterAt_improper improper] at there
        cases there
      rw [after, chainStep, if_pos ⟨proper, going, more⟩]
      exact ih fun position => by
        rw [← tail]
        exact goesOn (position + 1)

theorem cyclic_iff : Cyclic v start ↔ ∀ position, (clusterAt v start position).isSome := by
  have same : ∀ {position cluster}, clusterAt v start position = some cluster →
      ∀ turns, after (chainStep v fun _ => true) turns start = clusterAt v start turns := by
    intro position cluster known turns
    apply after_chainStep
    by_contra improper
    rw [clusterAt_improper improper] at known
    cases known
  constructor
  · rintro ⟨first, again, cluster, less, here, there⟩
    have forever : Forever (chainStep v fun _ => true) start := by
      apply forever_of_repeat less
      · rw [same here, same here, here, there]
      · rw [same here, there]
        rfl
    intro position
    rw [← same here]
    exact forever position
  · intro endless
    obtain ⟨cluster, known⟩ := isSome_iff_exists.mp (endless 0)
    have long := endless ((Finset.range chainEnd).card + 1)
    rw [← same known] at long
    obtain ⟨first, again, less, repeats, there⟩ :=
      exists_repeat (Finset.range chainEnd) chainStep_image long
    rw [same known] at repeats there
    rw [same known] at repeats
    obtain ⟨cluster, there⟩ := isSome_iff_exists.mp there
    exact ⟨first, again, cluster, less, repeats.trans there, there⟩

theorem forever_chainStep :
    Forever (chainStep v goes) start ↔
      Cyclic v start ∧ ∀ cluster, OnChain v start cluster → goes cluster = true := by
  rw [forever_chainStep_positions, cyclic_iff]
  constructor
  · intro all
    refine ⟨fun position => ?_, ?_⟩
    · obtain ⟨cluster, here, _⟩ := all position
      rw [here]
      rfl
    · rintro cluster ⟨position, here⟩
      obtain ⟨other, there, going⟩ := all position
      rw [here] at there
      cases there
      exact going
  · rintro ⟨endless, going⟩ position
    obtain ⟨cluster, here⟩ := isSome_iff_exists.mp (endless position)
    exact ⟨cluster, here, going cluster ⟨position, here⟩⟩

theorem walkChain_controls (v : Volume) :
    Controls (fun fuel (state : Nat × Nat × Nat) => walkChain v fuel state.1 state.2.1 state.2.2)
      Prod.fst (chainStep v fun _ => true) where
  zero := fun _ => rfl
  turn := by
    rintro ⟨cur, existing, prev⟩ following step
    obtain ⟨all, rfl⟩ := chainStep_eq_some.mp step
    refine ⟨(fat32GetFatEntry v cur, (existing + 1) % 2 ^ 32, cur), rfl, fun fuel => ?_⟩
    exact if_pos ⟨all.1.2, all.1.1⟩
  stop := by
    rintro ⟨cur, existing, prev⟩ ends fuel
    dsimp only
    rw [walkChain]
    split
    · rename_i here
      rw [walkChain]
      split
      · rename_i more
        rw [chainStep, if_pos ⟨⟨here.2, here.1⟩, rfl, more.2, more.1⟩] at ends
        cases ends
      · rfl
    · rfl

theorem chainEnd_loopSteps : (Finset.range chainEnd).card + 2 ≤ loopSteps := by
  rw [Finset.card_range, loopSteps]
  decide

theorem walkChain_isSome_iff (v : Volume) (start existing prev : Nat) :
    (walkChain v loopSteps start existing prev).isSome ↔ ¬ Cyclic v start := by
  have ends := (walkChain_controls v).isSome_iff (Finset.range chainEnd) chainStep_image
    chainEnd_loopSteps (start, existing, prev)
  rw [forever_chainStep] at ends
  simpa using ends

/-- The cluster has no free slot. -/
def taken (v : Volume) (cluster : Nat) : Bool :=
  (clusterSlots v cluster).all fun slot => !isFree ended deleted slot

theorem taken_iff {cluster : Nat} :
    taken v cluster = true ↔ Full ended deleted (clusterSlots v cluster) := by
  simp [taken, Full]

theorem findIdx_taken {cluster : Nat} :
    (clusterSlots v cluster).findIdx? (isFree ended deleted) = none ↔
      taken v cluster = true := by
  rw [List.findIdx?_eq_none_iff, taken_iff]

theorem writeEntryFrom_controls (v : Volume) (entry : DirEntry) :
    Controls (fun fuel cur => writeEntryFrom v entry fuel cur) id (chainStep v (taken v)) where
  zero := fun _ => rfl
  turn := by
    intro cur following step
    obtain ⟨all, rfl⟩ := chainStep_eq_some.mp step
    refine ⟨fat32GetFatEntry v cur, rfl, fun fuel => ?_⟩
    obtain ⟨proper, full, next⟩ := all
    rw [id_eq] at proper full next
    rw [writeEntryFrom_step entry fuel proper.1 proper.2, findIdx_taken.mpr full]
    exact if_neg (fun ends => by
      have low := next.1
      have high := next.2
      omega)
  stop := by
    intro cur ends fuel
    rw [id_eq] at ends
    by_cases proper : Proper cur
    · rw [writeEntryFrom_step entry _ proper.1 proper.2]
      cases found : (clusterSlots v cur).findIdx? (isFree ended deleted) with
      | some index => rfl
      | none =>
        dsimp only
        split
        · rfl
        · have last : ¬ Proper (fat32GetFatEntry v cur) := by
            intro more
            rw [chainStep, if_pos ⟨proper, findIdx_taken.mp found, more⟩] at ends
            cases ends
          rw [writeEntryFrom, if_neg (fun more => last ⟨more.2, more.1⟩)]
          rfl
    · rw [writeEntryFrom, if_neg (fun here => proper ⟨here.2, here.1⟩)]
      rfl

/-- There is no slot for an entry in a directory whose chain comes back. -/
def EntryStuck (v : Volume) (dir : Nat) : Prop :=
  Cyclic v dir ∧ ∀ cluster, OnChain v dir cluster →
    Full ended deleted (clusterSlots v cluster)

theorem writeEntryFrom_isSome_iff (v : Volume) (entry : DirEntry) (dir : Nat) :
    (writeEntryFrom v entry loopSteps dir).isSome ↔ ¬ EntryStuck v dir := by
  have ends := (writeEntryFrom_controls v entry).isSome_iff (Finset.range chainEnd)
    chainStep_image chainEnd_loopSteps dir
  rw [forever_chainStep] at ends
  simp only [taken_iff] at ends
  exact ends

end MinNT.Fat32
