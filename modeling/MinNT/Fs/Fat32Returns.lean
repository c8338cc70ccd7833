import MinNT.Fs.Fat32Create
import MinNT.Fs.Fat32FreeChain
import MinNT.Fs.Fat32Stuck

open Chain
open SlotTable

namespace MinNT.Fat32

variable {v v' : Volume} {start : Nat}

theorem clusterAt_congr (same : ∀ cluster, OnChain v start cluster →
      fat32GetFatEntry v' cluster = fat32GetFatEntry v cluster) (position : Nat) :
    clusterAt v' start position = clusterAt v start position := by
  induction position generalizing start with
  | zero => rfl
  | succ position ih =>
    rw [clusterAt, clusterAt]
    by_cases proper : Proper start
    · rw [if_pos proper, if_pos proper, same start ⟨0, clusterAt_first proper⟩]
      apply ih
      rintro cluster ⟨later, known⟩
      refine same cluster ⟨later + 1, ?_⟩
      rwa [clusterAt, if_pos proper]
    · rw [if_neg proper, if_neg proper]

theorem onChain_congr (same : ∀ cluster, OnChain v start cluster →
      fat32GetFatEntry v' cluster = fat32GetFatEntry v cluster) (cluster : Nat) :
    OnChain v' start cluster ↔ OnChain v start cluster := by
  unfold OnChain
  simp only [clusterAt_congr same]

theorem cyclic_congr (same : ∀ cluster, OnChain v start cluster →
      fat32GetFatEntry v' cluster = fat32GetFatEntry v cluster) :
    Cyclic v' start ↔ Cyclic v start := by
  rw [cyclic_iff, cyclic_iff]
  simp only [clusterAt_congr same]

variable {v : Volume}

theorem Cyclic.from_onChain {start cluster : Nat} (cyclic : Cyclic v start)
    (onChain : OnChain v start cluster) : Cyclic v cluster := by
  obtain ⟨position, known⟩ := onChain
  rw [cyclic_iff] at cyclic ⊢
  intro further
  rw [← clusterAt_from position known further]
  exact cyclic (position + further)

theorem Cyclic.next {v : Volume} {start : Nat} (cyclic : Cyclic v start) :
    Proper (fat32GetFatEntry v start) := by
  have second := cyclic_iff.mp cyclic 1
  rw [clusterAt, if_pos cyclic.proper] at second
  by_contra improper
  rw [clusterAt_improper improper] at second
  cases second

theorem Cyclic.tail (cyclic : Cyclic v start) : Cyclic v (fat32GetFatEntry v start) := by
  apply cyclic.from_onChain ⟨1, ?_⟩
  rw [clusterAt, if_pos cyclic.proper, clusterAt, if_pos cyclic.next]

theorem Cyclic.used (cyclic : Cyclic v start) : start < v.fatEntries ∧ v.fatCache start ≠ 0 := by
  have next := cyclic.next
  unfold fat32GetFatEntry at next
  split at next
  · exact absurd next.2 (by decide)
  · rename_i inside
    refine ⟨Nat.lt_of_not_le inside, fun free => ?_⟩
    rw [free, Nat.zero_mod] at next
    exact absurd next.1 (by decide)

theorem ChainOf.not_cyclic {cells : List Nat}
    (chain : ChainOf v start cells) : ¬ Cyclic v start := by
  intro cyclic
  induction cells generalizing start with
  | nil =>
    have ends : chainEnd ≤ start := chain.linked
    have proper := cyclic.proper
    exact absurd proper.2 (Nat.not_lt.mpr ends)
  | cons cluster cells ih =>
    obtain rfl : start = cluster := chain.linked.1
    exact ih chain.tail cyclic.tail

theorem ChainOf.member_not_cyclic {start cluster : Nat} {cells : List Nat}
    (chain : ChainOf v start cells) (member : cluster ∈ cells) : ¬ Cyclic v cluster := by
  obtain ⟨front, back, split, linked⟩ := chain.linked.from_mem member
  have tail : ChainOf v cluster (cluster :: back) := ⟨linked, fun other inside =>
    chain.inside other (by rw [split]; exact List.mem_append_right _ inside)⟩
  exact tail.not_cyclic

theorem not_cyclic_of_free {cluster : Nat} (free : v.fatCache cluster = 0) : ¬ Cyclic v cluster :=
  fun cyclic => cyclic.used.2 free

theorem cyclic_changes {entries clusters : List Nat}
    (changes : Changes v v' entries clusters) (before : ∀ cluster ∈ entries, ¬ Cyclic v cluster)
    (ends : ∀ cluster ∈ entries, ¬ Cyclic v' cluster) (start : Nat) :
    (Cyclic v' start ↔ Cyclic v start) ∧
      (Cyclic v start → ∀ cluster, OnChain v' start cluster ↔ OnChain v start cluster) := by
  have same : Cyclic v start → ∀ cluster, OnChain v start cluster →
      fat32GetFatEntry v' cluster = fat32GetFatEntry v cluster := fun cyclic cluster onChain =>
    changes.next fun member => before cluster member (cyclic.from_onChain onChain)
  refine ⟨⟨fun cyclic => ?_, fun cyclic => (cyclic_congr (same cyclic)).mpr cyclic⟩,
    fun cyclic => onChain_congr (same cyclic)⟩
  have back : ∀ cluster, OnChain v' start cluster →
      fat32GetFatEntry v cluster = fat32GetFatEntry v' cluster := fun cluster onChain =>
    (changes.next fun member => ends cluster member (cyclic.from_onChain onChain)).symm
  exact (cyclic_congr back).mpr cyclic

theorem freeChain_changes (fuel : Nat) :
    ∀ {v after : Volume} {cur : Nat}, Geometry v → freeChain fuel v cur = some after →
      Changes v after (List.range v.fatEntries) [] := by
  induction fuel with
  | zero => exact fun _ done => nomatch done
  | succ fuel ih =>
    intro v after cur geometry done
    rw [freeChain] at done
    split at done
    · have first : Changes v (fat32SetFatEntry v cur 0).2 (List.range v.fatEntries) [] := by
        rcases Nat.lt_or_ge cur v.fatEntries with inside | outside
        · refine (fat32SetFatEntry_changes geometry cur 0).mono ?_ (List.Subset.refl _)
          exact List.cons_subset.mpr ⟨List.mem_range.mpr inside, List.nil_subset _⟩
        · rw [fat32SetFatEntry, if_pos outside]
          exact .refl v _ _
      have rest := ih (first.geometry geometry) done
      rw [first.fatEntries] at rest
      exact first.trans rest
    · cases done
      exact .refl v _ _

/-- A deletion goes round the root directory for a slot if all slots there are taken, and
the file's chain, which is free by then, did not meet that of the directory. -/
def DeleteStuck (v : Volume) (entry : DirEntry) : Prop :=
  EntryStuck v v.rootCluster ∧
    ∀ cluster, OnChain v v.rootCluster cluster → ¬ OnChain v entry.firstCluster cluster

/-- A directory is stuck behind the freed chain if it was and does not meet it. -/
theorem entryStuck_freed {v after : Volume} (geometry : Geometry v) {start dir : Nat}
    (freed : freeChain loopSteps v start = some after) :
    EntryStuck after dir ↔
      EntryStuck v dir ∧ ∀ cluster, OnChain v dir cluster → ¬ OnChain v start cluster := by
  have changes := freeChain_changes loopSteps geometry freed
  obtain ⟨_, done, cache⟩ := freeChain_freeing loopSteps (Freeing.start v start) (by
    rw [loopSteps]
    decide)
  rw [freed] at done
  cases done
  have slots : ∀ cluster, 2 ≤ cluster → clusterSlots after cluster = clusterSlots v cluster :=
    fun cluster proper => clusterSlots_changes changes proper List.not_mem_nil
  have kept : ∀ cluster, ¬ Reachable v start cluster →
      fat32GetFatEntry after cluster = fat32GetFatEntry v cluster := by
    intro cluster unreachable
    unfold fat32GetFatEntry
    rw [changes.fatEntries, (cache cluster).2 unreachable]
  constructor
  · rintro ⟨cyclic, full⟩
    -- What is left of the directory's chain was not freed, so it was there before.
    have apart : ∀ cluster, OnChain after dir cluster → ¬ Reachable v start cluster :=
      fun cluster onChain reachable =>
        (cyclic.from_onChain onChain).used.2 ((cache cluster).1 reachable)
    have same : ∀ cluster, OnChain after dir cluster →
        fat32GetFatEntry v cluster = fat32GetFatEntry after cluster := fun cluster onChain =>
      (kept cluster (apart cluster onChain)).symm
    have cyclicBefore : Cyclic v dir := (cyclic_congr same).mpr cyclic
    refine ⟨⟨cyclicBefore, fun cluster onChain => ?_⟩, fun cluster onChain meets => ?_⟩
    · rw [← slots cluster (cyclicBefore.from_onChain onChain).proper.1]
      exact full cluster ((onChain_congr same cluster).mp onChain)
    · exact apart cluster ((onChain_congr same cluster).mp onChain)
        ⟨(cyclicBefore.from_onChain onChain).used.1, meets⟩
  · rintro ⟨⟨cyclic, full⟩, apart⟩
    have same : ∀ cluster, OnChain v dir cluster →
        fat32GetFatEntry after cluster = fat32GetFatEntry v cluster := fun cluster onChain =>
      kept cluster fun reachable => apart cluster onChain reachable.2
    refine ⟨(cyclic_congr same).mpr cyclic, fun cluster onChain => ?_⟩
    have before := (onChain_congr same cluster).mp onChain
    rw [slots cluster (cyclic.from_onChain before).proper.1]
    exact full cluster before

/-- A deletion returns unless a search or a chain runs forever. -/
theorem fat32DeleteFile_returns_iff (v : Volume) (geometry : Geometry v) (name : List UInt8) :
    (∀ room, (fat32DeleteFile room v name).isSome) ↔
      ¬ SearchStuck v v.rootCluster 64 ∧ ∀ entry, Found v name entry → ¬ DeleteStuck v entry := by
  have deletes : ∀ (room : Bool × Bool) (entry : DirEntry),
      fat32FindEntry room.1 v v.rootCluster name = some (.ok entry) →
      ((fat32DeleteFile room v name).isSome ↔ (room.2 = true → ¬ DeleteStuck v entry)) := by
    intro room entry found
    obtain ⟨after, freed, _⟩ := freeChain_freeing loopSteps (Freeing.start v entry.firstCluster) (by
      rw [loopSteps]
      decide)
    have changes := freeChain_changes loopSteps geometry freed
    rw [DeleteStuck, ← entryStuck_freed geometry freed,
      fat32DeleteFile_run geometry.mounted found freed, fat32WriteDirectoryEntry,
      changes.rootCluster]
    cases room.2 with
    | false => exact iff_of_true rfl fun none => absurd none Bool.false_ne_true
    | true =>
      rw [if_pos rfl, writeEntryFrom_isSome_iff]
      exact (imp_iff_right rfl).symm
  rw [← fat32FindEntry_returns_iff v v.rootCluster name]
  constructor
  · intro returns
    refine ⟨fun room => ?_, fun entry found => ?_⟩
    · have all := returns (room, true)
      rw [fat32DeleteFile, if_pos geometry.mounted] at all
      cases search : fat32FindEntry room v v.rootCluster name with
      | none => simp [search] at all
      | some result => rfl
    · exact (deletes (true, true) entry found).mp (returns (true, true)) rfl
  · rintro ⟨searches, stores⟩ room
    obtain ⟨result, search⟩ := Option.isSome_iff_exists.mp (searches room.1)
    cases result with
    | error status =>
      rw [fat32DeleteFile, if_pos geometry.mounted, search]
      rfl
    | ok entry =>
      exact (deletes room entry search).mpr fun _ => stores entry (.of_search search)

end MinNT.Fat32
