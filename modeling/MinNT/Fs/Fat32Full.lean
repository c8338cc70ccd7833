import MinNT.Fs.Fat32Allocate
import MinNT.Fs.Fat32Cycle
import MinNT.Fs.Fat32Grow

open ByteMemory
open WriteLog

namespace MinNT.Fat32

/-- The FAT is as it was, in memory and on the disk, and so are all clusters: those of the root
directory and those of the files. -/
structure Unchanged (v v' : Volume) : Prop where
  cache : ∀ cluster, cluster < v.fatEntries → v'.fatCache cluster = v.fatCache cluster
  fat : ∀ cluster, cluster < v.fatEntries → diskFatEntry v' cluster = diskFatEntry v cluster
  data : ∀ cluster, 2 ≤ cluster → clusterBytes v' cluster = clusterBytes v cluster

theorem Unchanged.refl (v : Volume) : Unchanged v v :=
  ⟨fun _ _ => rfl, fun _ _ => rfl, fun _ _ => rfl⟩

/-- The FAT has the end mark that the driver writes for the cluster, or no entry for it. -/
def EndMarked (v : Volume) (cluster : Nat) : Prop :=
  v.fatEntries ≤ cluster ∨
    (v.fatCache cluster = endOfChain ∧ diskFatEntry v cluster = encodeLE 4 endOfChain)

/-- The cluster that the chain from `start` on ends with; none is 0. -/
def LastCluster (v : Volume) (start last : Nat) : Prop :=
  (¬ Proper start ∧ last = 0) ∨ (OnChain v start last ∧ ¬ Proper (fat32GetFatEntry v last))

/-- There is no free cluster to begin with, and the chain of the file, if it is found, ends
with an end mark of the driver's. -/
def NothingTaken (findRoom : Bool) (v : Volume) (name : List UInt8) : Prop :=
  freeClusters v = [] ∧
    ∀ entry, fat32FindEntry findRoom v v.rootCluster name = some (.ok entry) →
      ∃ last, LastCluster v entry.firstCluster last ∧ EndMarked v last

variable {v : Volume}

theorem storedAddress_eq (geometry : Geometry v) {cluster : Nat} (inside : cluster < v.fatEntries) :
    storedAddress v cluster = fatEntryAddress v cluster ∧ StoreDefined v cluster := by
  have numbers := geometry.numbers
  rw [chainEnd] at numbers
  rw [storedAddress, fatEntryAddress, StoreDefined, geometry.sector]
  omega

theorem setEnd_unchanged_iff (geometry : Geometry v) (cluster : Nat) :
    Unchanged v (fat32SetFatEntry v cluster endOfChain).2 ↔ EndMarked v cluster := by
  rcases Nat.lt_or_ge cluster v.fatEntries with inside | outside
  · obtain ⟨address, ok⟩ := storedAddress_eq geometry inside
    have stored : put v.disk (fatStore v cluster endOfChain) =
        v.disk.write (fatEntryAddress v cluster) (encodeLE 4 endOfChain) := by
      rw [fatStore, put_bytes, address, endOfChain_mod.1]
    rw [fat32SetFatEntry_eq inside ok, endOfChain_mod.1, stored]
    constructor
    · intro unchanged
      have cache := unchanged.cache cluster inside
      have disk := unchanged.fat cluster inside
      refine .inr ⟨?_, ?_⟩
      · rw [← cache]
        exact Function.update_self cluster endOfChain v.fatCache
      · have written := read_write_same v.disk (fatEntryAddress v cluster) (encodeLE 4 endOfChain)
        rw [encodeLE_length] at written
        rw [← disk]
        exact written
    · rintro (out | ⟨cache, disk⟩)
      · exact absurd inside (Nat.not_lt.mpr out)
      · have same : v.disk.write (fatEntryAddress v cluster) (encodeLE 4 endOfChain) = v.disk := by
          have value : load v.disk 4 (fatEntryAddress v cluster) = endOfChain := by
            rw [load]
            change decodeLE (diskFatEntry v cluster) = endOfChain
            rw [disk, decodeLE_encodeLE]
            rfl
          have back := store_load v.disk 4 (fatEntryAddress v cluster)
          rwa [value] at back
        have entries : Function.update v.fatCache cluster endOfChain = v.fatCache := by
          rw [← cache]
          exact Function.update_eq_self cluster v.fatCache
        rw [same, entries]
        exact .refl v
  · rw [fat32SetFatEntry, if_pos outside]
    exact iff_of_true (.refl v) (.inl outside)

theorem walkChain_last (fuel : Nat) : ∀ {cur existing prev count last : Nat},
    walkChain v fuel cur existing prev = some (count, last) →
      (¬ Proper cur ∧ last = prev) ∨ (OnChain v cur last ∧ ¬ Proper (fat32GetFatEntry v last)) := by
  induction fuel with
  | zero => exact fun done => nomatch done
  | succ fuel ih =>
    intro cur existing prev count last done
    rw [walkChain] at done
    split at done
    · rename_i going
      have proper : Proper cur := ⟨going.2, going.1⟩
      right
      rcases ih done with ⟨ends, rfl⟩ | ⟨behind, ends⟩
      · exact ⟨⟨0, if_pos proper⟩, ends⟩
      · exact ⟨behind.later proper, ends⟩
    · rename_i ends
      cases done
      exact .inl ⟨fun proper => ends ⟨proper.2, proper.1⟩, rfl⟩

theorem LastCluster.unique {start last last' : Nat} (first : LastCluster v start last)
    (second : LastCluster v start last') : last = last' := by
  have proper : ∀ {cluster}, OnChain v start cluster → Proper start := by
    rintro cluster ⟨position, known⟩
    by_contra improper
    rw [clusterAt_improper improper] at known
    cases known
  have order : ∀ {cluster other position later}, clusterAt v start position = some cluster →
      clusterAt v start later = some other → ¬ Proper (fat32GetFatEntry v cluster) →
      position ≤ later → cluster = other := by
    intro cluster other position later here there ends before
    obtain ⟨further, rfl⟩ := Nat.exists_eq_add_of_le before
    rw [clusterAt_from position here] at there
    cases further with
    | zero =>
      rw [clusterAt, Option.ite_none_right_eq_some, Option.some_inj] at there
      exact there.2
    | succ further =>
      rw [clusterAt, clusterAt_improper ends, ite_self] at there
      cases there
  rcases first with ⟨improper, rfl⟩ | ⟨⟨position, here⟩, ends⟩
  · rcases second with ⟨_, rfl⟩ | ⟨onChain, _⟩
    · rfl
    · exact absurd (proper onChain) improper
  · rcases second with ⟨improper, _⟩ | ⟨⟨later, there⟩, ends'⟩
    · exact absurd (proper ⟨position, here⟩) improper
    · rcases Nat.le_total position later with before | behind
      · exact order here there ends before
      · exact (order there here ends' behind).symm

theorem not_unchanged_of_taken {v v' : Volume} {cluster : Nat} (free : cluster ∈ freeClusters v)
    (used : v'.fatCache cluster ≠ 0) : ¬ Unchanged v v' := by
  intro unchanged
  obtain ⟨inside, isFree⟩ := mem_freeClusters.mp free
  rw [unchanged.cache cluster inside.2, isFree] at used
  exact used rfl

theorem fat32AllocateChain_takes (small : v.fatEntries ≤ 2 ^ 28) {next : Nat}
    {rest : List Nat} (free : freeClusters v = next :: rest) (cur count : Nat) :
    (fat32AllocateChain v cur (count + 2)).2.fatCache next ≠ 0 := by
  obtain ⟨inside, _⟩ := mem_freeClusters.mp (show next ∈ freeClusters v by
    rw [free]
    exact List.mem_cons_self)
  have marked : (fat32SetFatEntry v next endOfChain).2.fatCache next ≠ 0 := by
    rw [fat32SetFatEntry_cache inside.2, endOfChain_mod.1]
    exact endOfChain_mod.2.1
  have nonzero : next % 2 ^ 28 ≠ 0 := by
    rw [Nat.mod_eq_of_lt (by omega)]
    omega
  have hung := KeepsUsed.set (fat32SetFatEntry v next endOfChain).2 cur nonzero
  have entries := hung.fatEntries.trans (fat32SetFatEntry_fatEntries v next endOfChain)
  rw [fat32AllocateChain, fat32FindFreeCluster_eq, free]
  exact (fat32AllocateChain_keepsUsed (count + 1) next (entries.trans_le small)).used next
    (hung.used next marked)

/-- When a failed extension leaves the volume unchanged. -/
theorem extendChain_full {v v' : Volume} (geometry : Geometry v) {start needed : Nat}
    {status : NtStatus} (done : extendChain v start needed = some (status, v'))
    (failed : ¬ ntSuccess status = true) :
    ∃ last, LastCluster v start last ∧
      (Unchanged v v' ↔ freeClusters v = [] ∧ EndMarked v last) := by
  have success : ntSuccess statusSuccess = true := by decide
  rw [extendChain] at done
  cases walked : walkChain v loopSteps start 0 0 with
  | none => simp [walked] at done
  | some counted =>
    obtain ⟨existing, last⟩ := counted
    rw [walked] at done
    dsimp only at done
    refine ⟨last, walkChain_last loopSteps walked, ?_⟩
    split at done
    · have allocated := Option.some.inj done
      obtain ⟨count, more⟩ : ∃ count, needed - existing = count + 1 :=
        ⟨needed - existing - 1, by omega⟩
      rw [more] at allocated
      cases count with
      | zero =>
        obtain ⟨rfl, _⟩ := Prod.mk.inj allocated
        exact absurd success failed
      | succ count =>
        cases free : freeClusters v with
        | nil =>
          rw [fat32AllocateChain, fat32FindFreeCluster_eq, free] at allocated
          obtain ⟨_, rfl⟩ := Prod.mk.inj allocated
          rw [setEnd_unchanged_iff geometry]
          exact (and_iff_right rfl).symm
        | cons next rest =>
          have takes := fat32AllocateChain_takes (geometry.numbers.trans (by decide)) free
            last count
          rw [allocated] at takes
          refine iff_of_false ?_ fun none => absurd none.1 (by simp)
          apply not_unchanged_of_taken _ takes
          rw [free]
          exact List.mem_cons_self
    · cases done
      exact absurd success failed

/-- A write that fails with a full disk or a full directory leaves the volume as it was if and
only if it could take nothing from the start. -/
theorem fat32WriteFile_full_unchanged_iff (v : Volume) (geometry : Geometry v) (room : WriteRoom)
    (stack : DirEntry) (name data : List UInt8) (result : WriteResult)
    (done : fat32WriteFile room stack v name data = some result)
    (full : result.status = statusDiskFull) :
    Unchanged v result.volume ↔ NothingTaken room.find v name := by
  have few : v.fatEntries ≤ 2 ^ 28 := geometry.numbers.trans (by decide)
  rw [fat32WriteFile, if_pos geometry.mounted] at done
  unfold NothingTaken
  cases search : fat32FindEntry room.find v v.rootCluster name with
  | none => simp [search] at done
  | some answer =>
    rw [search] at done
    cases answer with
    | error status =>
      rcases createFile_keepsUsed few done with ⟨empty, same⟩ | ⟨start, free, _, used⟩
      · rw [same]
        exact iff_of_true (.refl v) ⟨empty, fun entry found => absurd found (by simp)⟩
      · refine iff_of_false (not_unchanged_of_taken free used) fun nothing => ?_
        rw [nothing.1] at free
        cases free
    | ok entry =>
      dsimp only at done
      rw [overwriteFile] at done
      split at done
      · cases done
        cases full
      cases extended : extendChain v entry.firstCluster (clustersNeeded v data.length) with
      | none => simp [extended] at done
      | some answer =>
        rw [extended] at done
        dsimp only at done
        split at done
        · exact absurd full ((writeData_sameFat done).2 rfl)
        rename_i failed
        cases done
        obtain ⟨last, isLast, unchanged⟩ := extendChain_full geometry extended failed
        rw [unchanged]
        refine and_congr_right fun _ => ⟨fun marked other found => ?_, fun all => ?_⟩
        · cases found
          exact ⟨last, isLast, marked⟩
        · obtain ⟨last', isLast', marked⟩ := all entry rfl
          rw [isLast.unique isLast']
          exact marked

theorem growVolume_full : ∃ result,
    fat32WriteFile roomy [] growVolume [0x42] longData = some result ∧
      result.status = statusDiskFull ∧ result.volume.fatCache 4 = endOfChain := by
  have known : (fat32WriteFile roomy [] growVolume [0x42] longData).map
      (fun result => (result.status, result.volume.fatCache 4)) =
        some (statusDiskFull, endOfChain) := by decide +kernel
  obtain ⟨result, done, left⟩ := Option.map_eq_some_iff.mp known
  obtain ⟨status, cache⟩ := Prod.mk.inj left
  exact ⟨result, done, status, cache⟩

/-- A new file for which there is no room. -/
theorem growVolume_unchanged_iff : ∃ result,
    fat32WriteFile roomy [] growVolume [0x42] longData = some result ∧
      (Unchanged growVolume result.volume ↔ NothingTaken true growVolume [0x42]) := by
  obtain ⟨result, done, full, _⟩ := growVolume_full
  exact ⟨result, done, fat32WriteFile_full_unchanged_iff growVolume growVolume_wellFormed.geometry
    roomy [] [0x42] longData result done full⟩

/-- The cluster that was marked for the file stays marked. -/
theorem growVolume_not_unchanged :
    ¬ ∀ v root room stack name data result, WellFormed v root →
      fat32WriteFile room stack v name data = some result → result.status = statusDiskFull →
      Unchanged v result.volume := by
  intro all
  obtain ⟨result, done, full, left⟩ := growVolume_full
  have kept := (all growVolume [2] roomy [] [0x42] longData result growVolume_wellFormed done
    full).cache 4 (by decide)
  rw [left] at kept
  exact absurd kept (by decide)

end MinNT.Fat32
