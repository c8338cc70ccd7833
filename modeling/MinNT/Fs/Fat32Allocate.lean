import MinNT.Fs.Fat32Chain
import MinNT.Lib.WriteLog

namespace MinNT.Fat32

open ByteMemory Chain WriteLog List Function

/-- Where the mount reads the FAT entry of a cluster. -/
def fatEntryAddress (v : Volume) (cluster : Nat) : Nat := v.fatStart * 512 + 4 * cluster

/-- The bytes of a FAT entry on the disk. -/
def diskFatEntry (v : Volume) (cluster : Nat) : List UInt8 :=
  v.disk.read (fatEntryAddress v cluster) 4

/-- Where `Fat32SetFatEntry` writes the FAT entry of a cluster: its sectors are of the
volume's size, the blocks of the disk are of 512 bytes. -/
def storedAddress (v : Volume) (cluster : Nat) : Nat :=
  (v.fatStart + cluster * 4 % 2 ^ 32 / v.bytesPerSector) * 512 +
    cluster * 4 % 2 ^ 32 % v.bytesPerSector

/-- `Fat32SetFatEntry` neither divides by zero nor stores behind `sector_buf`. -/
def StoreDefined (v : Volume) (cluster : Nat) : Prop :=
  0 < v.bytesPerSector ∧ cluster * 4 % 2 ^ 32 % v.bytesPerSector + 4 ≤ 512

instance (v : Volume) (cluster : Nat) : Decidable (StoreDefined v cluster) :=
  inferInstanceAs (Decidable (_ ∧ _))

/-- The store of one FAT entry to the disk. -/
def fatStore (v : Volume) (cluster value : Nat) : Write :=
  bytes (storedAddress v cluster) (encodeLE 4 (value % 2 ^ 28))

variable {v : Volume}

theorem fat32SetFatEntry_eq {cluster : Nat} (inside : cluster < v.fatEntries)
    (ok : StoreDefined v cluster) (value : Nat) :
    (fat32SetFatEntry v cluster value).2 =
      { v with
        fatCache := update v.fatCache cluster (value % 2 ^ 28)
        disk := put v.disk (fatStore v cluster value) } := by
  unfold fat32SetFatEntry
  rw [if_neg (Nat.not_le.mpr inside)]
  have length : (encodeLE 4 (value % 2 ^ 28)).length = 4 := encodeLE_length 4 _
  have patched := write_patched v.disk
    ((v.fatStart + cluster * 4 % 2 ^ 32 / v.bytesPerSector) * 512) (1 * 512)
    (cluster * 4 % 2 ^ 32 % v.bytesPerSector) (encodeLE 4 (value % 2 ^ 28)) (by
      rw [length]
      exact ok.2)
  rw [length] at patched
  dsimp only [fat32WriteSectors, fat32ReadSectors]
  rw [patched]
  rfl

/-- The clusters that `Fat32AllocateChain` hands to `Fat32SetFatEntry`. -/
def setClusters : Volume → Nat → Nat → List Nat
  | _, _, 0 => []
  | _, cur, 1 => [cur]
  | v, cur, count + 2 =>
      match fat32FindFreeCluster v with
      | .error _ => [cur]
      | .ok next =>
          next :: cur :: setClusters
            (fat32SetFatEntry (fat32SetFatEntry v next endOfChain).2 cur next).2 next (count + 1)

/-- The chain from `start` consists of `count` different clusters and ends, all but
the first were free, and no other FAT entry has changed. -/
structure ChainAllocated (v after : Volume) (start count : Nat) (new : List Nat) : Prop where
  length : new.length + 1 = count
  once : (start :: new).Nodup
  linked : Linked (fat32GetFatEntry after) (chainEnd ≤ ·) start (start :: new)
  proper : ∀ cluster ∈ new, 2 ≤ cluster ∧ cluster < chainEnd
  free : ∀ cluster ∈ new, v.fatCache cluster = 0
  cache : ∀ cluster, cluster < v.fatEntries → cluster ∉ start :: new →
    after.fatCache cluster = v.fatCache cluster
  disk : ∀ cluster, cluster < v.fatEntries → cluster ∉ start :: new →
    diskFatEntry after cluster = diskFatEntry v cluster

/-- What allocating a chain should do, whatever is on the disk. -/
def AllocationRight (v : Volume) (start count : Nat) : Prop :=
  ∀ disk,
    (∀ cluster ∈ setClusters { v with disk := disk } start count, StoreDefined v cluster) ∧
    (ntSuccess (fat32AllocateChain { v with disk := disk } start count).1 = false ↔
      (freeClusters v).length < count - 1) ∧
    (ntSuccess (fat32AllocateChain { v with disk := disk } start count).1 = true →
      ∃ new, ChainAllocated { v with disk := disk }
        (fat32AllocateChain { v with disk := disk } start count).2 start count new)

/-- The clusters that a request for `count` clusters takes. -/
def takenClusters (v : Volume) (count : Nat) : List Nat := (freeClusters v).take (count - 1)

/-- The stores stay inside `sector_buf`, the numbers that are stored fit into a FAT
entry, and if there are enough free clusters, none of their numbers is a mark and no
store hits the entry of another cluster. -/
def AllocationCovered (v : Volume) (start count : Nat) : Prop :=
  (∀ cluster ∈ start :: takenClusters v count, StoreDefined v cluster) ∧
    (∀ cluster ∈ takenClusters v count, cluster < 2 ^ 28) ∧
    (count ≤ (freeClusters v).length + 1 →
      (∀ cluster ∈ takenClusters v count, cluster < chainEnd) ∧
      ∀ cluster ∈ start :: takenClusters v count, ∀ other, other < v.fatEntries →
        other ∉ start :: takenClusters v count →
        storedAddress v cluster + 4 ≤ fatEntryAddress v other ∨
          fatEntryAddress v other + 4 ≤ storedAddress v cluster)

theorem mem_setClusters {cluster : Nat} (count : Nat) :
    ∀ {v : Volume} {cur : Nat}, cur < v.fatEntries → v.fatCache cur ≠ 0 →
      (∀ other ∈ (freeClusters v).take count, other < 2 ^ 28) →
      (cluster ∈ setClusters v cur (count + 1) ↔ cluster ∈ cur :: (freeClusters v).take count) := by
  induction count with
  | zero =>
    intro v cur _ _ _
    rw [take_zero]
    rfl
  | succ count ih =>
    intro v cur inside used small
    rw [setClusters, fat32FindFreeCluster_eq]
    cases free : freeClusters v with
    | nil => simp
    | cons next rest =>
      rw [free, take_succ_cons] at small
      obtain ⟨nextInside, nextFree, different⟩ := freeClusters_head free used
      have nextSmall := small next mem_cons_self
      have left := freeClusters_linked free inside used nextSmall
      have later := @ih (linked v cur next) next (by rw [linked_fatEntries]; exact nextInside.2)
        (linked_used inside nextInside.2 nextSmall different)
        (by rw [left]; exact fun other member => small other (mem_cons_of_mem _ member))
      rw [left] at later
      have split : cluster ∈ setClusters (linked v cur next) next (count + 1) ↔
          cluster = next ∨ cluster ∈ rest.take count := later.trans mem_cons
      rw [take_succ_cons]
      show cluster ∈ next :: cur :: setClusters (linked v cur next) next (count + 1) ↔ _
      simp only [mem_cons, split]
      tauto

theorem linked_eq {cur next : Nat} (inside : cur < v.fatEntries)
    (nextInside : next < v.fatEntries) (small : next < 2 ^ 28) (ok : StoreDefined v cur)
    (nextOk : StoreDefined v next) (disk : ByteMemory) :
    linked { v with disk := disk } cur next =
      { v with
        fatCache := update (update v.fatCache next endOfChain) cur next
        disk := replay disk [fatStore v next endOfChain, fatStore v cur next] } := by
  have marked := fat32SetFatEntry_eq (v := { v with disk := disk }) nextInside nextOk endOfChain
  rw [endOfChain_mod.1] at marked
  rw [linked, marked]
  have second := fat32SetFatEntry_eq
    (v := { v with
      fatCache := update v.fatCache next endOfChain
      disk := put disk (fatStore v next endOfChain) }) inside ok next
  rw [Nat.mod_eq_of_lt small] at second
  exact second

/-- What allocating `cells`, the first of which is `cur`, leaves behind whatever the disk
holds: a chain in the cache, and the stores of its entries. -/
structure Allocates (v : Volume) (cur count : Nat) (cells : List Nat) (fatCache : Nat → Nat)
    (log : List Write) : Prop where
  done : ∀ disk, fat32AllocateChain { v with disk := disk } cur count =
    (statusSuccess, { v with fatCache := fatCache, disk := replay disk log })
  chain : Linked fatCache (· = endOfChain) cur cells
  others : ∀ cluster, cluster ∉ cells → fatCache cluster = v.fatCache cluster
  stored : ∀ cluster ∈ cells, ∃ value, fatStore v cluster value ∈ log
  stores : ∀ write ∈ log, ∃ cluster ∈ cells, ∃ value, write = fatStore v cluster value

theorem Allocates.last {cur : Nat} (inside : cur < v.fatEntries) (ok : StoreDefined v cur) :
    Allocates v cur 1 [cur] (update v.fatCache cur endOfChain) [fatStore v cur endOfChain] := by
  refine ⟨?_, linked_singleton cur (update_self _ _ _), ?_, ?_, ?_⟩
  · intro disk
    have set := fat32SetFatEntry_eq (v := { v with disk := disk }) inside ok endOfChain
    rw [endOfChain_mod.1] at set
    rw [fat32AllocateChain, set]
    rfl
  · intro cluster outside
    exact update_of_ne (by simpa using outside) _ _
  · intro cluster member
    rw [mem_singleton.mp member]
    exact ⟨endOfChain, mem_singleton_self _⟩
  · intro write member
    exact ⟨cur, mem_singleton_self _, endOfChain, mem_singleton.mp member⟩

/-- One more cluster linked in front of what the rest allocates. -/
theorem Allocates.step {v : Volume} {cur next count : Nat} {rest cells : List Nat}
    {fatCache : Nat → Nat} {log : List Write} (free : freeClusters v = next :: rest)
    (inside : cur < v.fatEntries) (used : v.fatCache cur ≠ 0) (small : next < 2 ^ 28)
    (ok : StoreDefined v cur) (nextOk : StoreDefined v next) (fresh : cur ∉ next :: cells)
    (later : Allocates (linked v cur next) next (count + 1) (next :: cells) fatCache log) :
    Allocates v cur (count + 2) (cur :: next :: cells) fatCache
      ([fatStore v next endOfChain, fatStore v cur next] ++ log) := by
  obtain ⟨nextInside, _, different⟩ := freeClusters_head free used
  have link := linked_eq inside nextInside.2 small ok nextOk
  have shape := link v.disk
  rw [show ({ v with disk := v.disk } : Volume) = v from rfl] at shape
  have linkedCache := linked_fatCache inside nextInside.2 small
  refine ⟨?_, ?_, ?_, ?_, ?_⟩
  · intro disk
    have again := later.done (replay disk [fatStore v next endOfChain, fatStore v cur next])
    rw [shape] at again
    rw [fat32AllocateChain, fat32FindFreeCluster_eq,
      show freeClusters { v with disk := disk } = next :: rest from free]
    dsimp only
    rw [show (fat32SetFatEntry (fat32SetFatEntry { v with disk := disk } next endOfChain).2
      cur next).2 = linked { v with disk := disk } cur next from rfl, link disk, again,
      replay_append]
  · refine ⟨rfl, ?_⟩
    rw [later.others cur fresh, linkedCache, update_self]
    exact later.chain
  · intro cluster outside
    rw [mem_cons, not_or] at outside
    have notNext : cluster ≠ next := by
      rintro rfl
      exact outside.2 mem_cons_self
    rw [later.others cluster outside.2, linkedCache, update_of_ne outside.1, update_of_ne notNext]
  · intro cluster member
    rcases mem_cons.mp member with rfl | behind
    · exact ⟨next, by simp⟩
    · obtain ⟨value, inLog⟩ := later.stored cluster behind
      rw [shape] at inLog
      exact ⟨value, mem_append_right _ inLog⟩
  · intro write member
    rcases mem_append.mp member with first | behind
    · simp only [mem_cons, not_mem_nil, or_false] at first
      rcases first with rfl | rfl
      · exact ⟨next, mem_cons_of_mem _ mem_cons_self, endOfChain, rfl⟩
      · exact ⟨cur, mem_cons_self, next, rfl⟩
    · obtain ⟨cluster, inChain, value, rfl⟩ := later.stores write behind
      rw [shape]
      exact ⟨cluster, mem_cons_of_mem _ inChain, value, rfl⟩

theorem fat32AllocateChain_enough (count : Nat) :
    ∀ {v : Volume} {cur : Nat}, cur < v.fatEntries → v.fatCache cur ≠ 0 →
      count ≤ (freeClusters v).length →
      (∀ cluster ∈ (freeClusters v).take count, cluster < 2 ^ 28) →
      (∀ cluster ∈ cur :: (freeClusters v).take count, StoreDefined v cluster) →
      ∃ fatCache log,
        Allocates v cur (count + 1) (cur :: (freeClusters v).take count) fatCache log := by
  induction count with
  | zero =>
    intro v cur inside _ _ _ ok
    exact ⟨_, _, .last inside (ok cur mem_cons_self)⟩
  | succ count ih =>
    intro v cur inside used enough small ok
    have fresh := notTaken_of_used used (count + 1)
    cases free : freeClusters v with
    | nil => simp [free] at enough
    | cons next rest =>
      rw [free] at enough
      rw [free, take_succ_cons] at small ok fresh
      obtain ⟨nextInside, _, different⟩ := freeClusters_head free used
      have nextSmall := small next mem_cons_self
      have ok' := ok cur mem_cons_self
      have nextOk := ok next (mem_cons_of_mem _ mem_cons_self)
      have link := linked_eq inside nextInside.2 nextSmall ok' nextOk
      have left := freeClusters_linked free inside used nextSmall
      obtain ⟨fatCache, log, later⟩ := @ih (linked v cur next) next
        (by rw [linked_fatEntries]; exact nextInside.2)
        (linked_used inside nextInside.2 nextSmall different)
        (by rw [left]; simpa using enough)
        (by rw [left]; exact fun other member => small other (mem_cons_of_mem _ member))
        (by
          -- The disk does not matter here, so that of `v` will do.
          rw [left, link v.disk]
          exact fun other member => ok other (mem_cons_of_mem _ member))
      rw [left] at later
      rw [take_succ_cons]
      exact ⟨fatCache, _, later.step free inside used nextSmall ok' nextOk fresh⟩

/-- With too few free clusters the disk is full. -/
theorem fat32AllocateChain_few (count : Nat) :
    ∀ {v : Volume} {cur : Nat}, cur < v.fatEntries → v.fatCache cur ≠ 0 →
      (freeClusters v).length < count → (∀ cluster ∈ freeClusters v, cluster < 2 ^ 28) →
      (fat32AllocateChain v cur (count + 1)).1 = statusDiskFull := by
  induction count with
  | zero => exact fun _ _ few _ => absurd few (Nat.not_lt_zero _)
  | succ count ih =>
    intro v cur inside used few small
    rw [fat32AllocateChain, fat32FindFreeCluster_eq]
    cases free : freeClusters v with
    | nil => rfl
    | cons next rest =>
      rw [free] at few small
      obtain ⟨nextInside, nextFree, different⟩ := freeClusters_head free used
      have nextSmall := small next mem_cons_self
      have left := freeClusters_linked free inside used nextSmall
      exact @ih (linked v cur next) next (by rw [linked_fatEntries]; exact nextInside.2)
        (linked_used inside nextInside.2 nextSmall different)
        (by rw [left]; simpa using few)
        (by rw [left]; exact fun other member => small other (mem_cons_of_mem _ member))

theorem linked_get {start : Nat} {cells : List Nat}
    (chain : Linked v.fatCache (· = endOfChain) start cells)
    (inside : ∀ cluster ∈ cells, cluster < v.fatEntries)
    (small : ∀ cluster ∈ cells.tail, cluster < 2 ^ 28) :
    Linked (fat32GetFatEntry v) (chainEnd ≤ ·) start cells := by
  induction cells generalizing start with
  | nil =>
    have ends : start = endOfChain := chain
    rw [ends]
    exact endOfChain_mod.2.2
  | cons cluster cells ih =>
    refine ⟨chain.1, ?_⟩
    have entry : fat32GetFatEntry v cluster = v.fatCache cluster := by
      rw [fat32GetFatEntry_inside (inside cluster mem_cons_self)]
      apply Nat.mod_eq_of_lt
      cases cells with
      | nil =>
        have ends : v.fatCache cluster = endOfChain := chain.2
        rw [ends]
        decide
      | cons next cells =>
        have follows : v.fatCache cluster = next := chain.2.1
        rw [follows]
        exact small next mem_cons_self
    rw [entry]
    exact ih chain.2 (fun other member => inside other (mem_cons_of_mem _ member))
      (fun other member => small other (mem_of_mem_tail member))

theorem shared_address {first second : Nat} (clash : ¬ (first + 4 ≤ second ∨ second + 4 ≤ first)) :
    ∃ address, first ≤ address ∧ address < first + 4 ∧ second ≤ address ∧ address < second + 4 :=
  ⟨max first second, by omega, by omega, by omega, by omega⟩

theorem entry_kept_iff {log : List Write} {cluster : Nat} :
    (∀ disk, (replay disk log).read (fatEntryAddress v cluster) 4 =
        disk.read (fatEntryAddress v cluster) 4) ↔
      ∀ address, fatEntryAddress v cluster ≤ address → address < fatEntryAddress v cluster + 4 →
        ¬ ∃ write ∈ log, write.Covers address := by
  constructor
  · intro same address lower upper covered
    obtain ⟨byte, constant⟩ := replay_covered covered
    have kept := congrArg (·[address - fatEntryAddress v cluster]?) (same (fun _ => byte + 1))
    rw [read_getElem? _ _ _ _ (by omega), read_getElem? _ _ _ _ (by omega),
      show fatEntryAddress v cluster + (address - fatEntryAddress v cluster) = address by omega,
      constant] at kept
    have equal : byte = byte + 1 := Option.some.inj kept
    have value := congrArg UInt8.toNat equal
    rw [UInt8.toNat_add] at value
    have one : (1 : UInt8).toNat = 1 := rfl
    omega
  · intro uncovered disk
    apply read_congr
    intro address lower upper
    exact replay_uncovered (uncovered address lower upper)

/-- With enough free clusters, stores are right where entries lie apart. -/
theorem allocationRight_enough_iff {start count : Nat} (inside : start < v.fatEntries)
    (used : v.fatCache start ≠ 0) (enough : count ≤ (freeClusters v).length)
    (small : ∀ cluster ∈ takenClusters v (count + 1), cluster < 2 ^ 28)
    (ok : ∀ cluster ∈ start :: takenClusters v (count + 1), StoreDefined v cluster) :
    AllocationRight v start (count + 1) ↔
      (∀ cluster ∈ takenClusters v (count + 1), cluster < chainEnd) ∧
        ∀ cluster ∈ start :: takenClusters v (count + 1), ∀ other, other < v.fatEntries →
          other ∉ start :: takenClusters v (count + 1) →
          storedAddress v cluster + 4 ≤ fatEntryAddress v other ∨
            fatEntryAddress v other + 4 ≤ storedAddress v cluster := by
  have members : ∀ cluster ∈ takenClusters v (count + 1),
      (2 ≤ cluster ∧ cluster < v.fatEntries) ∧ v.fatCache cluster = 0 :=
    fun cluster member => mem_freeClusters.mp (mem_of_mem_take member)
  have once : (start :: takenClusters v (count + 1)).Nodup := by
    refine nodup_cons.mpr ⟨?_, (freeClusters_nodup v).sublist (take_sublist _ _)⟩
    exact notTaken_of_used used _
  have length : (takenClusters v (count + 1)).length = count := by
    rw [takenClusters, length_take]
    omega
  have success : ntSuccess statusSuccess = true := by decide
  obtain ⟨fatCache, log, done, chain, cache, stored, stores⟩ :=
    fat32AllocateChain_enough count inside used enough small ok
  have chain' : ∀ disk, Linked
      (fat32GetFatEntry { v with fatCache := fatCache, disk := replay disk log })
      (chainEnd ≤ ·) start (start :: takenClusters v (count + 1)) := by
    intro disk
    refine linked_get (v := { v with fatCache := fatCache, disk := replay disk log }) chain ?_ small
    intro cluster member
    rcases mem_cons.mp member with rfl | behind
    · exact inside
    · exact (members cluster behind).1.2
  constructor
  · intro right
    -- The driver's chain is the one that the loop has made.
    have whole : ∀ disk, ChainAllocated { v with disk := disk }
        { v with fatCache := fatCache, disk := replay disk log } start (count + 1)
        (takenClusters v (count + 1)) := by
      intro disk
      obtain ⟨_, _, allocated⟩ := right disk
      rw [done disk] at allocated
      obtain ⟨new, known⟩ := allocated success
      have front := known.linked.2.prefix_of_inner (chain' disk).2
        (fun cluster member => Nat.not_le.mpr (known.proper cluster member).2)
      have same : new = takenClusters v (count + 1) :=
        front.eq_of_length (by rw [length]; exact Nat.succ_injective known.length)
      rw [← same]
      exact known
    refine ⟨fun cluster member => ((whole v.disk).proper cluster member).2, ?_⟩
    intro cluster member other otherInside outside
    by_contra clash
    obtain ⟨address, lower, upper, entryLower, entryUpper⟩ := shared_address clash
    obtain ⟨value, inLog⟩ := stored cluster member
    have kept : ∀ disk, (replay disk log).read (fatEntryAddress v other) 4 =
        disk.read (fatEntryAddress v other) 4 :=
      fun disk => (whole disk).disk other otherInside outside
    refine entry_kept_iff.mp kept address entryLower entryUpper ⟨_, inLog, lower, ?_⟩
    rw [fatStore, bytes, encodeLE_length]
    exact upper
  · intro condition disk
    obtain ⟨proper, apart⟩ := condition
    refine ⟨?_, ?_, ?_⟩
    · intro cluster member
      exact ok cluster ((mem_setClusters (v := { v with disk := disk }) count inside used small).mp
        member)
    · rw [done disk]
      exact iff_of_false (by simp [success]) (Nat.not_lt.mpr enough)
    · intro _
      rw [done disk]
      refine ⟨takenClusters v (count + 1), by rw [length], once, chain' disk,
        fun cluster member => ⟨(members cluster member).1.1, proper cluster member⟩,
        fun cluster member => (members cluster member).2, fun cluster _ => cache cluster, ?_⟩
      intro other otherInside outside
      refine (entry_kept_iff (v := v)).mpr ?_ disk
      intro address lower upper covered
      obtain ⟨write, inLog, covers⟩ := covered
      obtain ⟨cluster, member, value, rfl⟩ := stores write inLog
      have range : storedAddress v cluster ≤ address ∧ address < storedAddress v cluster + 4 := by
        have known := covers
        rw [fatStore, bytes, Write.Covers, encodeLE_length] at known
        exact known
      have separate := apart cluster member other otherInside outside
      omega

/-- Allocating a chain does what it should if the condition is met. With free clusters
whose numbers fit into a FAT entry it does so in no other case. -/
theorem fat32AllocateChain_right_iff (v : Volume) (start count : Nat)
    (inside : start < v.fatEntries) (ended : chainEnd ≤ fat32GetFatEntry v start)
    (positive : 1 ≤ count) :
    (AllocationCovered v start count → AllocationRight v start count) ∧
      ((∀ cluster ∈ freeClusters v, cluster < 2 ^ 28) → AllocationRight v start count →
        AllocationCovered v start count) := by
  obtain ⟨count, rfl⟩ : ∃ more, count = more + 1 := ⟨count - 1, by omega⟩
  have used : v.fatCache start ≠ 0 := by
    intro zero
    rw [fat32GetFatEntry_inside inside, zero] at ended
    exact absurd ended (by decide)
  by_cases enough : count ≤ (freeClusters v).length
  · constructor
    · intro condition
      obtain ⟨ok, small, rest⟩ := condition
      exact (allocationRight_enough_iff inside used enough small ok).mpr (rest (by omega))
    · intro small right
      have few : ∀ cluster ∈ takenClusters v (count + 1), cluster < 2 ^ 28 :=
        fun cluster member => small cluster (mem_of_mem_take member)
      have ok : ∀ cluster ∈ start :: takenClusters v (count + 1), StoreDefined v cluster :=
        fun cluster member => (right v.disk).1 cluster
          ((mem_setClusters count inside used few).mpr member)
      exact ⟨ok, few, fun _ => (allocationRight_enough_iff inside used enough few ok).mp right⟩
  · have all : takenClusters v (count + 1) = freeClusters v :=
      take_of_length_le (by omega)
    have handed : (∀ cluster ∈ freeClusters v, cluster < 2 ^ 28) → ∀ disk cluster,
        cluster ∈ setClusters { v with disk := disk } start (count + 1) ↔
          cluster ∈ start :: takenClusters v (count + 1) := by
      intro small disk cluster
      exact mem_setClusters (v := { v with disk := disk }) count inside used
        (fun other member => small other (mem_of_mem_take member))
    have few : ¬ count + 1 ≤ (freeClusters v).length + 1 := by omega
    constructor
    · intro condition disk
      obtain ⟨ok, small, _⟩ := condition
      rw [all] at small
      have full := fat32AllocateChain_few (v := { v with disk := disk }) count inside used
        (Nat.lt_of_not_le enough) small
      refine ⟨fun cluster member => ok cluster ((handed small disk cluster).mp member), ?_, ?_⟩
      · rw [full]
        exact iff_of_true (by decide) (Nat.lt_of_not_le enough)
      · rw [full]
        exact fun success => absurd success (by decide)
    · intro small right
      refine ⟨fun cluster member => (right v.disk).1 cluster ((handed small v.disk cluster).mpr
        member), ?_, fun enough' => absurd enough' few⟩
      rw [all]
      exact small

theorem allocationCovered_of_sectors (sector : v.bytesPerSector = 512)
    (numbers : v.fatEntries ≤ chainEnd) {start : Nat} (inside : start < v.fatEntries)
    (count : Nat) : AllocationCovered v start count := by
  have marks : chainEnd = 0x0FFFFFF8 := rfl
  have below : ∀ cluster ∈ start :: takenClusters v count, cluster < v.fatEntries := by
    intro cluster member
    rcases mem_cons.mp member with rfl | taken
    · exact inside
    · exact (mem_freeClusters.mp (mem_of_mem_take taken)).1.2
  have proper : ∀ cluster ∈ takenClusters v count, cluster < chainEnd := fun cluster member =>
    Nat.lt_of_lt_of_le (below cluster (mem_cons_of_mem _ member)) numbers
  refine ⟨?_, fun cluster member => Nat.lt_trans (proper cluster member) (by decide), fun _ =>
    ⟨proper, ?_⟩⟩
  · intro cluster member
    have bound := below cluster member
    rw [StoreDefined, sector]
    omega
  · intro cluster member other _ outside
    have bound := below cluster member
    have different : other ≠ cluster := by
      rintro rfl
      exact outside member
    rw [storedAddress, fatEntryAddress, sector]
    omega

/-- A volume of 300 FAT entries, whose cluster 2 is free. -/
def sectorVolume (bytesPerSector : Nat) : Volume where
  valid := true
  bytesPerSector := bytesPerSector
  sectorsPerCluster := 1
  bytesPerCluster := bytesPerSector
  rootCluster := 3
  fatStart := 1
  dataStart := 6
  fatEntries := 300
  fatCache := fun cluster => if cluster = 2 then 0 else endOfChain
  disk := fun _ => 0

/-- Cluster 2 hung behind cluster 256. -/
theorem sectorVolume_allocates : AllocationRight (sectorVolume 512) 256 2 :=
  (fat32AllocateChain_right_iff (sectorVolume 512) 256 2 (by decide) (by decide) (by decide)).1
    (allocationCovered_of_sectors rfl (by decide) (by decide) 2)

/-- With sectors of 1024 bytes the entry of cluster 256 is written to the place of
that of cluster 128. -/
theorem wideSectors_notRight :
    ¬ ∀ (v : Volume) (start count : Nat), start < v.fatEntries →
      chainEnd ≤ fat32GetFatEntry v start → 1 ≤ count → AllocationRight v start count := by
  intro right
  obtain ⟨_, _, allocated⟩ := right (sectorVolume 1024) 256 1 (by decide) (by decide) (by decide)
    (fun _ => 0)
  obtain ⟨new, chain⟩ := allocated (by decide +kernel)
  have empty : new = [] := eq_nil_of_length_eq_zero (Nat.succ_injective chain.length)
  subst new
  have kept := chain.disk 128 (by decide) (by decide)
  revert kept
  decide +kernel

end MinNT.Fat32
