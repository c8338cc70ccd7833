import MinNT.Fs.RamDiskRegions
import MinNT.Lib.Chain

namespace MinNT.Fs

open List Function Chain

/-- The value that ends a chain. -/
def EndOfChain (value : Nat) : Prop := value = 0xFFFF

/-- `FirstCluster` and the FAT lead through `cells` and then end. -/
def Leads (disk : RamDisk) (first : Nat) (cells : List Nat) : Prop :=
  if cells = [] then first = 0 else Linked (fsReadFatEntry disk) EndOfChain first cells

/-- Every entry of the root directory has a finite chain without repetition
inside the bound, no cluster is on two chains, and the FAT marks nothing as used
that is on no chain. -/
structure ChainsSound (disk : RamDisk) (chain : Nat → List Nat) : Prop where
  leads : ∀ slot, slot < rootEntryCount → Leads disk (firstCluster disk slot) (chain slot)
  inRange : ∀ slot, slot < rootEntryCount → ∀ cluster ∈ chain slot,
    2 ≤ cluster ∧ cluster < totalClusters disk
  once : ∀ slot, slot < rootEntryCount → (chain slot).Nodup
  apart : ∀ slot other, slot < rootEntryCount → other < rootEntryCount → slot ≠ other →
    ∀ cluster ∈ chain slot, cluster ∉ chain other
  accounted : ∀ cluster, 2 ≤ cluster → disk.fat + 2 * cluster + 2 ≤ disk.rootDir →
    fsReadFatEntry disk cluster ≠ 0 → ∃ slot, slot < rootEntryCount ∧ cluster ∈ chain slot

variable {disk : RamDisk} {chain : Nat → List Nat}

theorem ChainsSound.linked (sound : ChainsSound disk chain) (slot : Nat)
    (inside : slot < rootEntryCount) (present : chain slot ≠ []) :
    Linked (fsReadFatEntry disk) EndOfChain (firstCluster disk slot) (chain slot) := by
  have leads := sound.leads slot inside
  unfold Leads at leads
  rwa [if_neg present] at leads

theorem ChainsSound.firstCluster_zero (sound : ChainsSound disk chain) (slot : Nat)
    (inside : slot < rootEntryCount) : firstCluster disk slot = 0 ↔ chain slot = [] := by
  have leads := sound.leads slot inside
  unfold Leads at leads
  constructor
  · intro zero
    by_contra present
    rw [if_neg present] at leads
    obtain ⟨first, rest, shape⟩ := exists_cons_of_ne_nil present
    rw [shape] at leads
    have range := sound.inRange slot inside first (by rw [shape]; exact mem_cons_self)
    have head := leads.head_eq
    omega
  · intro empty
    rwa [if_pos empty] at leads

/-- A cluster is free exactly if no chain has it. -/
theorem ChainsSound.free_iff (regions : Regions disk) (sound : ChainsSound disk chain)
    (cluster : Nat) (lower : 2 ≤ cluster) (upper : cluster < totalClusters disk) :
    fsReadFatEntry disk cluster = 0 ↔
      ∀ slot, slot < rootEntryCount → cluster ∉ chain slot := by
  constructor
  · intro free slot inside member
    have linked := sound.linked slot inside (ne_nil_of_mem member)
    rcases linked.next_mem cluster member with next | last
    · have range := sound.inRange slot inside _ next
      omega
    · rw [EndOfChain] at last
      omega
  · intro outside
    by_contra used
    have fits := regions.fatFits
    obtain ⟨slot, inside, member⟩ := sound.accounted cluster lower (by omega) used
    exact outside slot inside member

theorem ChainsSound.congr (sound : ChainsSound disk chain)
    (regions : Regions disk) (memory : ByteMemory)
    (fat : ∀ address, address < disk.rootDir → memory address = disk.memory address)
    (first : ∀ slot, slot < rootEntryCount →
      firstCluster { disk with memory := memory } slot = firstCluster disk slot) :
    ChainsSound { disk with memory := memory } chain where
  leads := by
    intro slot inside
    have leads := sound.leads slot inside
    unfold Leads at leads ⊢
    rw [first slot inside]
    split
    · rename_i empty
      rwa [if_pos empty] at leads
    · rename_i present
      rw [if_neg present] at leads
      apply leads.congr
      intro cluster member
      have range := sound.inRange slot inside cluster member
      have fits := regions.fatFits
      exact fsReadFatEntry_frame disk memory cluster (by omega) fat
  inRange := sound.inRange
  once := sound.once
  apart := sound.apart
  accounted := by
    intro cluster lower fits used
    rw [fsReadFatEntry_frame disk memory cluster fits fat] at used
    exact sound.accounted cluster lower fits used

theorem ChainsSound.dataChange
    (sound : ChainsSound disk chain) (regions : Regions disk) (memory : ByteMemory)
    (low high : Nat) (same : ByteMemory.SameOutside disk.memory memory low high)
    (above : disk.dataArea ≤ low) : ChainsSound { disk with memory := memory } chain := by
  have root := regions.rootFits
  apply sound.congr regions
  · intro address below
    apply same
    omega
  · intro slot inside
    exact (sameEntry_of_outside disk memory low high slot inside same
      (.inr (Nat.le_trans root above))).firstCluster

theorem chainStops_cluster {next : Nat} (lower : 2 ≤ next) (upper : next < 2 ^ 16 - 1) :
    chainStops next = false := by
  simp only [chainStops, Bool.or_eq_false_iff, decide_eq_false_iff_not]
  omega

theorem resolveSteps_linked (disk : RamDisk) (steps : Nat) :
    ∀ (cluster : Nat) (cells : List Nat),
      Linked (fsReadFatEntry disk) EndOfChain cluster (cluster :: cells) →
      (∀ cell ∈ cells, 2 ≤ cell ∧ cell < 2 ^ 16 - 1) →
      resolveSteps disk steps cluster = (cluster :: cells)[steps]? := by
  induction steps with
  | zero =>
    intro cluster cells _ _
    rfl
  | succ steps ih =>
    intro cluster cells linked range
    rw [resolveSteps, getElem?_cons_succ]
    cases cells with
    | nil =>
      have last : fsReadFatEntry disk cluster = 0xFFFF := linked.2
      rw [last]
      rfl
    | cons next cells =>
      have link : fsReadFatEntry disk cluster = next := linked.2.1
      have bounds := range next mem_cons_self
      rw [link, chainStops_cluster bounds.1 bounds.2]
      exact ih next cells ⟨rfl, linked.2.2⟩
        (fun cell member => range cell (mem_cons_of_mem _ member))

theorem chaseSteps_linked (disk : RamDisk) (last : Nat) :
    ∀ (cells : List Nat) (first fuel : Nat),
      Linked (fsReadFatEntry disk) EndOfChain first (cells ++ [last]) →
      (∀ cell ∈ cells ++ [last], 2 ≤ cell ∧ cell < 2 ^ 16 - 1) → cells.length < fuel →
      chaseSteps disk fuel first = some last := by
  intro cells
  induction cells with
  | nil =>
    intro first fuel linked range enough
    obtain ⟨rfl, final⟩ := linked
    have final : fsReadFatEntry disk first = 0xFFFF := final
    have bounds := range first (mem_singleton_self _)
    cases fuel with
    | zero => omega
    | succ fuel =>
      rw [chaseSteps, if_neg (by omega), final]
      rfl
  | cons cell cells ih =>
    intro first fuel linked range enough
    obtain ⟨rfl, rest⟩ := linked
    have bounds := range first mem_cons_self
    cases fuel with
    | zero => simp at enough
    | succ fuel =>
      have tail : ∀ cell ∈ cells ++ [last], 2 ≤ cell ∧ cell < 2 ^ 16 - 1 :=
        fun cell member => range cell (mem_cons_of_mem _ member)
      have next : 2 ≤ fsReadFatEntry disk first ∧
          fsReadFatEntry disk first < 2 ^ 16 - 1 := by
        cases cells with
        | nil => exact rest.1 ▸ tail last (mem_singleton_self _)
        | cons other cells => exact rest.1 ▸ tail other mem_cons_self
      rw [chaseSteps, if_neg (by omega), chainStops_cluster next.1 next.2]
      exact ih _ fuel rest tail (by simpa using enough)

theorem ChainsSound.cluster_lt
    (sound : ChainsSound disk chain) (slot : Nat) (inside : slot < rootEntryCount) :
    ∀ cluster ∈ chain slot, 2 ≤ cluster ∧ cluster < 2 ^ 16 - 1 := by
  intro cluster member
  have range := sound.inRange slot inside cluster member
  have bound := totalClusters_lt disk
  omega

/-- On sound chains the lookup is by position. -/
theorem ChainsSound.resolve
    (sound : ChainsSound disk chain) (slot offset : Nat) (inside : slot < rootEntryCount) :
    fsResolveClusterChain disk slot offset =
      if offset < fileSize disk slot then
        (chain slot)[offset / fsClusterSize]?.map fun cluster =>
          (cluster, offset % fsClusterSize)
      else none := by
  have zero := sound.firstCluster_zero slot inside
  unfold fsResolveClusterChain
  by_cases short : offset < fileSize disk slot
  · rw [if_pos short]
    by_cases empty : chain slot = []
    · rw [if_pos (.inl (zero.mpr empty)), empty]
      rfl
    rw [if_neg (by rw [zero]; simp [empty, short])]
    obtain ⟨first, rest, shape⟩ := exists_cons_of_ne_nil empty
    have linked := sound.linked slot inside empty
    have range := sound.cluster_lt slot inside
    rw [shape] at linked range ⊢
    have head := linked.head_eq
    rw [head] at linked ⊢
    rw [resolveSteps_linked disk _ first rest linked
      (fun cell member => range cell (mem_cons_of_mem _ member))]
  · rw [if_neg short, if_pos (.inr (by omega))]

theorem mem_append_chain {slot cluster other cell : Nat} :
    cell ∈ update chain slot (chain slot ++ [cluster]) other ↔
      cell ∈ chain other ∨ other = slot ∧ cell = cluster := by
  by_cases same : other = slot
  · subst other
    rw [update_self, mem_append, mem_singleton]
    simp
  · rw [update_of_ne same]
    simp [same]

/-- Hanging a free cluster behind a chain keeps the chains sound. -/
theorem ChainsSound.append
    (sound : ChainsSound disk chain) (regions : Regions disk) (memory : ByteMemory)
    (slot cluster : Nat) (inside : slot < rootEntryCount) (lower : 2 ≤ cluster)
    (upper : cluster < totalClusters disk) (free : fsReadFatEntry disk cluster = 0)
    (mark : fsReadFatEntry { disk with memory := memory } cluster = 0xFFFF)
    (link : ∀ last, (chain slot).getLast? = some last →
      fsReadFatEntry { disk with memory := memory } last = cluster)
    (fat : ∀ other, disk.fat + 2 * other + 2 ≤ disk.rootDir → other ≠ cluster →
      (chain slot).getLast? ≠ some other →
      fsReadFatEntry { disk with memory := memory } other = fsReadFatEntry disk other)
    (first : ∀ other, other < rootEntryCount →
      firstCluster { disk with memory := memory } other =
        if other = slot ∧ chain slot = [] then cluster else firstCluster disk other) :
    ChainsSound { disk with memory := memory } (update chain slot (chain slot ++ [cluster])) := by
  have fits := regions.fatFits
  have fresh := (sound.free_iff regions cluster lower upper).mp free
  have entryInside : ∀ other, other < rootEntryCount → ∀ cell ∈ chain other,
      disk.fat + 2 * cell + 2 ≤ disk.rootDir := by
    intro other otherInside cell member
    have range := sound.inRange other otherInside cell member
    omega
  constructor
  · intro other otherInside
    rw [first other otherInside]
    by_cases same : other = slot
    · subst other
      rw [update_self]
      unfold Leads
      rw [if_neg (by simp)]
      rcases eq_nil_or_concat (chain slot) with empty | ⟨cells, last, shape⟩
      · rw [if_pos ⟨rfl, empty⟩, empty]
        exact linked_singleton cluster mark
      rw [concat_eq_append] at shape
      have present : chain slot ≠ [] := by simp [shape]
      rw [if_neg (fun both => present both.2)]
      have linked := sound.linked slot inside present
      have once := sound.once slot inside
      rw [shape] at linked once link fat ⊢
      apply linked.extend (link last (by simp)) mark
      intro cell member
      apply fat
      · exact entryInside slot inside cell (by rw [shape]; exact mem_append_left _ member)
      · intro clash
        exact fresh slot inside (by rw [shape, ← clash]; exact mem_append_left _ member)
      · intro clash
        have clash : last = cell := by simpa using clash
        rw [nodup_append] at once
        exact once.2.2 cell member last (mem_singleton_self _) clash.symm
    · rw [if_neg (fun both => same both.1), update_of_ne same]
      have leads := sound.leads other otherInside
      unfold Leads at leads ⊢
      split
      · rename_i empty
        rwa [if_pos empty] at leads
      rename_i present
      rw [if_neg present] at leads
      apply leads.congr
      intro cell member
      apply fat _ (entryInside other otherInside cell member)
      · intro clash
        exact fresh other otherInside (clash ▸ member)
      · intro clash
        exact sound.apart other slot otherInside inside same cell member (mem_of_getLast? clash)
  · intro other otherInside cell member
    rcases mem_append_chain.mp member with old | ⟨_, rfl⟩
    · exact sound.inRange other otherInside cell old
    · exact ⟨lower, upper⟩
  · intro other otherInside
    by_cases same : other = slot
    · subst other
      rw [update_self, nodup_append]
      refine ⟨sound.once slot inside, by simp, ?_⟩
      intro cell member final isFinal clash
      rw [mem_singleton.mp isFinal] at clash
      exact fresh slot inside (clash ▸ member)
    · rw [update_of_ne same]
      exact sound.once other otherInside
  · intro one two oneInside twoInside different cell member clash
    rcases mem_append_chain.mp member with old | ⟨rfl, rfl⟩
    · rcases mem_append_chain.mp clash with old' | ⟨rfl, rfl⟩
      · exact sound.apart one two oneInside twoInside different cell old old'
      · exact fresh one oneInside old
    · rcases mem_append_chain.mp clash with old' | ⟨same, _⟩
      · exact fresh two twoInside old'
      · exact different same.symm
  · intro cell cellLower cellFits used
    by_cases isNew : cell = cluster
    · exact ⟨slot, inside, mem_append_chain.mpr (.inr ⟨rfl, isNew⟩)⟩
    · by_cases isLast : (chain slot).getLast? = some cell
      · exact ⟨slot, inside, mem_append_chain.mpr (.inl (mem_of_getLast? isLast))⟩
      · rw [fat cell cellFits isNew isLast] at used
        obtain ⟨other, otherInside, member⟩ := sound.accounted cell cellLower cellFits used
        exact ⟨other, otherInside, mem_append_chain.mpr (.inl member)⟩

theorem findFreeCluster_some {cluster : Nat} (found : findFreeCluster disk = some cluster) :
    2 ≤ cluster ∧ cluster < totalClusters disk ∧ fsReadFatEntry disk cluster = 0 := by
  have member := mem_of_find?_eq_some found
  have free := find?_some found
  rw [mem_range'_1] at member
  refine ⟨by omega, by omega, of_decide_eq_true free⟩

theorem findFreeCluster_none (missing : findFreeCluster disk = none)
    (cluster : Nat) (lower : 2 ≤ cluster) (upper : cluster < totalClusters disk) :
    fsReadFatEntry disk cluster ≠ 0 := by
  have refused := find?_eq_none.mp missing cluster (by
    rw [mem_range'_1]
    omega)
  simpa using refused

/-- The cluster can be hung behind the file's chain, with the files kept. -/
def Links (disk : RamDisk) (chain : Nat → List Nat) (slot cluster : Nat) : Prop :=
  ∃ memory, linkCluster disk slot cluster = some { disk with memory := memory } ∧
    KeepsFiles disk memory ∧
    ChainsSound { disk with memory := memory } (update chain slot (chain slot ++ [cluster]))

theorem firstCluster_marked (regions : Regions disk) {cluster : Nat}
    (upper : cluster < totalClusters disk) (other : Nat) (inside : other < rootEntryCount) :
    firstCluster (fsWriteFatEntry disk cluster 0xFFFF) other = firstCluster disk other :=
  (fsWriteFatEntry_sameEntry regions cluster 0xFFFF other upper inside).firstCluster

section Link

variable (regions : Regions disk) (sound : ChainsSound disk chain) {slot cluster : Nat}
  (inside : slot < rootEntryCount) (lower : 2 ≤ cluster) (upper : cluster < totalClusters disk)
  (free : fsReadFatEntry disk cluster = 0)

include regions sound inside lower upper free

/-- The first cluster of a file. -/
theorem linkCluster_first (empty : chain slot = []) : Links disk chain slot cluster := by
  have fits := regions.fatFits
  have bound := totalClusters_lt disk
  have markedRegions : Regions (fsWriteFatEntry disk cluster 0xFFFF) := regions.memory _
  have markedFirst := firstCluster_marked regions upper
  have zero := (sound.firstCluster_zero slot inside).mpr empty
  have outside := entryChange_apart markedRegions _ slot inside
    (setFirstCluster_sameOutside (fsWriteFatEntry disk cluster 0xFFFF) slot cluster)
  have fatKept : ∀ other, disk.fat + 2 * other + 2 ≤ disk.rootDir →
      fsReadFatEntry (setFirstCluster (fsWriteFatEntry disk cluster 0xFFFF) slot cluster)
        other = fsReadFatEntry (fsWriteFatEntry disk cluster 0xFFFF) other :=
    fun other within => fsReadFatEntry_frame (fsWriteFatEntry disk cluster 0xFFFF) _ other
      within outside.1
  unfold Links linkCluster
  dsimp only
  rw [markedFirst slot inside, if_pos zero]
  refine ⟨_, rfl, (fsWriteFatEntry_keeps regions cluster 0xFFFF upper).trans
    (setFirstCluster_keeps markedRegions slot cluster inside), ?_⟩
  apply sound.append regions _ slot cluster inside lower upper free
  · exact (fatKept cluster (by omega)).trans
      (fsReadFatEntry_write_same disk cluster 0xFFFF (by decide))
  · intro last known
    simp [empty] at known
  · intro other within different _
    exact (fatKept other within).trans
      (fsReadFatEntry_write_other disk cluster 0xFFFF other different)
  · intro other otherInside
    by_cases same : other = slot
    · subst other
      rw [if_pos ⟨rfl, empty⟩]
      exact firstCluster_setFirstCluster _ slot cluster (by omega)
    · rw [if_neg (fun both => same both.1), ← markedFirst other otherInside]
      exact (sameEntry_of_other _ _ slot other same
        (setFirstCluster_sameOutside (fsWriteFatEntry disk cluster 0xFFFF) slot
          cluster)).firstCluster

/-- A further cluster. The chase runs over the marked FAT, which differs outside
the chain only. -/
theorem linkCluster_next (cells : List Nat) (last : Nat) (shape : chain slot = cells ++ [last]) :
    Links disk chain slot cluster := by
  have bound := totalClusters_lt disk
  have markedRegions : Regions (fsWriteFatEntry disk cluster 0xFFFF) := regions.memory _
  have markedFirst := firstCluster_marked regions upper
  have fresh := (sound.free_iff regions cluster lower upper).mp free
  have present : chain slot ≠ [] := by simp [shape]
  have nonzero := fun zero => present ((sound.firstCluster_zero slot inside).mp zero)
  have lastMember : last ∈ chain slot := by simp [shape]
  have lastRange := sound.inRange slot inside last lastMember
  have lastFresh : last ≠ cluster := by
    intro clash
    exact fresh slot inside (clash ▸ lastMember)
  have linked : Linked (fsReadFatEntry (fsWriteFatEntry disk cluster 0xFFFF)) EndOfChain
      (firstCluster disk slot) (chain slot) := by
    apply (sound.linked slot inside present).congr
    intro cell member
    apply fsReadFatEntry_write_other
    intro clash
    exact fresh slot inside (clash ▸ member)
  have short : (chain slot).length ≤ 2 ^ 16 - 1 := length_le_of_nodup
    (sound.once slot inside) (fun cell member => (sound.cluster_lt slot inside cell member).2)
  have ranges := sound.cluster_lt slot inside
  rw [shape] at linked short ranges
  have chase := chaseSteps_linked (fsWriteFatEntry disk cluster 0xFFFF) last cells
    (firstCluster disk slot) chaseFuel linked ranges (by
      simp only [length_append, length_singleton] at short
      rw [chaseFuel]
      omega)
  unfold Links linkCluster
  dsimp only
  rw [markedFirst slot inside, if_neg nonzero, chase]
  refine ⟨_, rfl, (fsWriteFatEntry_keeps regions cluster 0xFFFF upper).trans
    (fsWriteFatEntry_keeps markedRegions last cluster lastRange.2), ?_⟩
  apply sound.append regions _ slot cluster inside lower upper free
  · exact (fsReadFatEntry_write_other _ last cluster cluster (Ne.symm lastFresh)).trans
      (fsReadFatEntry_write_same disk cluster 0xFFFF (by decide))
  · intro final known
    have same : last = final := by simpa [shape] using known
    subst final
    exact fsReadFatEntry_write_same _ last cluster (by omega)
  · intro other _ different notLast
    have apart : other ≠ last := by
      intro clash
      subst other
      exact notLast (by simp [shape])
    exact (fsReadFatEntry_write_other _ last cluster other apart).trans
      (fsReadFatEntry_write_other disk cluster 0xFFFF other different)
  · intro other otherInside
    rw [if_neg (fun both => present both.2), ← markedFirst other otherInside]
    exact (fsWriteFatEntry_sameEntry markedRegions last cluster other lastRange.2
      otherInside).firstCluster

end Link

/-- Everything the allocation inside `NtWriteFile` can do on a sound disk: report
a full disk, or hang a free cluster behind the file's chain. -/
theorem allocateCluster_cases (regions : Regions disk)
    (sound : ChainsSound disk chain) (slot : Nat) (inside : slot < rootEntryCount) :
    (allocateCluster disk slot = some none ∧ findFreeCluster disk = none) ∨
      ∃ cluster memory,
        allocateCluster disk slot = some (some (cluster, { disk with memory := memory })) ∧
        2 ≤ cluster ∧ cluster < totalClusters disk ∧ fsReadFatEntry disk cluster = 0 ∧
        KeepsFiles disk memory ∧
        ChainsSound { disk with memory := memory }
          (update chain slot (chain slot ++ [cluster])) := by
  unfold allocateCluster
  cases search : findFreeCluster disk with
  | none => exact .inl ⟨rfl, rfl⟩
  | some cluster =>
    obtain ⟨lower, upper, free⟩ := findFreeCluster_some search
    have linked : Links disk chain slot cluster := by
      rcases eq_nil_or_concat (chain slot) with empty | ⟨cells, last, shape⟩
      · exact linkCluster_first regions sound inside lower upper free empty
      · rw [concat_eq_append] at shape
        exact linkCluster_next regions sound inside lower upper free cells last shape
    obtain ⟨memory, done, keeps, after⟩ := linked
    dsimp only
    rw [done]
    exact .inr ⟨cluster, memory, rfl, lower, upper, free, keeps, after⟩

end MinNT.Fs
