import Mathlib.Data.List.GetD
import MinNT.Fs.RamDiskSteps

namespace MinNT.Fs

open List Function ByteMemory Chain

/-- The clusters that `size` bytes take. -/
def clustersFor (size : Nat) : Nat := (size + 2047) / 2048

/-- The byte at a file offset, found through the list of the file's clusters. -/
def byteAt (disk : RamDisk) (cells : List Nat) (offset : Nat) : UInt8 :=
  disk.memory (fsClusterBase disk (cells.getD (offset / 2048) 0) + offset % 2048)

/-- Every chain is exactly as long as the file's size asks for. -/
def Filled (disk : RamDisk) (chain : Nat → List Nat) : Prop :=
  ∀ slot, slot < rootEntryCount → (chain slot).length = clustersFor (fileSize disk slot)

theorem fileSize_lt (disk : RamDisk) (slot : Nat) : fileSize disk slot < 2 ^ 32 :=
  load_lt disk.memory 4 (dirEntry disk slot + 26)

theorem read_cluster (disk : RamDisk) (cells : List Nat) (cluster currentOffset count : Nat)
    (known : cells[currentOffset / 2048]? = some cluster)
    (fits : currentOffset % 2048 + count ≤ 2048) :
    disk.memory.read (fsClusterBase disk cluster + currentOffset % 2048) count =
      (List.range count).map (fun index => byteAt disk cells (currentOffset + index)) := by
  unfold ByteMemory.read
  apply map_congr_left
  intro index member
  have bound := mem_range.mp member
  have quotient : (currentOffset + index) / 2048 = currentOffset / 2048 := by omega
  have remainder : (currentOffset + index) % 2048 = currentOffset % 2048 + index := by omega
  rw [byteAt, quotient, remainder, getD_eq_getElem?_getD, known, Option.getD_some, Nat.add_assoc]

theorem range_map_split {β : Type} (first count : Nat) (part : first ≤ count) (f : Nat → β) :
    (List.range count).map f =
      (List.range first).map f ++
        (List.range (count - first)).map (fun index => f (first + index)) := by
  have whole : count = first + (count - first) := by omega
  conv_lhs => rw [whole, range_add, map_append, map_map]
  rfl

variable {disk : RamDisk} {chain : Nat → List Nat} {memory : ByteMemory}

/-- The read loop gives the bytes of the chain. -/
theorem readLoop_chain (sound : ChainsSound disk chain)
    (slot : Nat) (inside : slot < rootEntryCount) (fuel : Nat) :
    ∀ remaining currentOffset, remaining ≤ fuel →
      currentOffset + remaining ≤ fileSize disk slot →
      readLoop disk slot fuel remaining currentOffset =
        (List.range (min remaining (2048 * (chain slot).length - currentOffset))).map
          (fun index => byteAt disk (chain slot) (currentOffset + index)) := by
  have small := fileSize_lt disk slot
  induction fuel with
  | zero =>
    intro remaining currentOffset enough covered
    have none : remaining = 0 := by omega
    subst remaining
    rw [Nat.zero_min]
    rfl
  | succ fuel ih =>
    intro remaining currentOffset enough covered
    rw [readLoop]
    by_cases done : remaining = 0
    · rw [if_pos (.inl done), done, Nat.zero_min]
      rfl
    have short : currentOffset < fileSize disk slot := by omega
    rw [if_neg (by simp [done, short]), sound.resolve slot currentOffset inside,
      if_pos short, fsClusterSize_eq]
    by_cases within : currentOffset / 2048 < (chain slot).length
    · have known := getElem?_eq_getElem within
      generalize (chain slot)[currentOffset / 2048] = cluster at known
      have part : clusterPart (fileSize disk slot) remaining currentOffset
          (currentOffset % 2048) = min remaining (2048 - currentOffset % 2048) :=
        clusterPart_eq _ (by omega)
      rw [known, Option.map_some]
      dsimp only
      rw [part]
      generalize counted : min remaining (2048 - currentOffset % 2048) = toRead
      have rest : min (remaining - toRead) (2048 * (chain slot).length - (currentOffset + toRead)) =
          min remaining (2048 * (chain slot).length - currentOffset) - toRead := by
        omega
      rw [read_cluster disk (chain slot) cluster currentOffset toRead known (by omega),
        Nat.mod_eq_of_lt (by omega : currentOffset + toRead < 2 ^ 32),
        ih (remaining - toRead) _ (by omega) (by omega), rest,
        range_map_split toRead _ (by omega :
          toRead ≤ min remaining (2048 * (chain slot).length - currentOffset))]
      simp only [Nat.add_assoc]
    · have ended : min remaining (2048 * (chain slot).length - currentOffset) = 0 := by omega
      rw [getElem?_eq_none (by omega), ended]
      rfl

/-- `NtReadFile` at an explicit offset that does not wrap, on a file whose chain may
end early. -/
theorem ntReadFile_chain (sound : ChainsSound disk chain)
    (file : FileObject) (inside : file.fsContext < rootEntryCount) (offset length count : Nat)
    (noWrap : offset + length < 2 ^ 32)
    (counted : count = min (min length (fileSize disk file.fsContext - offset))
      (2048 * (chain file.fsContext).length - offset)) :
    ntReadFile disk file (some offset) length =
      if offset ≥ fileSize disk file.fsContext then (⟨statusEndOfFile, 0⟩, [], file)
      else
        (⟨statusSuccess, count⟩,
          (List.range count).map (fun index => byteAt disk (chain file.fsContext) (offset + index)),
          { file with currentOffset := offset + count }) := by
  have start : requestOffset file (some offset) = offset := by
    show offset % 2 ^ 32 = offset
    omega
  unfold ntReadFile
  dsimp only
  rw [start]
  by_cases past : offset ≥ fileSize disk file.fsContext
  · rw [if_pos past, if_pos past]
  rw [if_neg past, if_neg past]
  have clipped : (if (offset + length) % 2 ^ 32 > fileSize disk file.fsContext then
      fileSize disk file.fsContext - offset else length) =
      min length (fileSize disk file.fsContext - offset) := by
    rw [Nat.mod_eq_of_lt noWrap]
    by_cases long : offset + length > fileSize disk file.fsContext
    · rw [if_pos long]
      omega
    · rw [if_neg long]
      omega
  rw [clipped, readLoop_chain sound file.fsContext inside _ _ _ (Nat.le_refl _) (by omega),
    ← counted]
  simp only [length_map, length_range]
  rw [Nat.mod_eq_of_lt (by omega)]

/-- `NtReadFile` at an explicit offset that does not wrap, on a file whose chain is
long enough. -/
theorem ntReadFile_eq (sound : ChainsSound disk chain)
    (filled : Filled disk chain) (file : FileObject) (inside : file.fsContext < rootEntryCount)
    (offset length : Nat) (noWrap : offset + length < 2 ^ 32) :
    ntReadFile disk file (some offset) length =
      if offset ≥ fileSize disk file.fsContext then (⟨statusEndOfFile, 0⟩, [], file)
      else
        (⟨statusSuccess, min length (fileSize disk file.fsContext - offset)⟩,
          (List.range (min length (fileSize disk file.fsContext - offset))).map
            (fun index => byteAt disk (chain file.fsContext) (offset + index)),
          { file with
            currentOffset := offset + min length (fileSize disk file.fsContext - offset) }) := by
  apply ntReadFile_chain sound file inside offset length _ noWrap
  have length := filled file.fsContext inside
  rw [clustersFor] at length
  omega

/-- How many clusters below the bound the FAT marks as free. -/
def freeClusters (disk : RamDisk) : Nat :=
  (List.range' 2 (totalClusters disk - 2)).countP (fun cluster => fsReadFatEntry disk cluster = 0)

theorem freeClusters_none (search : findFreeCluster disk = none) : freeClusters disk = 0 := by
  rw [freeClusters, countP_eq_zero]
  intro cluster member
  rw [mem_range'_1] at member
  simpa using findFreeCluster_none search cluster (by omega) (by omega)

theorem freeClusters_congr (disk : RamDisk) (memory : ByteMemory) (regions : Regions disk)
    (fat : ∀ address, address < disk.rootDir → memory address = disk.memory address) :
    freeClusters { disk with memory := memory } = freeClusters disk := by
  have fits := regions.fatFits
  apply List.countP_congr
  intro cluster member
  rw [mem_range'_1] at member
  have bound : cluster < totalClusters disk := by
    have shape : cluster < 2 + (totalClusters disk - 2) := member.2
    omega
  rw [fsReadFatEntry_frame disk memory cluster (by omega) fat]

/-- A cluster that joins a chain is one free cluster less. -/
theorem freeClusters_append {slot cluster : Nat} (regions : Regions disk)
    (sound : ChainsSound disk chain) (inside : slot < rootEntryCount) (lower : 2 ≤ cluster)
    (upper : cluster < totalClusters disk) (free : fsReadFatEntry disk cluster = 0)
    (after : ChainsSound { disk with memory := memory }
      (update chain slot (chain slot ++ [cluster]))) :
    freeClusters { disk with memory := memory } + 1 = freeClusters disk := by
  have member : cluster ∈ List.range' 2 (totalClusters disk - 2) := by
    rw [mem_range'_1]
    omega
  rw [freeClusters, freeClusters, ← countP_without nodup_range' _ cluster member (by
    simpa using free)]
  congr 1
  apply List.countP_congr
  intro other otherMember
  rw [mem_range'_1] at otherMember
  have otherUpper : other < totalClusters disk := by
    have shape : other < 2 + (totalClusters disk - 2) := otherMember.2
    omega
  have before := sound.free_iff regions other otherMember.1 otherUpper
  have now := after.free_iff (regions.memory memory) other otherMember.1 otherUpper
  have same : fsReadFatEntry { disk with memory := memory } other = 0 ↔
      fsReadFatEntry disk other = 0 ∧ other ≠ cluster := by
    rw [before, now]
    constructor
    · intro unused
      refine ⟨?_, ?_⟩
      · intro anySlot anyInside clash
        apply unused anySlot anyInside
        by_cases here : anySlot = slot
        · subst anySlot
          rw [update_self]
          exact mem_append_left _ clash
        · rw [update_of_ne here]
          exact clash
      · intro clash
        apply unused slot inside
        rw [update_self, clash]
        exact mem_append_right _ (mem_singleton_self _)
    · intro unused anySlot anyInside clash
      by_cases here : anySlot = slot
      · subst anySlot
        rw [update_self] at clash
        rcases mem_append.mp clash with clash | clash
        · exact unused.1 slot anyInside clash
        · exact unused.2 (mem_singleton.mp clash)
      · rw [update_of_ne here] at clash
        exact unused.1 anySlot anyInside clash
  simp [same]

/-- The effect of writing `src` at `start` to the file of one slot. -/
structure Written (disk : RamDisk) (chain : Nat → List Nat) (slot : Nat) (src : List UInt8)
    (start : Nat) (memory : ByteMemory) (chain' : Nat → List Nat) : Prop where
  keeps : WriteKeeps disk chain slot memory chain'
  sizes : ∀ other, other < rootEntryCount →
    fileSize { disk with memory := memory } other = fileSize disk other
  longer : ∃ new, chain' slot = chain slot ++ new
  length : (chain' slot).length = max (chain slot).length (clustersFor (start + src.length))
  written : ∀ index, index < src.length →
    byteAt { disk with memory := memory } (chain' slot) (start + index) = src.getD index 0
  untouched : ∀ offset, offset < 2048 * (chain slot).length →
    offset < start ∨ start + src.length ≤ offset →
    byteAt { disk with memory := memory } (chain' slot) offset = byteAt disk (chain slot) offset
  elsewhere : ∀ other, other < rootEntryCount → other ≠ slot → ∀ offset,
    offset < 2048 * (chain other).length →
    byteAt { disk with memory := memory } (chain other) offset = byteAt disk (chain other) offset

theorem byteAt_cluster (disk : RamDisk) {cells : List Nat} {offset : Nat}
    (within : offset < 2048 * cells.length) :
    ∃ cluster, cells[offset / 2048]? = some cluster ∧
      byteAt disk cells offset = disk.memory (fsClusterBase disk cluster + offset % 2048) := by
  have bound : offset / 2048 < cells.length := by omega
  refine ⟨cells[offset / 2048], getElem?_eq_getElem bound, ?_⟩
  rw [byteAt, getD_eq_getElem?_getD, getElem?_eq_getElem bound, Option.getD_some]

/-- A part inside a cluster is written there and nowhere else. -/
theorem written_part (regions : Regions disk) (sound : ChainsSound disk chain) (slot : Nat)
    (inside : slot < rootEntryCount) (cluster start : Nat) (bytes : List UInt8)
    (known : (chain slot)[start / 2048]? = some cluster)
    (fits : start % 2048 + bytes.length ≤ 2048) :
    Written disk chain slot bytes start
      (writeData disk cluster (start % 2048) bytes).memory chain := by
  have within := (List.getElem?_eq_some_iff.mp known).1
  have range := sound.cluster_lt slot inside cluster (mem_of_getElem? known)
  obtain ⟨keeps, sizes⟩ := writeData_keeps regions sound slot cluster (start % 2048) bytes range.1
    (by omega) fits
  refine ⟨keeps, sizes, ⟨[], (append_nil _).symm⟩, ?_, ?_, ?_, ?_⟩
  · rw [clustersFor]
    omega
  · intro index below
    have quotient : (start + index) / 2048 = start / 2048 := by omega
    have remainder : (start + index) % 2048 = start % 2048 + index := by omega
    rw [byteAt, quotient, remainder, getD_eq_getElem?_getD, known, Option.getD_some]
    show write _ _ bytes _ = _
    rw [write_inside _ _ _ _ (by
      show fsClusterBase disk cluster + _ ≤ fsClusterBase disk cluster + _
      omega) (by
      show fsClusterBase disk cluster + _ < _
      omega)]
    congr 1
    show fsClusterBase disk cluster + _ - (fsClusterBase disk cluster + _) = index
    omega
  · intro offset below apart
    obtain ⟨other, here, now⟩ := byteAt_cluster
      { disk with memory := (writeData disk cluster (start % 2048) bytes).memory } below
    obtain ⟨same, there, before⟩ := byteAt_cluster disk below
    rw [here] at there
    cases there
    rw [now, before]
    have otherRange := sound.cluster_lt slot inside other (mem_of_getElem? here)
    by_cases clash : other = cluster
    · -- The same cluster: the chain has no repetition, so the offsets share it too.
      subst other
      have position : offset / 2048 = start / 2048 := by
        have once := sound.once slot inside
        exact (getElem?_inj (by omega) once).mp (here.trans known.symm)
      apply write_outside
      show fsClusterBase disk cluster + offset % 2048 < fsClusterBase disk cluster + _ ∨
        fsClusterBase disk cluster + _ + bytes.length ≤ fsClusterBase disk cluster + _
      omega
    · exact writeData_otherCluster disk cluster other (start % 2048) (offset % 2048) bytes range.1
        (by omega) otherRange.1 (by omega) clash (Nat.mod_lt _ (by decide)) fits
  · intro otherSlot otherInside different offset below
    obtain ⟨other, here, now⟩ := byteAt_cluster
      { disk with memory := (writeData disk cluster (start % 2048) bytes).memory } below
    obtain ⟨same, there, before⟩ := byteAt_cluster disk below
    rw [here] at there
    cases there
    rw [now, before]
    have otherMember := mem_of_getElem? here
    have otherRange := sound.cluster_lt otherSlot otherInside other otherMember
    apply writeData_otherCluster disk cluster other (start % 2048) (offset % 2048) bytes range.1
      (by omega) otherRange.1 (by omega) ?_ (Nat.mod_lt _ (by decide)) fits
    intro clash
    rw [clash] at otherMember
    exact sound.apart otherSlot slot otherInside inside different cluster otherMember
      (mem_of_getElem? known)

theorem byteAt_congr (sound : ChainsSound disk chain)
    (data : ∀ address, disk.dataArea ≤ address → memory address = disk.memory address)
    (slot offset : Nat) (inside : slot < rootEntryCount)
    (below : offset < 2048 * (chain slot).length) :
    byteAt { disk with memory := memory } (chain slot) offset =
      byteAt disk (chain slot) offset := by
  obtain ⟨cluster, here, before⟩ := byteAt_cluster disk below
  obtain ⟨same, there, now⟩ := byteAt_cluster { disk with memory := memory } below
  rw [here] at there
  cases there
  have range := sound.cluster_lt slot inside cluster (mem_of_getElem? here)
  rw [now, before]
  apply data
  show disk.dataArea ≤ fsClusterBase disk cluster + _
  rw [fsClusterBase_eq disk cluster range.1 (by omega)]
  omega

theorem byteAt_append (disk : RamDisk) (cells new : List Nat) (offset : Nat)
    (below : offset < 2048 * cells.length) :
    byteAt disk (cells ++ new) offset = byteAt disk cells offset := by
  have bound : offset / 2048 < cells.length := by omega
  rw [byteAt, byteAt, getD_append _ _ _ _ bound]

/-- A part behind the end goes into a new cluster. -/
theorem written_newPart (regions : Regions disk) (sound : ChainsSound disk chain) (slot : Nat)
    (inside : slot < rootEntryCount) (cluster start : Nat) (bytes : List UInt8)
    (keeps : KeepsFiles disk memory)
    (after : ChainsSound { disk with memory := memory }
      (update chain slot (chain slot ++ [cluster]))) (atEnd : start = 2048 * (chain slot).length)
    (present : 0 < bytes.length) (fits : bytes.length ≤ 2048) :
    Written disk chain slot bytes start
      (writeData { disk with memory := memory } cluster 0 bytes).memory
      (update chain slot (chain slot ++ [cluster])) := by
  have position : start / 2048 = (chain slot).length := by omega
  have aligned : start % 2048 = 0 := by omega
  have part := written_part (regions.memory memory) after slot inside cluster start bytes
    (by
      rw [update_self, position]
      simp) (by omega)
  rw [aligned] at part
  have others : ∀ other, other ≠ slot →
      update chain slot (chain slot ++ [cluster]) other = chain other :=
    fun other different => update_of_ne different _ _
  refine ⟨⟨part.keeps.sound, others, ?_⟩, ?_, ⟨[cluster], update_self ..⟩, ?_, part.written, ?_, ?_⟩
  · intro other otherInside
    exact (part.keeps.name other otherInside).trans (keeps.name other otherInside)
  · intro other otherInside
    exact (part.sizes other otherInside).trans (keeps.size other otherInside)
  · rw [update_self, length_append, length_singleton, clustersFor]
    omega
  · intro offset below apart
    have longer : offset < 2048 * (update chain slot (chain slot ++ [cluster]) slot).length := by
      rw [update_self, length_append]
      omega
    refine (part.untouched offset longer apart).trans ?_
    rw [update_self, byteAt_append _ _ _ _ below]
    exact byteAt_congr sound keeps.data slot offset inside below
  · intro other otherInside different offset below
    have same := part.elsewhere other otherInside different offset (by
      rw [others other different]
      exact below)
    rw [others other different] at same
    exact same.trans (byteAt_congr sound keeps.data other offset otherInside below)

/-- Two parts in a row are one. -/
theorem Written.append {chain middle after : Nat → List Nat} {slot start : Nat}
    {first rest : List UInt8} {memory memory' : ByteMemory}
    (left : Written disk chain slot first start memory middle)
    (right : Written { disk with memory := memory } middle slot rest (start + first.length)
      memory' after) : Written disk chain slot (first ++ rest) start memory' after := by
  have grows := left.length
  obtain ⟨new, extended⟩ := left.longer
  obtain ⟨newer, again⟩ := right.longer
  have covers : start + first.length ≤ 2048 * (middle slot).length := by
    rw [clustersFor] at grows
    omega
  refine ⟨left.keeps.trans right.keeps, ?_, ⟨new ++ newer, ?_⟩, ?_, ?_, ?_, ?_⟩
  · intro other inside
    exact (right.sizes other inside).trans (left.sizes other inside)
  · rw [again, extended, append_assoc]
  · have grown := right.length
    rw [length_append]
    rw [clustersFor] at *
    omega
  · intro index below
    rw [length_append] at below
    by_cases early : index < first.length
    · have kept := right.untouched (start + index) (by omega) (by omega)
      rw [getD_append _ _ _ _ early]
      exact kept.trans (left.written index early)
    · have later := right.written (index - first.length) (by omega)
      rw [getD_append_right _ _ _ _ (by omega), ← later]
      congr 1
      omega
  · intro offset below apart
    rw [length_append] at apart
    exact (right.untouched offset (by omega) (by omega)).trans
      (left.untouched offset below (by omega))
  · intro other inside different offset below
    have same := left.keeps.others other different
    have kept := right.elsewhere other inside different offset (by rw [same]; exact below)
    rw [same] at kept
    exact kept.trans (left.elsewhere other inside different offset below)

theorem Written.nothing (slot : Nat) {start : Nat}
    (sound : ChainsSound disk chain) (reached : start ≤ 2048 * (chain slot).length) :
    Written disk chain slot [] start disk.memory chain := by
  refine ⟨⟨sound, fun _ _ => rfl, fun _ _ => rfl⟩, fun _ _ => rfl, ⟨[], by simp⟩, ?_, ?_,
    fun _ _ _ => rfl, fun _ _ _ _ _ => rfl⟩
  · rw [length_nil, clustersFor]
    omega
  · intro index below
    simp at below

/-- A write, with zeros in what it did not reach of the clusters hung behind the
chain. -/
structure Placed (disk : RamDisk) (chain : Nat → List Nat) (slot : Nat) (src : List UInt8)
    (position : Nat) (memory : ByteMemory) (chain' : Nat → List Nat) : Prop where
  written : Written disk chain slot src position memory chain'
  free : FreeZero disk → FreeZero { disk with memory := memory }
  fresh : FreeZero disk → ∀ offset, position + src.length ≤ offset →
    2048 * (chain slot).length ≤ offset → offset < 2048 * (chain' slot).length →
    byteAt { disk with memory := memory } (chain' slot) offset = 0

theorem Placed.nothing (slot : Nat) {position : Nat}
    (sound : ChainsSound disk chain) (reached : position ≤ 2048 * (chain slot).length) :
    Placed disk chain slot [] position disk.memory chain :=
  ⟨Written.nothing slot sound reached, id, fun _ _ _ behind below =>
    absurd below (Nat.not_lt.mpr behind)⟩

theorem Placed.append {chain middle after : Nat → List Nat} {slot position : Nat}
    {first rest : List UInt8} {memory memory' : ByteMemory}
    (left : Placed disk chain slot first position memory middle)
    (right : Placed { disk with memory := memory } middle slot rest (position + first.length)
      memory' after) : Placed disk chain slot (first ++ rest) position memory' after := by
  refine ⟨left.written.append right.written, fun zero => right.free (left.free zero), ?_⟩
  intro zero offset reached behind below
  rw [length_append] at reached
  by_cases old : offset < 2048 * (middle slot).length
  · refine (right.written.untouched offset old (by omega)).trans ?_
    exact left.fresh zero offset (by omega) behind old
  · exact right.fresh (left.free zero) offset (by omega) (by omega) below

theorem placed_part (regions : Regions disk) (sound : ChainsSound disk chain) (slot : Nat)
    (inside : slot < rootEntryCount) (cluster start : Nat) (bytes : List UInt8)
    (known : (chain slot)[start / 2048]? = some cluster)
    (fits : start % 2048 + bytes.length ≤ 2048) :
    Placed disk chain slot bytes start (writeData disk cluster (start % 2048) bytes).memory
      chain := by
  have member := mem_of_getElem? known
  have range := sound.cluster_lt slot inside cluster member
  refine ⟨written_part regions sound slot inside cluster start bytes known fits, ?_, ?_⟩
  · intro zero
    exact zero.writeData regions range.1 (by omega) (sound.taken regions inside member) fits
  · intro _ offset _ behind below
    exact absurd below (Nat.not_lt.mpr behind)

theorem placed_newPart (regions : Regions disk) (sound : ChainsSound disk chain) (slot : Nat)
    (inside : slot < rootEntryCount) (cluster : Nat) (bytes : List UInt8)
    (free : fsReadFatEntry disk cluster = 0) (keeps : KeepsFiles disk memory)
    (after : ChainsSound { disk with memory := memory }
      (update chain slot (chain slot ++ [cluster])))
    (present : 0 < bytes.length) (fits : bytes.length ≤ 2048) :
    Placed disk chain slot bytes (2048 * (chain slot).length)
      (writeData { disk with memory := memory } cluster 0 bytes).memory
      (update chain slot (chain slot ++ [cluster])) := by
  have member : cluster ∈ update chain slot (chain slot ++ [cluster]) slot := by
    rw [update_self]
    exact mem_append_right _ (mem_singleton_self _)
  have range := after.inRange slot inside cluster member
  have narrow := Nat.lt_trans range.2 (totalClusters_lt _)
  refine ⟨written_newPart regions sound slot inside cluster _ bytes keeps after rfl present fits,
    ?_, ?_⟩
  · intro zero
    have taken := after.taken (regions.memory memory) inside member
    exact (zero.append regions sound keeps after).writeData (regions.memory memory) range.1 narrow
      taken (by omega)
  · intro zero offset reached behind below
    rw [update_self, length_append, length_singleton] at below
    have position : offset / 2048 = (chain slot).length := by omega
    have base := fsClusterBase_eq disk cluster range.1 narrow
    rw [byteAt, position, update_self, getD_eq_getElem?_getD,
      getElem?_append_right (Nat.le_refl _), Nat.sub_self, getElem?_cons_zero,
      Option.getD_some]
    have outside := write_outside memory (fsClusterBase disk cluster + 0) bytes
      (fsClusterBase disk cluster + offset % 2048) (by omega)
    refine outside.trans ((keeps.data _ (by omega)).trans ?_)
    exact zero cluster range.1 range.2 free _ (Nat.mod_lt _ (by decide))

/-- The write loop puts its bytes at their place in the chain, or behind the chain
when their offset lies beyond it, until the disk is full. -/
def LoopPlaces (slot fuel : Nat) : Prop :=
  ∀ (disk : RamDisk) (chain : Nat → List Nat) (src : List UInt8) (start position : Nat),
    Regions disk → ChainsSound disk chain → src.length ≤ fuel →
    start + src.length < 2 ^ 32 → start + src.length ≤ fileSize disk slot →
    position ≤ 2048 * (chain slot).length →
    (src ≠ [] → position = min start (2048 * (chain slot).length)) →
    ∃ memory chain' count,
      count = min src.length (2048 * ((chain slot).length + freeClusters disk) - position) ∧
      writeLoop fuel disk slot src start =
        some ({ disk with memory := memory }, src.drop count) ∧
      Placed disk chain slot (src.take count) position memory chain'

/-- One turn of the write loop places its part. -/
theorem LoopPlaces.turn {slot fuel : Nat} (loop : LoopPlaces slot fuel)
    (inside : slot < rootEntryCount) {chain middle : Nat → List Nat}
    {src : List UInt8} {start position cluster offsetInCluster toWrite : Nat}
    (regions : Regions disk) (enough : src.length ≤ fuel + 1) (positive : 0 < src.length)
    (noWrap : start + src.length < 2 ^ 32) (covered : start + src.length ≤ fileSize disk slot)
    (counted : min src.length (2048 - offsetInCluster) = toWrite)
    (target : writeTarget disk slot start =
      some (some (cluster, offsetInCluster, { disk with memory := memory })))
    (size : fileSize { disk with memory := memory } slot = fileSize disk slot)
    (below : offsetInCluster < 2048)
    (part : Placed disk chain slot (src.take toWrite) position
      (writeData { disk with memory := memory } cluster offsetInCluster
        (src.take toWrite)).memory middle)
    (next : toWrite < src.length →
      position + toWrite = min (start + toWrite) (2048 * (middle slot).length))
    (left : (middle slot).length + freeClusters (writeData { disk with memory := memory } cluster
        offsetInCluster (src.take toWrite)) = (chain slot).length + freeClusters disk) :
    ∃ memory chain' count,
      count = min src.length (2048 * ((chain slot).length + freeClusters disk) - position) ∧
      writeLoop (fuel + 1) disk slot src start =
        some ({ disk with memory := memory }, src.drop count) ∧
      Placed disk chain slot (src.take count) position memory chain' := by
  have modulo : (start + src.length) % 2 ^ 32 ≤ fileSize { disk with memory := memory } slot := by
    rw [size, Nat.mod_eq_of_lt noWrap]
    exact covered
  have copied : (src.take toWrite).length = toWrite := by
    rw [length_take]
    omega
  have behind : (src.drop toWrite).length = src.length - toWrite := length_drop
  have grown := part.written.length
  rw [copied, clustersFor] at grown
  obtain ⟨final, chain', count, isCount, done, later⟩ := loop
    (writeData { disk with memory := memory } cluster offsetInCluster (src.take toWrite)) middle
    (src.drop toWrite) (start + toWrite) (position + toWrite) (regions.memory _)
    part.written.keeps.sound (by omega) (by omega)
    (by
      rw [behind]
      refine Nat.le_trans ?_ (Nat.le_of_eq (part.written.sizes slot inside).symm)
      omega)
    (by omega)
    (by
      intro present
      apply next
      have some := length_pos_of_ne_nil present
      omega)
  rw [left, behind] at isCount
  refine ⟨final, chain', toWrite + count, by omega, ?_, ?_⟩
  · obtain ⟨byte, rest, rfl⟩ := exists_cons_of_length_pos positive
    rw [writeLoop, target]
    dsimp only
    rw [clusterPart_eq offsetInCluster modulo, counted, if_neg (by omega),
      Nat.mod_eq_of_lt (by omega : start + toWrite < 2 ^ 32), ← drop_drop]
    exact done
  · rw [take_add]
    exact part.append (by rw [copied]; exact later)

/-- The write loop from any offset, by the number of its turns. Allocation only
happens at the end of the chain. -/
theorem writeLoop_places (slot : Nat) (inside : slot < rootEntryCount) (fuel : Nat) :
    LoopPlaces slot fuel := by
  induction fuel with
  | zero =>
    intro disk chain src start position regions sound enough _ _ reached _
    have empty : src = [] := eq_nil_of_length_eq_zero (by omega)
    subst src
    exact ⟨disk.memory, chain, 0, by simp, rfl, .nothing slot sound reached⟩
  | succ fuel ih =>
    intro disk chain src start position regions sound enough noWrap covered reached placed
    cases src with
    | nil => exact ⟨disk.memory, chain, 0, by simp, rfl, .nothing slot sound reached⟩
    | cons byte rest =>
      have positive : 0 < (byte :: rest).length := Nat.succ_pos _
      have place := placed (cons_ne_nil byte rest)
      have root := regions.rootFits
      rcases writeTarget_cases regions sound slot start inside with
        ⟨cluster, _, known, target⟩ |
          ⟨beyond, ⟨search, full⟩ | ⟨cluster, memory, target, lower, upper, free, keeps, after⟩⟩
      · have below : start % 2048 < 2048 := Nat.mod_lt _ (by decide)
        have within : start / 2048 < (chain slot).length :=
          (List.getElem?_eq_some_iff.mp known).1
        have here : position = start := by omega
        rw [here]
        have range := sound.cluster_lt slot inside cluster (mem_of_getElem? known)
        have count : ((byte :: rest).take
            (min (byte :: rest).length (2048 - start % 2048))).length ≤ 2048 - start % 2048 := by
          rw [length_take]
          omega
        have part := placed_part regions sound slot inside cluster start _ known
          (by omega : start % 2048 + ((byte :: rest).take
            (min (byte :: rest).length (2048 - start % 2048))).length ≤ 2048)
        have same := writeData_sameOutside disk cluster (start % 2048) ((byte :: rest).take
          (min (byte :: rest).length (2048 - start % 2048))) range.1 (by omega) (by omega)
        have unused : freeClusters (writeData disk cluster (start % 2048) ((byte :: rest).take
            (min (byte :: rest).length (2048 - start % 2048)))) = freeClusters disk :=
          freeClusters_congr disk _ regions (fun address lower => same address (by omega))
        apply LoopPlaces.turn ih inside regions enough positive noWrap covered rfl target rfl
          below part
        · intro more
          rw [fsClusterSize_eq] at more ⊢
          omega
        · exact congrArg ((chain slot).length + ·) unused
      · have none := freeClusters_none search
        have atEnd : position = 2048 * (chain slot).length := by
          by_contra inner
          exact beyond ⟨by omega, by rw [fsClusterSize_eq]; omega⟩
        refine ⟨disk.memory, chain, 0, by omega, ?_, .nothing slot sound reached⟩
        rw [writeLoop, full]
        rfl
      · have atEnd : position = 2048 * (chain slot).length := by
          by_contra inner
          exact beyond ⟨by omega, by rw [fsClusterSize_eq]; omega⟩
        rw [atEnd]
        have used := freeClusters_append regions sound inside lower upper free after
        have bound := totalClusters_lt disk
        have count : ((byte :: rest).take (min (byte :: rest).length (2048 - 0))).length =
            min (byte :: rest).length (2048 - 0) := by
          rw [length_take]
          omega
        have part := placed_newPart regions sound slot inside cluster ((byte :: rest).take
          (min (byte :: rest).length (2048 - 0))) free keeps after (by omega) (by omega)
        have same := writeData_sameOutside { disk with memory := memory } cluster 0
          ((byte :: rest).take (min (byte :: rest).length (2048 - 0))) lower (by omega) (by omega)
        have unused : freeClusters (writeData { disk with memory := memory } cluster 0
            ((byte :: rest).take (min (byte :: rest).length (2048 - 0)))) =
            freeClusters { disk with memory := memory } :=
          freeClusters_congr _ _ (regions.memory memory)
            (fun address lower => same address (.inl (by
              show address < disk.dataArea + _
              have below : address < disk.rootDir := lower
              omega)))
        apply LoopPlaces.turn ih inside regions enough positive noWrap covered rfl target
          (keeps.size slot inside) (by decide) part
        · rw [update_self, length_append, length_singleton]
          intro more
          omega
        · rw [update_self, length_append, length_singleton, unused]
          omega

theorem writeLoop_written (slot : Nat) (inside : slot < rootEntryCount) (fuel : Nat)
    (disk : RamDisk) (chain : Nat → List Nat) (src : List UInt8) (start : Nat)
    (regions : Regions disk) (sound : ChainsSound disk chain) (enough : src.length ≤ fuel)
    (noWrap : start + src.length < 2 ^ 32) (covered : start + src.length ≤ fileSize disk slot)
    (reached : start ≤ 2048 * (chain slot).length)
    (room : clustersFor (start + src.length) ≤ (chain slot).length + freeClusters disk) :
    ∃ memory chain',
      writeLoop fuel disk slot src start = some ({ disk with memory := memory }, []) ∧
      Written disk chain slot src start memory chain' := by
  obtain ⟨memory, chain', count, isCount, done, placed⟩ := writeLoop_places slot inside fuel disk
    chain src start start regions sound enough noWrap covered reached
    (fun _ => (Nat.min_eq_left reached).symm)
  have whole : count = src.length := by
    rw [clustersFor] at room
    omega
  rw [whole, drop_length] at done
  rw [whole, List.take_length] at placed
  exact ⟨memory, chain', done, placed.written⟩

end MinNT.Fs
