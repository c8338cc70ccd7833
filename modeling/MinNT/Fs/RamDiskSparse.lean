import MinNT.Fs.RamDiskRefinement

namespace MinNT.Fs

open List Chain

/-- The clusters the FAT leads through, as long as they do not end the chain. -/
def walkClusters (disk : RamDisk) : Nat → Nat → List Nat
  | 0, _ => []
  | fuel + 1, cluster =>
      if chainStops cluster then []
      else cluster :: walkClusters disk fuel (fsReadFatEntry disk cluster)

/-- The clusters of a file. FAT entries are words, so a chain that ends has fewer
than `2 ^ 16`. -/
def fileClusters (disk : RamDisk) (slot : Nat) : List Nat :=
  walkClusters disk (2 ^ 16) (firstCluster disk slot)

theorem walkClusters_linked (disk : RamDisk) (cells : List Nat) :
    ∀ first fuel, Linked (fsReadFatEntry disk) EndOfChain first cells →
      (∀ cell ∈ cells, 2 ≤ cell ∧ cell < 2 ^ 16 - 1) → cells.length < fuel →
      walkClusters disk fuel first = cells := by
  induction cells with
  | nil =>
    intro first fuel linked _ enough
    obtain ⟨fuel, rfl⟩ := Nat.exists_eq_succ_of_ne_zero (Nat.ne_of_gt enough)
    have ends : first = 0xFFFF := linked
    rw [ends]
    rfl
  | cons cell cells ih =>
    intro first fuel linked range enough
    obtain ⟨fuel, rfl⟩ := Nat.exists_eq_succ_of_ne_zero (Nat.ne_of_gt (Nat.zero_lt_of_lt enough))
    obtain ⟨rfl, rest⟩ := linked
    have bounds := range first mem_cons_self
    rw [walkClusters, chainStops_cluster bounds.1 bounds.2,
      ih _ fuel rest (fun other member => range other (mem_cons_of_mem _ member))
        (Nat.lt_of_succ_lt_succ enough)]
    rfl

variable {chain : Nat → List Nat}

theorem ChainsSound.fileClusters {disk : RamDisk} (sound : ChainsSound disk chain) {slot : Nat}
    (inside : slot < rootEntryCount) : fileClusters disk slot = chain slot := by
  by_cases empty : chain slot = []
  · rw [Fs.fileClusters, (sound.firstCluster_zero slot inside).mpr empty, empty]
    rfl
  · have range := sound.cluster_lt slot inside
    have short := length_le_of_nodup (sound.once slot inside)
      (fun cell member => (range cell member).2)
    exact walkClusters_linked disk _ _ _ (sound.linked slot inside empty) range (by omega)

/-- Where the bytes of a write end up in the file's clusters. -/
structure Landed (disk after : RamDisk) (cells cells' : List Nat) (src : List UInt8)
    (position : Nat) : Prop where
  length : cells'.length = max cells.length (clustersFor (position + src.length))
  written : ∀ index, index < src.length →
    byteAt after cells' (position + index) = src.getD index 0
  untouched : ∀ offset, offset < 2048 * cells.length →
    offset < position ∨ position + src.length ≤ offset →
    byteAt after cells' offset = byteAt disk cells offset
  fresh : ∀ offset, position + src.length ≤ offset → 2048 * cells.length ≤ offset →
    offset < 2048 * cells'.length → byteAt after cells' offset = 0

/-- `NtWriteFile` that does not wrap: the size is raised for all of the request,
and the bytes go to their offset or, if that is behind the chain, to its end. -/
theorem ntWriteFile_lands {disk : RamDisk} (regions : Regions disk)
    (sound : ChainsSound disk chain) (zero : FreeZero disk) (file : FileObject)
    (inside : file.fsContext < rootEntryCount) (byteOffset : Option Nat) (buffer : List UInt8)
    (noWrap : requestOffset file byteOffset + buffer.length < 2 ^ 32) :
    ∃ memory chain' count,
      count = min buffer.length (2048 * ((chain file.fsContext).length + freeClusters disk) -
        min (requestOffset file byteOffset) (2048 * (chain file.fsContext).length)) ∧
      ntWriteFile disk file byteOffset buffer =
        some (⟨statusSuccess, count⟩,
          { file with currentOffset := requestOffset file byteOffset + count },
          { disk with memory := memory }) ∧
      fileSize { disk with memory := memory } file.fsContext =
        max (fileSize disk file.fsContext) (requestOffset file byteOffset + buffer.length) ∧
      ChainsSound { disk with memory := memory } chain' ∧
      Landed disk { disk with memory := memory } (chain file.fsContext) (chain' file.fsContext)
        (buffer.take count)
        (min (requestOffset file byteOffset) (2048 * (chain file.fsContext).length)) := by
  obtain ⟨grown, same, keeps, kept, size, _⟩ := growFileSize_keeps regions sound file.fsContext
    (requestOffset file byteOffset + buffer.length) inside noWrap
  have front : ∀ address, address < disk.rootDir → grown address = disk.memory address :=
    fun address below => kept address (.inl below)
  have data : ∀ address, disk.dataArea ≤ address → grown address = disk.memory address :=
    fun address above => kept address (.inr above)
  have fatKept : freeClusters { disk with memory := grown } = freeClusters disk :=
    freeClusters_congr disk grown regions front
  have grownZero : FreeZero { disk with memory := grown } := by
    refine zero.congr data ?_
    intro cluster lower upper free
    have fits := regions.fatFits
    rw [← free]
    exact (fsReadFatEntry_frame disk grown cluster (by omega) front).symm
  obtain ⟨memory, chain', count, isCount, done, placed⟩ := writeLoop_places file.fsContext inside
    buffer.length { disk with memory := grown } chain buffer (requestOffset file byteOffset)
    (min (requestOffset file byteOffset) (2048 * (chain file.fsContext).length))
    (regions.memory grown) keeps.sound (Nat.le_refl _) noWrap (by
      rw [size]
      exact Nat.le_max_right _ _) (Nat.min_le_right _ _) (fun _ => rfl)
  rw [fatKept] at isCount
  have bound : count ≤ buffer.length := by omega
  refine ⟨memory, chain', count, isCount, ?_,
    (placed.written.sizes _ inside).trans size, placed.written.keeps.sound, ?_⟩
  · unfold ntWriteFile
    dsimp only
    rw [Nat.mod_eq_of_lt noWrap, same, done]
    simp only [Option.map_some, length_drop, Nat.sub_sub_self bound]
    rw [Nat.mod_eq_of_lt (by omega)]
  · refine ⟨placed.written.length, placed.written.written, ?_, placed.fresh grownZero⟩
    intro offset below apart
    exact (placed.written.untouched offset below apart).trans
      (byteAt_congr sound data file.fsContext offset inside below)

/-- What a write behind the end of a file should do: the bytes are read back, the
hole in front of them reads as zeros, and nothing below the old size changes. -/
def SparseWritten (disk : RamDisk) (file : FileObject) (byteOffset : Option Nat)
    (buffer : List UInt8) : Prop :=
  ∃ status file' after,
    ntWriteFile disk file byteOffset buffer = some (status, file', after) ∧
    (0 < buffer.length → ∃ later,
      ntReadFile after file' (some (requestOffset file byteOffset)) buffer.length =
        (⟨statusSuccess, buffer.length⟩, buffer, later)) ∧
    (∀ offset, fileSize disk file.fsContext ≤ offset → offset < requestOffset file byteOffset →
      readByte after file' offset = (⟨statusSuccess, 1⟩, [0])) ∧
    ∀ offset, offset < fileSize disk file.fsContext →
      readByte after file' offset = readByte disk file offset

/-- The file's clusters reach up to the offset and are zero behind the old size; or
only zeros are written, the clusters cover the old size and the new ones all of the
request. -/
def HoleCovered (disk : RamDisk) (file : FileObject) (byteOffset : Option Nat)
    (buffer : List UInt8) : Prop :=
  let cells := fileClusters disk file.fsContext
  let zeroUpTo := fun bound => ∀ offset, offset < bound → fileSize disk file.fsContext ≤ offset →
    byteAt disk cells offset = 0
  (requestOffset file byteOffset ≤ 2048 * cells.length ∧
      zeroUpTo (requestOffset file byteOffset)) ∨
    ((∀ byte ∈ buffer, byte = 0) ∧ fileSize disk file.fsContext ≤ 2048 * cells.length ∧
      zeroUpTo (2048 * cells.length) ∧
      requestOffset file byteOffset + buffer.length ≤
        2048 * (cells.length + clustersFor buffer.length))

instance (disk : RamDisk) (file : FileObject) (byteOffset : Option Nat) (buffer : List UInt8) :
    Decidable (HoleCovered disk file byteOffset buffer) :=
  inferInstanceAs (Decidable ((_ ∧ _) ∨ (_ ∧ _ ∧ _ ∧ _)))

theorem zeros_of_shift {src : List UInt8} {shift : Nat} (positive : 0 < shift)
    (shifted : ∀ index, index < src.length → src.getD (index + shift) 0 = src.getD index 0) :
    ∀ byte ∈ src, byte = 0 := by
  -- Counting from the end of the list.
  have behind : ∀ left index, src.length ≤ index + left → src.getD index 0 = 0 := by
    intro left
    induction left with
    | zero =>
      intro index past
      exact getD_eq_default _ _ past
    | succ left ih =>
      intro index past
      by_cases inner : index < src.length
      · rw [← shifted index inner]
        exact ih (index + shift) (by omega)
      · exact getD_eq_default _ _ (Nat.le_of_not_lt inner)
  intro byte member
  obtain ⟨index, bound, rfl⟩ := getElem_of_mem member
  rw [← getD_eq_getElem _ 0 bound]
  exact behind src.length index (by omega)

theorem getD_of_zeros {src : List UInt8} (zeros : ∀ byte ∈ src, byte = 0) (index : Nat) :
    src.getD index 0 = 0 := by
  by_cases inner : index < src.length
  · rw [getD_eq_getElem _ _ inner]
    exact zeros _ (getElem_mem inner)
  · exact getD_eq_default _ _ (Nat.le_of_not_lt inner)

/-- `SparseWritten`, said of the bytes in the file's clusters. -/
structure HoleRight (disk after : RamDisk) (cells cells' : List Nat) (buffer : List UInt8)
    (size offset : Nat) : Prop where
  readBack : 0 < buffer.length → offset + buffer.length ≤ 2048 * cells'.length ∧
    ∀ index, index < buffer.length → byteAt after cells' (offset + index) = buffer.getD index 0
  hole : ∀ other, size ≤ other → other < offset →
    other < 2048 * cells'.length ∧ byteAt after cells' other = 0
  below : ∀ other, other < size →
    (other < 2048 * cells'.length ↔ other < 2048 * cells.length) ∧
      (other < 2048 * cells.length → byteAt after cells' other = byteAt disk cells other)

theorem Landed.holeRight_within {disk after : RamDisk} {cells cells' : List Nat}
    {buffer : List UInt8} {size offset : Nat}
    (landed : Landed disk after cells cells' buffer offset) (beyond : size < offset)
    (within : offset ≤ 2048 * cells.length) :
    HoleRight disk after cells cells' buffer size offset ↔
      ∀ other, other < offset → size ≤ other → byteAt disk cells other = 0 := by
  have length := landed.length
  rw [clustersFor] at length
  have kept : ∀ other, other < offset → byteAt after cells' other = byteAt disk cells other :=
    fun other below => landed.untouched other (by omega) (.inl below)
  constructor
  · intro right other below above
    rw [← kept other below]
    exact (right.hole other above below).2
  · intro zeros
    refine ⟨fun _ => ⟨by omega, landed.written⟩, ?_, ?_⟩
    · intro other above below
      refine ⟨by omega, ?_⟩
      rw [kept other below]
      exact zeros other below above
    · intro other below
      exact ⟨by omega, fun _ => kept other (by omega)⟩

/-- When a hole that begins behind the last cluster comes out right. -/
theorem Landed.holeRight_behind {disk after : RamDisk} {cells cells' : List Nat}
    {buffer : List UInt8} {size offset : Nat}
    (landed : Landed disk after cells cells' buffer (2048 * cells.length))
    (beyond : size < offset) (behind : 2048 * cells.length < offset) :
    HoleRight disk after cells cells' buffer size offset ↔
      (∀ byte ∈ buffer, byte = 0) ∧ size ≤ 2048 * cells.length ∧
        (∀ other, other < 2048 * cells.length → size ≤ other → byteAt disk cells other = 0) ∧
        offset + buffer.length ≤ 2048 * (cells.length + clustersFor buffer.length) := by
  have length : cells'.length = cells.length + clustersFor buffer.length := by
    have grown := landed.length
    rw [clustersFor] at grown ⊢
    omega
  have kept : ∀ other, other < 2048 * cells.length →
      byteAt after cells' other = byteAt disk cells other :=
    fun other below => landed.untouched other below (.inl below)
  have reached : ∀ index, 2048 * cells.length + index < 2048 * cells'.length →
      byteAt after cells' (2048 * cells.length + index) = buffer.getD index 0 := by
    intro index below
    by_cases inner : index < buffer.length
    · exact landed.written index inner
    · rw [getD_eq_default _ _ (Nat.le_of_not_lt inner)]
      exact landed.fresh _ (by omega) (by omega) below
  constructor
  · intro right
    have last := (right.hole (offset - 1) (by omega) (by omega)).1
    have some : 0 < buffer.length := by
      rw [length, clustersFor] at last
      omega
    obtain ⟨covered, read⟩ := right.readBack some
    refine ⟨?_, ?_, ?_, by rw [← length]; exact covered⟩
    · refine zeros_of_shift (Nat.sub_pos_of_lt behind) ?_
      intro index inner
      have there := reached (index + (offset - 2048 * cells.length)) (by omega)
      rw [← read index inner, ← there]
      congr 1
      omega
    · by_contra short
      have more := (right.below (2048 * cells.length) (by omega)).1.mp (by omega)
      omega
    · intro other below above
      rw [← kept other below]
      exact (right.hole other above (by omega)).2
  · intro known
    obtain ⟨zeros, covers, old, fits⟩ := known
    rw [← length] at fits
    refine ⟨fun _ => ⟨fits, ?_⟩, ?_, ?_⟩
    · intro index inner
      have there := reached (offset + index - 2048 * cells.length) (by omega)
      rw [show 2048 * cells.length + (offset + index - 2048 * cells.length) = offset + index by
        omega] at there
      rw [there, getD_of_zeros zeros, getD_of_zeros zeros]
    · intro other above below
      refine ⟨by omega, ?_⟩
      by_cases inner : other < 2048 * cells.length
      · rw [kept other inner]
        exact old other inner above
      · have there := reached (other - 2048 * cells.length) (by omega)
        rw [show 2048 * cells.length + (other - 2048 * cells.length) = other by omega] at there
        rw [there, getD_of_zeros zeros]
    · intro other below
      exact ⟨by omega, fun _ => kept other (by omega)⟩

/-- A write behind the end lands; its hole is judged on the new bytes. -/
theorem ntWriteFile_holeRight {disk : RamDisk} (regions : Regions disk)
    (sound : ChainsSound disk chain) (zero : FreeZero disk) (file : FileObject)
    (inside : file.fsContext < rootEntryCount) (byteOffset : Option Nat) (buffer : List UInt8)
    (beyond : fileSize disk file.fsContext < requestOffset file byteOffset)
    (noWrap : requestOffset file byteOffset + buffer.length < 2 ^ 32)
    (room : clustersFor (requestOffset file byteOffset + buffer.length) ≤
      (chain file.fsContext).length + freeClusters disk) :
    ∃ after cells',
      Landed disk after (chain file.fsContext) cells' buffer
        (min (requestOffset file byteOffset) (2048 * (chain file.fsContext).length)) ∧
      (SparseWritten disk file byteOffset buffer ↔
        HoleRight disk after (chain file.fsContext) cells' buffer
          (fileSize disk file.fsContext) (requestOffset file byteOffset)) := by
  obtain ⟨memory, chain', count, isCount, done, size, after, landed⟩ :=
    ntWriteFile_lands regions sound zero file inside byteOffset buffer noWrap
  have whole : count = buffer.length := by
    rw [clustersFor] at room
    omega
  rw [Nat.max_eq_right (by omega)] at size
  rw [whole] at done landed
  rw [List.take_length] at landed
  refine ⟨_, _, landed, ?_⟩
  generalize shape : FileObject.mk (requestOffset file byteOffset + buffer.length) file.fsContext =
    file' at done
  have same : file'.fsContext = file.fsContext := by rw [← shape]
  have inside' : file'.fsContext < rootEntryCount := same.symm ▸ inside
  rw [← same] at size
  have before := readByte_chain sound file inside
  have now := readByte_chain after file' inside'
  have one : ∀ byte, ((⟨statusSuccess, 0⟩, []) : IoStatus × List UInt8) ≠
      (⟨statusSuccess, 1⟩, [byte]) := by simp
  rw [same] at now
  constructor
  · intro right
    obtain ⟨status, _, _, result, readBack, hole, below⟩ := right
    rw [done] at result
    cases result
    refine ⟨?_, ?_, ?_⟩
    · intro positive
      have known := (readBack_iff after file' inside' _ buffer positive (Nat.le_of_eq size.symm)).mp
        (readBack positive)
      rwa [same] at known
    · intro other above inner
      have known := hole other above inner
      rw [now other (by rw [← same, size]; omega)] at known
      split at known
      · rename_i covered
        exact ⟨covered, by simpa using known⟩
      · exact absurd known (one _)
    · intro other inner
      have known := below other inner
      rw [now other (by rw [← same, size]; omega), before other inner] at known
      split at known
      · rename_i covered
        split at known
        · rename_i old
          exact ⟨iff_of_true covered old, fun _ => by simpa using known⟩
        · exact absurd known.symm (one _)
      · rename_i short
        split at known
        · exact absurd known (one _)
        · rename_i old
          exact ⟨iff_of_false short old, fun inner => absurd inner old⟩
  · intro right
    refine ⟨_, _, _, done, ?_, ?_, ?_⟩
    · intro positive
      apply (readBack_iff after file' inside' _ buffer positive (Nat.le_of_eq size.symm)).mpr
      rw [same]
      exact right.readBack positive
    · intro other above inner
      obtain ⟨covered, byte⟩ := right.hole other above inner
      rw [now other (by rw [← same, size]; omega), if_pos covered, byte]
    · intro other inner
      obtain ⟨covered, byte⟩ := right.below other inner
      rw [now other (by rw [← same, size]; omega), before other inner]
      by_cases old : other < 2048 * (chain file.fsContext).length
      · rw [if_pos (covered.mpr old), if_pos old, byte old]
      · rw [if_neg (fun inner => old (covered.mp inner)), if_neg old]

theorem newFile_run : RamRun oneMegabyte NameKept AnyWrite (fillEntry oneMegabyte 0 [0x41] 0)
    [⟨0, 0⟩] :=
  .create .start [0x41] ⟨by decide, by decide⟩
    (fsCreateFileEntry_slotZero oneMegabyte [0x41] 0 (by decide +kernel))

end MinNT.Fs
