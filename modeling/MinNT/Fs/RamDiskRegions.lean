import MinNT.Fs.RamDisk

namespace MinNT.Fs

open ByteMemory

/-- The FAT has an entry for every cluster below the bound, and the FAT, the
root directory and the data area follow each other. -/
structure Regions (disk : RamDisk) : Prop where
  fatFits : disk.fat + 2 * totalClusters disk ≤ disk.rootDir
  rootFits : disk.rootDir + dirEntrySize * rootEntryCount ≤ disk.dataArea

theorem totalClusters_lt (disk : RamDisk) : totalClusters disk < 2 ^ 16 :=
  Nat.mod_lt _ (by decide)

variable {disk : RamDisk}

theorem Regions.memory (regions : Regions disk) (memory : ByteMemory) :
    Regions { disk with memory := memory } :=
  ⟨regions.fatFits, regions.rootFits⟩

theorem fsClusterBase_eq (disk : RamDisk) (cluster : Nat) (lower : 2 ≤ cluster)
    (upper : cluster < 2 ^ 16) :
    fsClusterBase disk cluster = disk.dataArea + (cluster - 2) * 2048 := by
  rw [fsClusterBase, subtract32_of_le lower]
  simp only [fsClusterSize, sectorsPerCluster, ramdiskSectorSize]
  omega

theorem fsReadFatEntry_frame (disk : RamDisk) (memory : ByteMemory) (cluster : Nat)
    (inside : disk.fat + 2 * cluster + 2 ≤ disk.rootDir)
    (same : ∀ address, address < disk.rootDir → memory address = disk.memory address) :
    fsReadFatEntry { disk with memory := memory } cluster = fsReadFatEntry disk cluster := by
  simp only [fsReadFatEntry, load]
  rw [read_congr disk.memory memory]
  intro address lower upper
  exact same address (by omega)

/-- Two memories with the same bytes in one directory entry. -/
def SameEntry (disk : RamDisk) (memory : ByteMemory) (slot : Nat) : Prop :=
  ∀ address, dirEntry disk slot ≤ address → address < dirEntry disk slot + dirEntrySize →
    memory address = disk.memory address

variable {memory : ByteMemory}

theorem SameEntry.firstNameByte {slot : Nat} (same : SameEntry disk memory slot) :
    firstNameByte { disk with memory := memory } slot = firstNameByte disk slot := by
  apply same
  · exact Nat.le_refl _
  · show dirEntry disk slot < dirEntry disk slot + dirEntrySize
    simp only [dirEntrySize]
    omega

theorem SameEntry.firstCluster {slot : Nat} (same : SameEntry disk memory slot) :
    firstCluster { disk with memory := memory } slot = firstCluster disk slot := by
  unfold SameEntry at same
  simp only [dirEntrySize] at same
  show load memory 2 (dirEntry disk slot + 24) =
    load disk.memory 2 (dirEntry disk slot + 24)
  rw [load, read_congr disk.memory memory, load]
  intro address lower upper
  exact same address (by omega) (by omega)

theorem SameEntry.fileSize {slot : Nat} (same : SameEntry disk memory slot) :
    fileSize { disk with memory := memory } slot = fileSize disk slot := by
  unfold SameEntry at same
  simp only [dirEntrySize] at same
  show load memory 4 (dirEntry disk slot + 26) =
    load disk.memory 4 (dirEntry disk slot + 26)
  rw [load, read_congr disk.memory memory, load]
  intro address lower upper
  exact same address (by omega) (by omega)

theorem sameEntry_of_outside (disk : RamDisk) (memory : ByteMemory) (low high slot : Nat)
    (inside : slot < rootEntryCount) (same : ByteMemory.SameOutside disk.memory memory low high)
    (apart : high ≤ disk.rootDir ∨ disk.rootDir + dirEntrySize * rootEntryCount ≤ low) :
    SameEntry disk memory slot := by
  intro address lower upper
  apply same
  simp only [dirEntry, dirEntrySize, rootEntryCount] at *
  omega

theorem sameEntry_of_other (disk : RamDisk) (memory : ByteMemory) (slot other : Nat)
    (different : other ≠ slot)
    (same : ByteMemory.SameOutside disk.memory memory (dirEntry disk slot)
      (dirEntry disk slot + dirEntrySize)) : SameEntry disk memory other := by
  intro address lower upper
  apply same
  simp only [dirEntry, dirEntrySize] at *
  omega

/-- What allocation, data and size changes keep: the data area, every name and
every size. -/
structure KeepsFiles (disk : RamDisk) (memory : ByteMemory) : Prop where
  data : ∀ address, disk.dataArea ≤ address → memory address = disk.memory address
  size : ∀ slot, slot < rootEntryCount →
    fileSize { disk with memory := memory } slot = fileSize disk slot
  name : ∀ slot, slot < rootEntryCount →
    firstNameByte { disk with memory := memory } slot = firstNameByte disk slot

theorem KeepsFiles.trans {middle after : ByteMemory} (first : KeepsFiles disk middle)
    (second : KeepsFiles { disk with memory := middle } after) : KeepsFiles disk after where
  data := by
    intro address above
    rw [second.data address above]
    exact first.data address above
  size := by
    intro slot inside
    exact (second.size slot inside).trans (first.size slot inside)
  name := by
    intro slot inside
    exact (second.name slot inside).trans (first.name slot inside)

theorem fsReadFatEntry_write_same (disk : RamDisk) (cluster value : Nat) (small : value < 2 ^ 16) :
    fsReadFatEntry (fsWriteFatEntry disk cluster value) cluster = value := by
  show load (disk.memory.store 2 (disk.fat + 2 * cluster) value) 2 (disk.fat + 2 * cluster) = value
  rw [load_store_same]
  exact Nat.mod_eq_of_lt small

theorem fsReadFatEntry_write_other (disk : RamDisk) (cluster value other : Nat)
    (different : other ≠ cluster) :
    fsReadFatEntry (fsWriteFatEntry disk cluster value) other = fsReadFatEntry disk other := by
  show load (disk.memory.store 2 (disk.fat + 2 * cluster) value) 2 (disk.fat + 2 * other) = _
  apply load_store_disjoint
  omega

theorem fsWriteFatEntry_sameOutside (regions : Regions disk)
    (cluster value : Nat) (inside : cluster < totalClusters disk) :
    ByteMemory.SameOutside disk.memory (fsWriteFatEntry disk cluster value).memory
      disk.fat disk.rootDir := by
  have fits := regions.fatFits
  apply store_sameOutside <;> omega

theorem fsWriteFatEntry_sameEntry (regions : Regions disk) (cluster value slot : Nat)
    (inside : cluster < totalClusters disk) (slotInside : slot < rootEntryCount) :
    SameEntry disk (fsWriteFatEntry disk cluster value).memory slot :=
  sameEntry_of_outside disk _ _ _ slot slotInside
    (fsWriteFatEntry_sameOutside regions cluster value inside) (Or.inl (Nat.le_refl _))

theorem fsWriteFatEntry_keeps (regions : Regions disk) (cluster value : Nat)
    (inside : cluster < totalClusters disk) :
    KeepsFiles disk (fsWriteFatEntry disk cluster value).memory where
  data := by
    intro address above
    have root := regions.rootFits
    apply fsWriteFatEntry_sameOutside regions cluster value inside
    omega
  size := fun slot slotInside =>
    (fsWriteFatEntry_sameEntry regions cluster value slot inside slotInside).fileSize
  name := fun slot slotInside =>
    (fsWriteFatEntry_sameEntry regions cluster value slot inside slotInside).firstNameByte

theorem setFirstCluster_sameOutside (disk : RamDisk) (slot cluster : Nat) :
    ByteMemory.SameOutside disk.memory (setFirstCluster disk slot cluster).memory
      (dirEntry disk slot) (dirEntry disk slot + dirEntrySize) := by
  apply store_sameOutside
  · omega
  · simp only [dirEntrySize]
    omega

theorem setFileSize_sameOutside (disk : RamDisk) (slot size : Nat) :
    ByteMemory.SameOutside disk.memory (setFileSize disk slot size).memory
      (dirEntry disk slot) (dirEntry disk slot + dirEntrySize) := by
  apply store_sameOutside
  · omega
  · simp only [dirEntrySize]
    omega

theorem entryChange_apart (regions : Regions disk) (memory : ByteMemory)
    (slot : Nat) (inside : slot < rootEntryCount)
    (same : ByteMemory.SameOutside disk.memory memory (dirEntry disk slot)
      (dirEntry disk slot + dirEntrySize)) :
    (∀ address, address < disk.rootDir → memory address = disk.memory address) ∧
      ∀ address, disk.dataArea ≤ address → memory address = disk.memory address := by
  have root := regions.rootFits
  constructor
  · intro address below
    apply same
    simp only [dirEntry]
    omega
  · intro address above
    apply same
    simp only [dirEntry, dirEntrySize, rootEntryCount] at *
    omega

theorem firstCluster_setFirstCluster (disk : RamDisk) (slot cluster : Nat)
    (small : cluster < 2 ^ 16) :
    firstCluster (setFirstCluster disk slot cluster) slot = cluster := by
  show load (disk.memory.store 2 (dirEntry disk slot + 24) cluster) 2
    (dirEntry disk slot + 24) = cluster
  rw [load_store_same]
  exact Nat.mod_eq_of_lt small

theorem setFirstCluster_keeps (regions : Regions disk) (slot cluster : Nat)
    (inside : slot < rootEntryCount) :
    KeepsFiles disk (setFirstCluster disk slot cluster).memory where
  data := (entryChange_apart regions _ slot inside
    (setFirstCluster_sameOutside disk slot cluster)).2
  size := by
    intro other _
    by_cases same : other = slot
    · subst other
      show load (disk.memory.store 2 (dirEntry disk slot + 24) cluster) 4
        (dirEntry disk slot + 26) = _
      apply load_store_disjoint
      omega
    · exact (sameEntry_of_other disk _ slot other same
        (setFirstCluster_sameOutside disk slot cluster)).fileSize
  name := by
    intro other _
    by_cases same : other = slot
    · subst other
      apply store_sameOutside disk.memory 2 _ _ (dirEntry disk slot + 24)
        (dirEntry disk slot + 26) (Nat.le_refl _) (Nat.le_refl _)
      show dirEntry disk slot < _ ∨ _
      omega
    · exact (sameEntry_of_other disk _ slot other same
        (setFirstCluster_sameOutside disk slot cluster)).firstNameByte

theorem fileSize_setFileSize (disk : RamDisk) (slot size : Nat) (small : size < 2 ^ 32) :
    fileSize (setFileSize disk slot size) slot = size := by
  show load (disk.memory.store 4 (dirEntry disk slot + 26) size) 4 (dirEntry disk slot + 26) = size
  rw [load_store_same]
  exact Nat.mod_eq_of_lt small

theorem firstCluster_setFileSize (disk : RamDisk) (slot size other : Nat) :
    firstCluster (setFileSize disk slot size) other = firstCluster disk other := by
  by_cases same : other = slot
  · subst other
    show load (disk.memory.store 4 (dirEntry disk slot + 26) size) 2 (dirEntry disk slot + 24) = _
    apply load_store_disjoint
    omega
  · exact (sameEntry_of_other disk _ slot other same
      (setFileSize_sameOutside disk slot size)).firstCluster

theorem firstNameByte_setFileSize (disk : RamDisk) (slot size other : Nat) :
    firstNameByte (setFileSize disk slot size) other = firstNameByte disk other := by
  by_cases same : other = slot
  · subst other
    apply store_sameOutside disk.memory 4 _ _ (dirEntry disk slot + 26)
      (dirEntry disk slot + 30) (Nat.le_refl _) (Nat.le_refl _)
    show dirEntry disk slot < _ ∨ _
    omega
  · exact (sameEntry_of_other disk _ slot other same
      (setFileSize_sameOutside disk slot size)).firstNameByte

theorem writeData_sameOutside (disk : RamDisk) (cluster offsetInCluster : Nat) (bytes : List UInt8)
    (lower : 2 ≤ cluster) (upper : cluster < 2 ^ 16)
    (fits : offsetInCluster + bytes.length ≤ 2048) :
    ByteMemory.SameOutside disk.memory (writeData disk cluster offsetInCluster bytes).memory
      (disk.dataArea + (cluster - 2) * 2048) (disk.dataArea + (cluster - 2) * 2048 + 2048) := by
  have base := fsClusterBase_eq disk cluster lower upper
  apply write_sameOutside <;> omega

theorem writeData_otherCluster (disk : RamDisk) (cluster other offsetInCluster index : Nat)
    (bytes : List UInt8) (lower : 2 ≤ cluster) (upper : cluster < 2 ^ 16) (otherLower : 2 ≤ other)
    (otherUpper : other < 2 ^ 16) (different : other ≠ cluster) (below : index < 2048)
    (fits : offsetInCluster + bytes.length ≤ 2048) :
    (writeData disk cluster offsetInCluster bytes).memory (fsClusterBase disk other + index) =
      disk.memory (fsClusterBase disk other + index) := by
  apply writeData_sameOutside disk cluster offsetInCluster bytes lower upper fits
  rw [fsClusterBase_eq disk other otherLower otherUpper]
  omega

end MinNT.Fs
