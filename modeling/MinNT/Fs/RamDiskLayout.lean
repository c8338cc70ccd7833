import MinNT.Fs.RamDisk

namespace MinNT.Fs

/-- Every cluster number the allocation loops try has its FAT entry in the FAT. -/
def FatInside (disk : RamDisk) : Prop :=
  ∀ cluster, 2 ≤ cluster → cluster < totalClusters disk →
    disk.fat + 2 * cluster + 2 ≤ disk.rootDir

/-- Every such cluster has its data inside the data area. -/
def DataInside (disk : RamDisk) : Prop :=
  ∀ cluster, 2 ≤ cluster → cluster < totalClusters disk →
    disk.dataArea ≤ fsClusterBase disk cluster ∧
      fsClusterBase disk cluster + fsClusterSize ≤ disk.size

/-- The three regions follow each other inside the disk. -/
def RegionsApart (disk : RamDisk) : Prop :=
  disk.fat + disk.sectorsPerFat * ramdiskSectorSize ≤ disk.rootDir ∧
    disk.rootDir + rootEntryCount * dirEntrySize ≤ disk.dataArea ∧ disk.dataArea ≤ disk.size

/-- Every whole cluster of the data area has a number below the bound. -/
def BoundCovers (disk : RamDisk) : Prop :=
  ∀ index, disk.dataArea + (index + 1) * fsClusterSize ≤ disk.size →
    index + 2 < totalClusters disk

structure LayoutSound (disk : RamDisk) : Prop where
  fatInside : FatInside disk
  dataInside : DataInside disk
  apart : RegionsApart disk
  covers : BoundCovers disk

theorem dataSectors_eq (totalSectors fatSize : Nat) (room : fatSize + 33 ≤ totalSectors) :
    subtract32 (subtract32 (subtract32 totalSectors reservedSectors) fatSize) rootDirSectors =
      totalSectors - fatSize - 33 := by
  have root : rootDirSectors = 32 := rfl
  have reserved : reservedSectors = 1 := rfl
  rw [root, reserved, subtract32_of_le (by omega : 1 ≤ totalSectors),
    subtract32_of_le (by omega : fatSize ≤ totalSectors - 1), subtract32_of_le (by omega)]
  omega

theorem firstTotalClusters_eq (sizeInMB : Nat) (positive : 0 < sizeInMB) :
    firstTotalClusters (sizeInMB * 2048) = 512 * sizeInMB - 9 := by
  rw [firstTotalClusters, dataSectors_eq _ _ (by omega)]
  simp only [sectorsPerCluster]
  omega

theorem fatSectors_eq (sizeInMB : Nat) (positive : 0 < sizeInMB) :
    fatSectors (sizeInMB * 2048) = if 8 ≤ sizeInMB then 2 * sizeInMB else 2 := by
  unfold fatSectors
  rw [firstTotalClusters_eq sizeInMB positive]
  by_cases large : 8 ≤ sizeInMB
  · rw [if_pos (by omega), if_pos large]
    simp only [ramdiskSectorSize]
    omega
  · rw [if_neg (by omega), if_neg large]

/-- The layout of a new disk, with nothing left to wrap. -/
structure NewLayout (sizeInMB fatSectors : Nat) (disk : RamDisk) : Prop where
  size : disk.size = sizeInMB * 2 ^ 20
  fat : disk.fat = 512
  rootDir : disk.rootDir = 512 + fatSectors * 512
  dataArea : disk.dataArea = 512 + fatSectors * 512 + 16384
  sectorsPerFat : disk.sectorsPerFat = fatSectors
  bound : totalClusters disk = (2048 * sizeInMB - fatSectors - 33) / 4 % 2 ^ 16

/-- The layout of a formatted disk, for every size. -/
theorem formatRamDisk_layout (around : ByteMemory) (sizeInMB : Nat) (positive : 0 < sizeInMB)
    (small : sizeInMB < 4096) :
    NewLayout sizeInMB (if 8 ≤ sizeInMB then 2 * sizeInMB else 2)
      (formatRamDisk around sizeInMB) := by
  have size : sizeInMB * 2 ^ 20 % 2 ^ 32 = sizeInMB * 2 ^ 20 := by omega
  have sectors : sizeInMB * 2 ^ 20 % 2 ^ 32 / ramdiskSectorSize = sizeInMB * 2048 := by
    simp only [ramdiskSectorSize]
    omega
  have fat := fatSectors_eq sizeInMB positive
  have narrow : (if 8 ≤ sizeInMB then 2 * sizeInMB else 2) < 2 ^ 16 ∧
      (if 8 ≤ sizeInMB then 2 * sizeInMB else 2) ≤ 2 * sizeInMB := by
    by_cases large : 8 ≤ sizeInMB
    · rw [if_pos large]
      omega
    · rw [if_neg large]
      omega
  constructor
  · exact size
  · rfl
  · show reservedSectors * ramdiskSectorSize + fatSectors _ * ramdiskSectorSize = _
    rw [sectors, fat]
    rfl
  · show reservedSectors * ramdiskSectorSize + fatSectors _ * ramdiskSectorSize +
      rootDirSectors * ramdiskSectorSize = _
    rw [sectors, fat]
    rfl
  · show fatSectors _ % 2 ^ 16 = _
    rw [sectors, fat]
    omega
  · show subtract32 (subtract32 (subtract32 (sizeInMB * 2 ^ 20 % 2 ^ 32 / ramdiskSectorSize)
      reservedSectors) (fatSectors (sizeInMB * 2 ^ 20 % 2 ^ 32 / ramdiskSectorSize) % 2 ^ 16))
      rootDirSectors / sectorsPerCluster % 2 ^ 16 = _
    rw [sectors, fat]
    generalize (if 8 ≤ sizeInMB then 2 * sizeInMB else 2) = fatSize at narrow ⊢
    rw [Nat.mod_eq_of_lt narrow.1, dataSectors_eq _ _ (by omega), Nat.mul_comm sizeInMB 2048]
    rfl

variable {sizeInMB fatSectors : Nat} {disk : RamDisk}

section Layout

variable (layout : NewLayout sizeInMB fatSectors disk)
include layout

theorem NewLayout.fatInside_iff :
    FatInside disk ↔ totalClusters disk ≤ 256 * fatSectors ∨ totalClusters disk ≤ 2 := by
  unfold FatInside
  rw [layout.fat, layout.rootDir]
  constructor
  · intro inside
    by_cases few : totalClusters disk ≤ 2
    · exact Or.inr few
    · have last := inside (totalClusters disk - 1) (by omega) (by omega)
      omega
  · intro bound cluster lower upper
    omega

theorem NewLayout.dataInside (small : sizeInMB < 4096)
    (fits : fatSectors + 33 ≤ 2048 * sizeInMB) : DataInside disk := by
  intro cluster lower upper
  have bound := layout.bound
  rw [fsClusterBase, subtract32_of_le lower]
  simp only [fsClusterSize, sectorsPerCluster, ramdiskSectorSize, layout.dataArea, layout.size]
  omega

theorem NewLayout.apart (fits : fatSectors + 33 ≤ 2048 * sizeInMB) : RegionsApart disk := by
  simp only [RegionsApart, layout.fat, layout.sectorsPerFat, layout.rootDir, layout.dataArea,
    layout.size, ramdiskSectorSize, rootEntryCount, dirEntrySize]
  omega

/-- Cluster numbers start at 2 but the bound counts clusters, so the last two
clusters of the data area have no number below it. -/
theorem NewLayout.uncovered (fits : fatSectors + 37 ≤ 2048 * sizeInMB) : ¬ BoundCovers disk := by
  intro covers
  have bound := layout.bound
  have last := covers ((2048 * sizeInMB - fatSectors - 33) / 4 - 1) (by
    simp only [fsClusterSize, sectorsPerCluster, ramdiskSectorSize, layout.dataArea, layout.size]
    omega)
  omega

end Layout

/-- The layout is unsound for every disk size. Data and regions are in order
for all of them, the FAT is too small from 2 to 7 MB, and the bound never covers
the data area. -/
theorem ramDiskLayout_unsound (around : ByteMemory) (block : Bool) (sizeInMB : Nat)
    (disk : RamDisk) (positive : 0 < sizeInMB) (small : sizeInMB < 4096)
    (created : fsCreateRamDisk none around block sizeInMB = (statusSuccess, some disk)) :
    ¬ LayoutSound disk ∧ (FatInside disk ↔ ¬ (2 ≤ sizeInMB ∧ sizeInMB ≤ 7)) ∧
      DataInside disk ∧ RegionsApart disk ∧ ¬ BoundCovers disk := by
  have same : disk = formatRamDisk around sizeInMB := by
    unfold fsCreateRamDisk at created
    cases block with
    | true => exact (Option.some.inj (congrArg Prod.snd created)).symm
    | false => exact absurd (congrArg Prod.snd created) (by simp)
  subst disk
  have layout := formatRamDisk_layout around sizeInMB positive small
  have sectors : (if 8 ≤ sizeInMB then 2 * sizeInMB else 2) + 37 ≤ 2048 * sizeInMB := by
    by_cases large : 8 ≤ sizeInMB
    · rw [if_pos large]
      omega
    · rw [if_neg large]
      omega
  have uncovered := layout.uncovered sectors
  refine ⟨fun sound => uncovered sound.covers, ?_, layout.dataInside small (by omega),
    layout.apart (by omega), uncovered⟩
  rw [layout.fatInside_iff, layout.bound]
  by_cases large : 8 ≤ sizeInMB
  · rw [if_pos large]
    have truncated := Nat.mod_le ((2048 * sizeInMB - 2 * sizeInMB - 33) / 4) (2 ^ 16)
    omega
  · rw [if_neg large]
    omega

/-- On a 4 MB disk the FAT entry of cluster 512 lies in the root directory. -/
theorem fourMegabytes_unsound :
    ∃ disk, fsCreateRamDisk none (fun _ => 0) true 4 = (statusSuccess, some disk) ∧
      ¬ LayoutSound disk ∧ ¬ FatInside disk := by
  have result := ramDiskLayout_unsound (fun _ => 0) true 4 _ (by decide) (by decide) rfl
  refine ⟨_, rfl, result.1, ?_⟩
  rw [result.2.1]
  decide

/-- Not every disk that can be created is laid out soundly. -/
theorem layoutSound_fails :
    ¬ ∀ (around : ByteMemory) (sizeInMB : Nat) (disk : RamDisk), 0 < sizeInMB → sizeInMB < 4096 →
      fsCreateRamDisk none around true sizeInMB = (statusSuccess, some disk) →
      LayoutSound disk := by
  intro sound
  have layout := formatRamDisk_layout (fun _ => 0) 4 (by decide) (by decide)
  have four := sound (fun _ => 0) 4 _ (by decide) (by decide) rfl
  exact layout.uncovered (by decide) four.covers

end MinNT.Fs
