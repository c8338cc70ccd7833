import MinNT.Fs.Fat32Directory
import MinNT.Fs.Fat32Mount
import MinNT.Setupapi.Format

namespace MinNT.Setupapi

open ByteMemory List MinNT.Fat32

/-- A partition with room for the reserved sectors, two FATs and three clusters. -/
structure Partition.Formattable (p : Partition) : Prop where
  below : p.startSector + p.sectorCount < 2 ^ 32
  large : 32 + 2 * (p.sectorCount / 4096 + 1) + 8 * 3 ≤ p.sectorCount

/-- `DoFormat` on a disk, and a mount of the partition afterwards. -/
def formatAndMount (g : Install) (diskNumber partitionIndex ts : Nat) (p : Partition)
    (contents : ByteMemory) (room : Bool) (pool : ByteMemory) (mount : Mount) :
    FormatResult × Option (NtStatus × Mount) :=
  let formatted := doFormat g diskNumber partitionIndex ts ⟨contents, []⟩
  (formatted,
    fat32MountPartition room pool { mount with disk := formatted.disk.contents } p.startSector)

/-- An empty root directory, whose cluster is not free, and a FAT with room for an
entry for every cluster. -/
structure UsableVolume (mount : Mount) : Prop where
  empty : fat32ReadDirectory true mount.toVolume mount.rootCluster 64 = some (.ok [])
  room : (mount.fatEntries + 2) * 4 ≤ mount.sectorsPerFat * 512
  root : mount.fatCache mount.rootCluster ≠ 0

/-- What a format promises: it stays in its partition, and the partition can be
mounted and used. -/
def FormatsUsable (p : Partition) (result : FormatResult × Option (NtStatus × Mount)) : Prop :=
  (∀ lba ∈ result.1.disk.written,
    p.startSector ≤ lba ∧ lba < p.startSector + p.sectorCount) ∧
  ∃ mount, result.2 = some (statusSuccess, mount) ∧ UsableVolume mount

/-- The boot sector, and zeros from the second word of the FATs to the end of the
root cluster. -/
structure Formatted (p : Partition) (ts : Nat) (disk : Disk) : Prop where
  boot : ByteMemory.read disk.contents (p.startSector * 512) 512 =
    bootSector p.startSector p.sectorCount (p.sectorCount / 4096 + 1) ts
  zeros : ∀ index, (p.startSector + 32) * 512 + 4 ≤ index →
    index < (p.startSector + 32 + 2 * (p.sectorCount / 4096 + 1) + 8) * 512 →
    disk.contents index = 0
  written : ∀ lba, lba ∈ disk.written ↔ lba = p.startSector ∨ p.startSector + 32 ≤ lba ∧
    lba < p.startSector + 32 + 2 * (p.sectorCount / 4096 + 1) + 8

section Format

variable {g : Install} {p : Partition} {partitionIndex diskNumber : Nat}

/-- What `DoFormat` leaves on the disk. -/
theorem doFormat_formatted (exists' : diskNumber < g.diskCount)
    (selected : g.selectedDisk < g.diskCount) (found : g.partitions[partitionIndex]? = some p)
    (formattable : p.Formattable) (ts : Nat) (contents : ByteMemory) :
    (doFormat g diskNumber partitionIndex ts ⟨contents, []⟩).status = statusSuccess ∧
      Formatted p ts (doFormat g diskNumber partitionIndex ts ⟨contents, []⟩).disk := by
  have below := formattable.below
  have large := formattable.large
  have total : p.sectorCount % 2 ^ 32 = p.sectorCount := Nat.mod_eq_of_lt (by omega)
  have fat : (p.startSector + 32) % 2 ^ 32 = p.startSector + 32 := Nat.mod_eq_of_lt (by omega)
  have ok : ntSuccess statusSuccess = true := rfl
  simp only [doFormat, if_neg (Nat.not_le_of_lt exists'), found, osInstallDiskWrite_eq selected,
    total, fat, ok, if_true, true_and]
  generalize spf : p.sectorCount / 4096 + 1 = sectorsPerFat at large
  have fat2 : (p.startSector + 32 + sectorsPerFat) % 2 ^ 32 = p.startSector + 32 + sectorsPerFat :=
    Nat.mod_eq_of_lt (by omega)
  have root : (p.startSector + 32 + sectorsPerFat + sectorsPerFat) % 2 ^ 32 =
      p.startSector + 32 + sectorsPerFat + sectorsPerFat := Nat.mod_eq_of_lt (by omega)
  rw [fat2, root]
  have zeroed := zeroedFats_contents selected (show 1 ≤ sectorsPerFat by omega)
    (show p.startSector + 32 + sectorsPerFat + sectorsPerFat + 8 ≤ 2 ^ 32 by omega)
  refine ⟨?_, ?_, ?_⟩
  · -- Everything else is written behind the boot sector.
    have written := read_write_same contents (p.startSector * 512)
      (bootSector p.startSector p.sectorCount sectorsPerFat ts)
    rw [bootSector_length] at written
    rw [spf]
    refine Eq.trans (read_congr _ _ _ _ ?_) written
    intro index lower upper
    rw [zeroed, if_neg (by omega)]
    exact write_outside _ _ _ _ (Or.inl (by omega))
  · intro index lower upper
    rw [zeroed]
    split
    · rfl
    rename_i front
    have shape : p.startSector + 32 + 2 * (p.sectorCount / 4096 + 1) + 8 =
        p.startSector + 32 + sectorsPerFat + sectorsPerFat + 8 := by omega
    have first : index < (p.startSector + 32) * 512 + 512 := by
      rw [shape] at upper
      have short := fun longer => front ⟨longer, upper⟩
      rw [Nat.add_mul _ 1] at short
      exact Nat.lt_of_not_le short
    have inside := Nat.le_trans (Nat.le_add_right _ 4) lower
    have behind := Nat.le_sub_of_add_le' lower
    refine (write_inside _ _ _ _ inside ?_).trans (mediaSector_zero behind)
    rwa [mediaSector_length]
  · intro lba
    rw [zeroSectors_written selected _ _ (by omega), zeroSectors_written selected _ _ (by omega),
      zeroSectors_written selected _ _ (by omega), mem_append, mem_append,
      mem_singleton, mem_singleton, spf]
    simp only [not_mem_nil, false_or]
    omega

end Format

section Fields

variable (startSector totalSectors sectorsPerFat ts : Nat)

theorem bootSector_fixed :
    bpbField (bootSector startSector totalSectors sectorsPerFat ts) 11 2 = 512 ∧
    bpbField (bootSector startSector totalSectors sectorsPerFat ts) 13 1 = 8 ∧
    bpbField (bootSector startSector totalSectors sectorsPerFat ts) 14 2 = 32 ∧
    bpbField (bootSector startSector totalSectors sectorsPerFat ts) 16 1 = 2 ∧
    bpbField (bootSector startSector totalSectors sectorsPerFat ts) 17 2 = 0 ∧
    bpbField (bootSector startSector totalSectors sectorsPerFat ts) 22 2 = 0 ∧
    bpbField (bootSector startSector totalSectors sectorsPerFat ts) 44 4 = 2 :=
  ⟨rfl, rfl, rfl, rfl, rfl, rfl, rfl⟩

theorem bootSector_totalSectors :
    bpbField (bootSector startSector totalSectors sectorsPerFat ts) 32 4 =
      totalSectors % 2 ^ 32 :=
  decodeLE_encodeLE 4 totalSectors

theorem bootSector_sectorsPerFat :
    bpbField (bootSector startSector totalSectors sectorsPerFat ts) 36 4 =
      sectorsPerFat % 2 ^ 32 :=
  decodeLE_encodeLE 4 sectorsPerFat

end Fields

/-- The mount of a formatted partition. -/
structure MountedAs (p : Partition) (contents : ByteMemory) (mount : Mount) : Prop where
  disk : mount.disk = contents
  sectorsPerCluster : mount.sectorsPerCluster = 8
  bytesPerCluster : mount.bytesPerCluster = 4096
  rootCluster : mount.rootCluster = 2
  sectorsPerFat : mount.sectorsPerFat = p.sectorCount / 4096 + 1
  dataStart : mount.dataStart = p.startSector + 32 + 2 * (p.sectorCount / 4096 + 1)
  fatEntries :
    mount.fatEntries = (p.sectorCount - (32 + 2 * (p.sectorCount / 4096 + 1))) / 8
  fatCache : ∀ cluster < 256, mount.fatCache cluster =
    load contents 4 ((p.startSector + 32) * 512 + 4 * cluster)

section Mounting

variable {p : Partition} {ts : Nat} {disk : Disk}

/-- A formatted partition is mounted if the pool has room for its FAT. -/
theorem fat32MountPartition_formatted (formattable : p.Formattable)
    (formatted : Formatted p ts disk) (room : Bool) (pool : ByteMemory) (mount : Mount) :
    ∃ mounted, fat32MountPartition room pool { mount with disk := disk.contents } p.startSector =
      some (if room then statusSuccess else statusNoMemory, mounted) ∧
      (room = true → MountedAs p disk.contents mounted) := by
  have below := formattable.below
  have large := formattable.large
  obtain ⟨sector, cluster, reserved, fats, rootEntries, fat16, root⟩ :=
    bootSector_fixed p.startSector p.sectorCount (p.sectorCount / 4096 + 1) ts
  have total := bootSector_totalSectors p.startSector p.sectorCount (p.sectorCount / 4096 + 1) ts
  have spf := bootSector_sectorsPerFat p.startSector p.sectorCount (p.sectorCount / 4096 + 1) ts
  rw [Nat.mod_eq_of_lt (by omega)] at total spf
  have fatTotal : 2 * (p.sectorCount / 4096 + 1) % 2 ^ 32 = 2 * (p.sectorCount / 4096 + 1) :=
    Nat.mod_eq_of_lt (by omega)
  have front : (32 + 2 * (p.sectorCount / 4096 + 1)) % 2 ^ 32 =
      32 + 2 * (p.sectorCount / 4096 + 1) := Nat.mod_eq_of_lt (by omega)
  have notEmpty : p.sectorCount ≠ 0 := by omega
  have data : subtract32 p.sectorCount (32 + 2 * (p.sectorCount / 4096 + 1)) =
      p.sectorCount - (32 + 2 * (p.sectorCount / 4096 + 1)) := subtract32_of_le (by omega)
  have boot : fat32ReadSectors { mount with disk := disk.contents }.toVolume p.startSector 1 =
      bootSector p.startSector p.sectorCount (p.sectorCount / 4096 + 1) ts := formatted.boot
  unfold fat32MountPartition
  simp only [boot, sector, cluster, reserved, fats, rootEntries, fat16, root, total, spf, fatTotal,
    front, data, notEmpty, if_false]
  rw [if_neg (by decide), if_neg (by decide)]
  cases room with
  | false => exact ⟨_, rfl, fun impossible => by cases impossible⟩
  | true =>
    refine ⟨_, rfl, fun _ => ⟨rfl, rfl, rfl, rfl, rfl, rfl, rfl, ?_⟩⟩
    intro cluster inside
    exact readFat_entry (by omega) pool (by omega)

theorem collectEntries_ended {v : Volume} (some : 32 ≤ v.bytesPerCluster) {cluster : List UInt8}
    (zero : cluster.headD 0 = 0) :
    collectEntries 64 (directoryEntries v cluster) [] = ([], true) := by
  obtain ⟨more, shape⟩ : ∃ more, v.bytesPerCluster / 32 = more + 1 :=
    Nat.exists_eq_succ_of_ne_zero (by omega)
  have ended : DirEntry.ended ((cluster.drop (32 * 0)).take 32) = true := by
    cases cluster with
    | nil => rfl
    | cons byte rest => exact beq_iff_eq.mpr zero
  rw [directoryEntries, shape, range_succ_eq_map, map_cons, collectEntries,
    if_pos (by decide), if_pos ended]

theorem formatted_empty (formatted : Formatted p ts disk) {mount : Mount}
    (mounted : MountedAs p disk.contents mount) :
    fat32ReadDirectory true mount.toVolume mount.rootCluster 64 = some (.ok []) := by
  have zero : disk.contents ((p.startSector + 32 + 2 * (p.sectorCount / 4096 + 1)) * 512) = 0 := by
    apply formatted.zeros
    · have first := @Nat.mul_le_mul_right (p.startSector + 32 + 1)
        (p.startSector + 32 + 2 * (p.sectorCount / 4096 + 1)) 512 (by omega)
      rw [Nat.add_mul _ 1] at first
      exact Nat.le_trans (Nat.add_le_add_left (by decide) _) first
    · exact Nat.mul_lt_mul_of_pos_right (by omega) (by decide)
  have head : (fat32ReadSectors mount.toVolume (clusterLba mount.toVolume 2)
      mount.sectorsPerCluster).headD 0 = 0 := by
    rw [mounted.sectorsPerCluster, clusterLba, mounted.dataStart, fat32ReadSectors, mounted.disk,
      headD_eq_head?_getD, head?_eq_getElem?, read_getElem? _ _ _ _ (by decide),
      Nat.sub_self, Nat.zero_mul, Nat.add_zero, Nat.add_zero, zero, Option.getD_some]
  have large : 32 ≤ mount.bytesPerCluster := by
    rw [mounted.bytesPerCluster]
    decide
  obtain ⟨more, steps⟩ := Nat.exists_eq_succ_of_ne_zero (Nat.ne_of_gt loopSteps_pos)
  rw [fat32ReadDirectory, if_pos rfl, steps, mounted.rootCluster, readDirectoryFrom,
    if_pos (by decide), fat32ReadCluster, if_neg (by decide)]
  simp only [collectEntries_ended large head]

theorem formatted_root_free (formatted : Formatted p ts disk) {mount : Mount}
    (mounted : MountedAs p disk.contents mount) : mount.fatCache mount.rootCluster = 0 := by
  rw [mounted.rootCluster, mounted.fatCache 2 (by decide)]
  apply load_eq_zero
  intro index lower upper
  apply formatted.zeros
  · exact Nat.le_trans (Nat.add_le_add_left (by decide) _) lower
  · have behind := @Nat.mul_le_mul_right (p.startSector + 32 + 1)
      (p.startSector + 32 + 2 * (p.sectorCount / 4096 + 1) + 8) 512 (by omega)
    rw [Nat.add_mul _ 1] at behind
    rw [Nat.add_assoc] at upper
    exact Nat.lt_of_lt_of_le upper (Nat.le_trans (Nat.add_le_add_left (by decide) _) behind)

theorem formatted_root_handed (formattable : p.Formattable) (formatted : Formatted p ts disk)
    {mount : Mount} (mounted : MountedAs p disk.contents mount) :
    fat32FindFreeCluster mount.toVolume = .ok mount.rootCluster := by
  have free := formatted_root_free formatted mounted
  have large := formattable.large
  have entries := mounted.fatEntries
  rw [mounted.rootCluster] at free ⊢
  obtain ⟨more, shape⟩ : ∃ more, mount.fatEntries - 2 = more + 1 :=
    Nat.exists_eq_succ_of_ne_zero (by omega)
  rw [fat32FindFreeCluster, shape, List.range'_succ, find?_cons, free]
  rfl

end Mounting

section Promise

variable {g : Install} {p : Partition} {partitionIndex diskNumber : Nat}

/-- A format stays in its partition; the mount behind it finds an empty root
directory, in a cluster that is free. -/
theorem formatAndMount_spec (exists' : diskNumber < g.diskCount)
    (selected : g.selectedDisk < g.diskCount) (found : g.partitions[partitionIndex]? = some p)
    (formattable : p.Formattable) (ts : Nat) (contents : ByteMemory) (room : Bool)
    (pool : ByteMemory) (mount : Mount) :
    ∃ formatted answer, formatAndMount g diskNumber partitionIndex ts p contents room pool mount =
      (formatted, answer) ∧ formatted.status = statusSuccess ∧
      (∀ lba ∈ formatted.disk.written,
        p.startSector ≤ lba ∧ lba < p.startSector + p.sectorCount) ∧
      (room = true → ∃ mounted, answer = some (statusSuccess, mounted)) ∧
      ∀ mounted, answer = some (statusSuccess, mounted) →
        fat32ReadDirectory true mounted.toVolume mounted.rootCluster 64 = some (.ok []) ∧
        mounted.fatCache mounted.rootCluster = 0 ∧
        fat32FindFreeCluster mounted.toVolume = .ok mounted.rootCluster := by
  obtain ⟨status, formatted⟩ := doFormat_formatted exists' selected found formattable ts contents
  obtain ⟨mounted, mounts, shape⟩ :=
    fat32MountPartition_formatted formattable formatted room pool mount
  refine ⟨_, _, rfl, status, ?_, ?_, ?_⟩
  · intro lba written
    have large := formattable.large
    have place := (formatted.written lba).mp written
    omega
  · intro isRoom
    subst isRoom
    exact ⟨mounted, mounts⟩
  · intro other success
    have same := mounts.symm.trans success
    cases room with
    | false => cases same
    | true =>
      cases same
      exact ⟨formatted_empty formatted (shape rfl), formatted_root_free formatted (shape rfl),
        formatted_root_handed formattable formatted (shape rfl)⟩

/-- No format gives a usable volume. -/
theorem formatAndMount_unusable (exists' : diskNumber < g.diskCount)
    (selected : g.selectedDisk < g.diskCount) (found : g.partitions[partitionIndex]? = some p)
    (formattable : p.Formattable) (ts : Nat) (contents : ByteMemory) (room : Bool)
    (pool : ByteMemory) (mount : Mount) :
    ¬ FormatsUsable p
      (formatAndMount g diskNumber partitionIndex ts p contents room pool mount) := by
  obtain ⟨formatted, answer, shape, _, _, _, mounts⟩ :=
    formatAndMount_spec exists' selected found formattable ts contents room pool mount
  rw [shape]
  rintro ⟨_, mounted, success, usable⟩
  exact usable.root (mounts mounted success).2.1

end Promise

def smallPartition : Partition := ⟨2048, 65536, "Unknown"⟩

theorem smallPartition_formattable : smallPartition.Formattable := ⟨by decide, by decide⟩

def oneDisk : Install := ⟨1, 0, [smallPartition]⟩

def blank : Mount where
  valid := false
  bytesPerSector := 0
  sectorsPerCluster := 0
  bytesPerCluster := 0
  rootCluster := 0
  fatStart := 0
  dataStart := 0
  fatEntries := 0
  fatCache := fun _ => 0
  disk := fun _ => 0
  partitionStart := 0
  reservedSectors := 0
  numFats := 0
  sectorsPerFat := 0
  fatTotalSectors := 0
  hasCache := false

/-- A partition of 65536 sectors. -/
theorem formatAndMount_unusable_small :
    ¬ FormatsUsable smallPartition
      (formatAndMount oneDisk 0 0 0 smallPartition (fun _ => 0) true (fun _ => 0) blank) :=
  formatAndMount_unusable (by decide) (by decide) rfl smallPartition_formattable 0 _ true _ blank

/-- The format of 32 megabytes succeeds, and the root directory's cluster is free. -/
theorem smallPartition_root_handed :
    smallPartition.Formattable ∧
      ∃ mounted, (formatAndMount oneDisk 0 0 0 smallPartition (fun _ => 0) true (fun _ => 0)
          blank).2 = some (statusSuccess, mounted) ∧
        fat32FindFreeCluster mounted.toVolume = .ok mounted.rootCluster ∧
        ¬ FormatsUsable smallPartition
          (formatAndMount oneDisk 0 0 0 smallPartition (fun _ => 0) true (fun _ => 0) blank) := by
  obtain ⟨formatted, answer, shape, _, _, mounts, free⟩ := @formatAndMount_spec oneDisk
    smallPartition 0 0 (by decide) (by decide) rfl smallPartition_formattable 0 (fun _ => 0) true
    (fun _ => 0) blank
  obtain ⟨mounted, success⟩ := mounts rfl
  rw [shape]
  refine ⟨smallPartition_formattable, mounted, success, (free mounted success).2.2, ?_⟩
  rintro ⟨_, other, success', usable⟩
  exact usable.root (free other success').2.1

end MinNT.Setupapi
