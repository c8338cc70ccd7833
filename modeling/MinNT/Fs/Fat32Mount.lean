import MinNT.Fs.Fat32

open ByteMemory

namespace MinNT.Fat32

/-- All of `g_Fat32Mount`. -/
structure Mount extends Volume where
  partitionStart : Nat
  reservedSectors : Nat
  numFats : Nat
  sectorsPerFat : Nat
  fatTotalSectors : Nat
  /-- `fat_cache` is not `NULL`. -/
  hasCache : Bool

/-- A field of the boot sector. -/
def bpbField (bootSector : List UInt8) (offset width : Nat) : Nat :=
  decodeLE ((bootSector.drop offset).take width)

/-- The loop of `Fat32MountPartition` that reads the FATs, in chunks of at most
64 sectors, into the block of the cache. -/
def readFat (v : Volume) (sectors offset : Nat) (cache : ByteMemory) : ByteMemory :=
  if offset < sectors then
    readFat v sectors (offset + min (sectors - offset) 64)
      (cache.write (offset * 512 % 2 ^ 32)
        (fat32ReadSectors v (v.fatStart + offset) (min (sectors - offset) 64)))
  else cache
termination_by sectors - offset

/-- `Fat32MountPartition`; `room` tells whether the pool has a block for the cache,
and `pool` what that block holds before the FAT is read. The outer `none` is the
division by a cluster of no sectors. -/
def fat32MountPartition (room : Bool) (pool : ByteMemory) (mount : Mount)
    (partitionStartLba : Nat) : Option (NtStatus × Mount) :=
  let bpb := fat32ReadSectors mount.toVolume partitionStartLba 1
  let bytesPerSector := bpbField bpb 11 2
  let sectorsPerCluster := bpbField bpb 13 1
  let reservedSectors := bpbField bpb 14 2
  let numberOfFATs := bpbField bpb 16 1
  let sectorsPerFAT32 := bpbField bpb 36 4
  if bpbField bpb 17 2 ≠ 0 ∨ bpbField bpb 22 2 ≠ 0 ∨ bytesPerSector = 0 then
    some (statusInvalidImageFormat, mount)
  else if sectorsPerCluster = 0 then none
  else
    let fatTotalSectors := numberOfFATs * sectorsPerFAT32 % 2 ^ 32
    let totalSectors := if bpbField bpb 32 4 = 0 then bpbField bpb 19 2 else bpbField bpb 32 4
    let dataSectors := subtract32 totalSectors ((reservedSectors + fatTotalSectors) % 2 ^ 32)
    let saved : Mount :=
      { mount with
        partitionStart := partitionStartLba
        bytesPerSector := bytesPerSector
        sectorsPerCluster := sectorsPerCluster
        bytesPerCluster := bytesPerSector * sectorsPerCluster
        reservedSectors := reservedSectors
        numFats := numberOfFATs
        sectorsPerFat := sectorsPerFAT32
        rootCluster := bpbField bpb 44 4
        fatStart := partitionStartLba + reservedSectors
        fatTotalSectors := fatTotalSectors
        dataStart := partitionStartLba + reservedSectors + fatTotalSectors
        fatEntries := dataSectors / sectorsPerCluster
        hasCache := room }
    if room then
      let cache := readFat saved.toVolume fatTotalSectors 0 pool
      some (statusSuccess,
        { saved with fatCache := fun cluster => load cache 4 (4 * cluster), valid := true })
    else some (statusNoMemory, saved)

section Cache

variable {v : Volume} {sectors : Nat}

/-- The cache of the FAT holds the sectors that were read. -/
theorem readFat_spec (small : sectors * 512 ≤ 2 ^ 32) (offset : Nat) (cache : ByteMemory)
    (index : Nat) :
    readFat v sectors offset cache index =
      if offset * 512 ≤ index ∧ index < sectors * 512 then v.disk (v.fatStart * 512 + index)
      else cache index := by
  induction offset, cache using readFat.induct v sectors with
  | case1 offset cache more ih =>
    have place : offset * 512 % 2 ^ 32 = offset * 512 := Nat.mod_eq_of_lt (by omega)
    rw [readFat, if_pos more, ih, place]
    clear ih place small
    by_cases later : (offset + min (sectors - offset) 64) * 512 ≤ index ∧ index < sectors * 512
    · have earlier : offset * 512 ≤ index :=
        Nat.le_trans (Nat.mul_le_mul_right 512 (Nat.le_add_right _ _)) later.1
      rw [if_pos later, if_pos ⟨earlier, later.2⟩]
    · rw [if_neg later]
      by_cases here : offset * 512 ≤ index ∧ index < sectors * 512
      · have chunk : index - offset * 512 < min (sectors - offset) 64 * 512 := by omega
        have same : (v.fatStart + offset) * 512 + (index - offset * 512) =
            v.fatStart * 512 + index := by omega
        have length := read_length v.disk ((v.fatStart + offset) * 512)
          (min (sectors - offset) 64 * 512)
        rw [if_pos here, fat32ReadSectors, write_inside _ _ _ _ here.1 (by omega),
          List.getD_eq_getElem?_getD, read_getElem? _ _ _ _ chunk, same, Option.getD_some]
      · have length := read_length v.disk ((v.fatStart + offset) * 512)
          (min (sectors - offset) 64 * 512)
        rw [if_neg here, fat32ReadSectors, write_outside _ _ _ _ (by omega)]
  | case2 offset cache done =>
    rw [readFat, if_neg done, if_neg (by omega)]

theorem readFat_entry (small : sectors * 512 ≤ 2 ^ 32) (cache : ByteMemory) {cluster : Nat}
    (inside : cluster < sectors * 128) :
    load (readFat v sectors 0 cache) 4 (4 * cluster) =
      load v.disk 4 (v.fatStart * 512 + 4 * cluster) := by
  have bytes : ByteMemory.read (readFat v sectors 0 cache) (4 * cluster) 4 =
      ByteMemory.read v.disk (v.fatStart * 512 + 4 * cluster) 4 := by
    unfold ByteMemory.read
    apply List.map_congr_left
    intro index member
    have bound := List.mem_range.mp member
    rw [readFat_spec small, if_pos (by omega), Nat.add_assoc]
  rw [load, load, bytes]

end Cache

end MinNT.Fat32
