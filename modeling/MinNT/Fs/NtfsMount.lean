import MinNT.Fs.NtfsReadFile

namespace MinNT.Ntfs

open ByteMemory TwosComplement

/-- `NTFS_MOUNT`. -/
structure MountState where
  partitionStart : Nat
  bytesPerSector : Nat
  bytesPerCluster : Nat
  clustersPerMftRecord : Int
  bytesPerMftRecord : Nat
  clustersPerIndexBlock : Int
  bytesPerIndexBlock : Nat
  mftLcn : Nat
  mftMirrorLcn : Nat
  totalSectors : Nat
  valid : Bool

/-! Where the fields of `NTFS_BOOT_SECTOR`, a packed structure, stand. -/

def offsetofOemId : Nat := 3
def offsetofBytesPerSector : Nat := 11
def offsetofSectorsPerCluster : Nat := 13
def offsetofTotalSectors : Nat := 46
def offsetofMftLogicalCluster : Nat := 54
def offsetofMftMirrorLogicalCluster : Nat := 62
def offsetofClustersPerMftRecord : Nat := 70
def offsetofClustersPerIndexBlock : Nat := 78

/-- `"NTFS    "`. -/
def oemId : List UInt8 := [0x4E, 0x54, 0x46, 0x53, 0x20, 0x20, 0x20, 0x20]

/-- The bytes that a number of clusters stands for; a negative one is an exponent. `1UL` has 64
bits, and the result is cut to 32. A shift by 64 or more, or the negation of the least `LONG`,
has no defined result. -/
def recordBytes (clusters : Int) (bytesPerCluster : Nat) : Option Nat :=
  if 0 ≤ clusters then some (clusters.toNat * bytesPerCluster % 2 ^ 32)
  else
    let exp := (-clusters).toNat
    if exp < 64 then some (2 ^ exp % 2 ^ 32) else none

/-- `NtfsMountPartition`, with what the read of the boot sector answers; `none` is a call whose
behaviour is not defined. -/
def ntfsMountPartition (boot : Except NtStatus ByteMemory) (mount : MountState)
    (partitionStartLba : Nat) : Option (NtStatus × MountState) :=
  match boot with
  | .error status => some (status, mount)
  | .ok boot =>
      if boot.read offsetofOemId 8 ≠ oemId then some (statusInvalidImageFormat, mount)
      else
        let bytesPerSector := load boot 2 offsetofBytesPerSector
        let bytesPerCluster := bytesPerSector * load boot 1 offsetofSectorsPerCluster
        let clustersPerMftRecord := value 4 (load boot 4 offsetofClustersPerMftRecord)
        let clustersPerIndexBlock := value 4 (load boot 4 offsetofClustersPerIndexBlock)
        match recordBytes clustersPerMftRecord bytesPerCluster,
            recordBytes clustersPerIndexBlock bytesPerCluster with
        | some bytesPerMftRecord, some bytesPerIndexBlock =>
            some (statusSuccess,
              { partitionStart := partitionStartLba
                bytesPerSector, bytesPerCluster, clustersPerMftRecord, bytesPerMftRecord
                clustersPerIndexBlock, bytesPerIndexBlock
                mftLcn := load boot 8 offsetofMftLogicalCluster
                mftMirrorLcn := load boot 8 offsetofMftMirrorLogicalCluster
                totalSectors := load boot 8 offsetofTotalSectors
                valid := true })
        | _, _ => none

/-- The sectors that `NtfsReadMftRecord` reads: their start and their number; `none` is a
division by zero. -/
def mftRecordSectors (mount : MountState) (mftIndex : Nat) : Option (Nat × Nat) :=
  if mount.bytesPerSector = 0 then none
  else
    let mftByteOffset := mount.mftLcn * mount.bytesPerCluster % 2 ^ 64
    let recordByteOffset := mftIndex * mount.bytesPerMftRecord % 2 ^ 64
    let totalByteOffset := (mftByteOffset + recordByteOffset) % 2 ^ 64
    let sectorOffset := totalByteOffset / mount.bytesPerSector
    some ((mount.partitionStart + sectorOffset) % 2 ^ 64,
      mount.bytesPerMftRecord / mount.bytesPerSector)

def ntfsReadMftRecord (machine : Machine) (mount : MountState) (mftIndex : Nat) :
    Option (Except NtStatus ByteMemory) :=
  if mount.valid then
    (mftRecordSectors mount mftIndex).map fun sectors =>
      ntfsReadSectors machine sectors.1 sectors.2
  else some (.error statusDeviceDoesNotExist)

/-- The bytes of an MFT record by the byte at 0x40. -/
def formatRecordBytes (boot : ByteMemory) : Nat :=
  let code := value 1 (load boot 1 0x40)
  if 0 ≤ code then code.toNat * (load boot 2 0x0B * load boot 1 0x0D)
  else 2 ^ (-code).toNat

/-- The mount has the geometry that the format puts into the boot sector. -/
structure Recovers (boot : ByteMemory) (mount : MountState) : Prop where
  totalSectors : mount.totalSectors = load boot 8 0x28
  mftLcn : mount.mftLcn = load boot 8 0x30
  mftMirrorLcn : mount.mftMirrorLcn = load boot 8 0x38
  bytesPerCluster : mount.bytesPerCluster = load boot 2 0x0B * load boot 1 0x0D
  bytesPerMftRecord : mount.bytesPerMftRecord = formatRecordBytes boot
  divides : ∀ machine mftIndex, (ntfsReadMftRecord machine mount mftIndex).isSome

/-- Every mount of the boot sector succeeds and recovers the geometry. -/
def MountsRight (boot : ByteMemory) : Prop :=
  ∀ mount partitionStartLba, ∃ mounted,
    ntfsMountPartition (.ok boot) mount partitionStartLba = some (statusSuccess, mounted) ∧
      Recovers boot mounted

/-- A size as a `LONG` has to encode it. -/
def Encodes (long : Int) (bytesPerCluster bytes : Nat) : Prop :=
  (0 ≤ long ∧ long.toNat * bytesPerCluster % 2 ^ 32 = bytes) ∨
    (long < 0 ∧ -64 < long ∧ 2 ^ (-long).toNat % 2 ^ 32 = bytes)

/-- The driver looks for the fields 6 bytes behind their places, and for numbers of four bytes
where the format has one. -/
structure Displaced (boot : ByteMemory) : Prop where
  fields : ∀ index, index < 24 → boot (0x2E + index) = boot (0x28 + index)
  record : Encodes (value 4 (load boot 4 0x46)) (load boot 2 0x0B * load boot 1 0x0D)
    (formatRecordBytes boot)
  indexBlock : -64 < value 4 (load boot 4 0x4E)
  sector : load boot 2 0x0B ≠ 0

/-- The size that a code stands for, where it stands for one. -/
theorem recordBytes_eq_some_iff {clusters : Int} {bytesPerCluster bytes : Nat} :
    recordBytes clusters bytesPerCluster = some bytes ↔
      Encodes clusters bytesPerCluster bytes := by
  unfold recordBytes Encodes
  by_cases count : 0 ≤ clusters
  · rw [if_pos count, Option.some_inj]
    constructor
    · exact fun same => .inl ⟨count, same⟩
    · rintro (⟨_, same⟩ | ⟨negative, _⟩)
      · exact same
      · omega
  · rw [if_neg count]
    dsimp only
    by_cases small : (-clusters).toNat < 64
    · rw [if_pos small, Option.some_inj]
      constructor
      · exact fun same => .inr ⟨by omega, by omega, same⟩
      · rintro (⟨nonneg, _⟩ | ⟨_, _, same⟩)
        · exact absurd nonneg count
        · exact same
    · rw [if_neg small]
      refine iff_of_false (fun none => nomatch none) ?_
      rintro (⟨nonneg, _⟩ | ⟨_, bound, _⟩)
      · exact count nonneg
      · omega

theorem recordBytes_isSome_iff {clusters : Int} {bytesPerCluster : Nat} :
    (recordBytes clusters bytesPerCluster).isSome ↔ -64 < clusters := by
  rw [Option.isSome_iff_exists]
  simp only [recordBytes_eq_some_iff, Encodes]
  constructor
  · rintro ⟨bytes, ⟨nonneg, _⟩ | ⟨_, bound, _⟩⟩
    · omega
    · exact bound
  · intro bound
    by_cases count : 0 ≤ clusters
    · exact ⟨_, .inl ⟨count, rfl⟩⟩
    · exact ⟨_, .inr ⟨by omega, bound, rfl⟩⟩

/-- The three fields of eight bytes are read right exactly if what stands 6 bytes behind them
is the same. -/
theorem fields_displaced_iff (boot : ByteMemory) :
    (load boot 8 0x2E = load boot 8 0x28 ∧ load boot 8 0x36 = load boot 8 0x30 ∧
      load boot 8 0x3E = load boot 8 0x38) ↔
      ∀ index, index < 24 → boot (0x2E + index) = boot (0x28 + index) := by
  rw [load_eq_load_iff, load_eq_load_iff, load_eq_load_iff]
  constructor
  · rintro ⟨first, second, third⟩ index inside
    rcases Nat.lt_or_ge index 8 with low | high
    · exact first index low
    · rcases Nat.lt_or_ge index 16 with middle | top
      · have here := second (index - 8) (by omega)
        rwa [show 0x36 + (index - 8) = 0x2E + index by omega,
          show 0x30 + (index - 8) = 0x28 + index by omega] at here
      · have here := third (index - 16) (by omega)
        rwa [show 0x3E + (index - 16) = 0x2E + index by omega,
          show 0x38 + (index - 16) = 0x28 + index by omega] at here
  · intro all
    refine ⟨fun index inside => all index (by omega), fun index inside => ?_,
      fun index inside => ?_⟩
    · have here := all (8 + index) (by omega)
      rwa [← Nat.add_assoc, ← Nat.add_assoc] at here
    · have here := all (16 + index) (by omega)
      rwa [← Nat.add_assoc, ← Nat.add_assoc] at here

theorem ntfsReadMftRecord_isSome_iff {mount : MountState} (valid : mount.valid = true) :
    (∀ machine mftIndex, (ntfsReadMftRecord machine mount mftIndex).isSome) ↔
      mount.bytesPerSector ≠ 0 := by
  unfold ntfsReadMftRecord mftRecordSectors
  by_cases zero : mount.bytesPerSector = 0
  · refine iff_of_false (fun all => ?_) (not_not.mpr zero)
    have none := all ⟨fun _ _ => .error statusNoMemory, fun _ => true, fun _ => 0⟩ 0
    simp [valid, zero] at none
  · simp [valid, zero]

/-- `bytes_per_cluster`, and the two codes of sizes, as the driver reads them. -/
def bootClusterBytes (boot : ByteMemory) : Nat :=
  load boot 2 offsetofBytesPerSector * load boot 1 offsetofSectorsPerCluster

def bootRecordCode (boot : ByteMemory) : Int := value 4 (load boot 4 offsetofClustersPerMftRecord)

def bootIndexCode (boot : ByteMemory) : Int := value 4 (load boot 4 offsetofClustersPerIndexBlock)

/-- The mount of a boot sector with defined sizes. -/
def mountedState (boot : ByteMemory)
    (partitionStartLba bytesPerMftRecord bytesPerIndexBlock : Nat) :
    MountState where
  partitionStart := partitionStartLba
  bytesPerSector := load boot 2 offsetofBytesPerSector
  bytesPerCluster := bootClusterBytes boot
  clustersPerMftRecord := bootRecordCode boot
  bytesPerMftRecord := bytesPerMftRecord
  clustersPerIndexBlock := bootIndexCode boot
  bytesPerIndexBlock := bytesPerIndexBlock
  mftLcn := load boot 8 offsetofMftLogicalCluster
  mftMirrorLcn := load boot 8 offsetofMftMirrorLogicalCluster
  totalSectors := load boot 8 offsetofTotalSectors
  valid := true

/-- The mount ends exactly with two defined record sizes. -/
theorem ntfsMountPartition_eq_some_iff {boot : ByteMemory} (oem : boot.read 3 8 = oemId)
    {mount mounted : MountState} {partitionStartLba : Nat} {status : NtStatus} :
    ntfsMountPartition (.ok boot) mount partitionStartLba = some (status, mounted) ↔
      ∃ recordSize blockSize,
        recordBytes (bootRecordCode boot) (bootClusterBytes boot) = some recordSize ∧
        recordBytes (bootIndexCode boot) (bootClusterBytes boot) = some blockSize ∧
        status = statusSuccess ∧
        mounted = mountedState boot partitionStartLba recordSize blockSize := by
  have mounts : ntfsMountPartition (.ok boot) mount partitionStartLba =
      match recordBytes (bootRecordCode boot) (bootClusterBytes boot),
          recordBytes (bootIndexCode boot) (bootClusterBytes boot) with
      | some recordSize, some blockSize =>
        some (statusSuccess, mountedState boot partitionStartLba recordSize blockSize)
      | _, _ => none := if_neg (not_not.mpr oem)
  rw [mounts]
  cases recordBytes (bootRecordCode boot) (bootClusterBytes boot) with
  | none =>
    refine iff_of_false (fun none => nomatch none) ?_
    rintro ⟨_, _, none, _⟩
    cases none
  | some recordSize =>
    cases recordBytes (bootIndexCode boot) (bootClusterBytes boot) with
    | none =>
      refine iff_of_false (fun none => nomatch none) ?_
      rintro ⟨_, _, _, none, _⟩
      cases none
    | some blockSize =>
      dsimp only
      constructor
      · intro same
        obtain ⟨success, here⟩ := Prod.mk.inj (Option.some.inj same)
        exact ⟨recordSize, blockSize, rfl, rfl, success.symm, here.symm⟩
      · rintro ⟨_, _, first, second, rfl, rfl⟩
        rw [Option.some.inj first, Option.some.inj second]

theorem recovers_iff (boot : ByteMemory) (partitionStartLba recordSize blockSize : Nat) :
    Recovers boot (mountedState boot partitionStartLba recordSize blockSize) ↔
      (∀ index, index < 24 → boot (0x2E + index) = boot (0x28 + index)) ∧
        recordSize = formatRecordBytes boot ∧ load boot 2 0x0B ≠ 0 := by
  rw [← fields_displaced_iff]
  constructor
  · intro recovers
    exact ⟨⟨recovers.totalSectors, recovers.mftLcn, recovers.mftMirrorLcn⟩,
      recovers.bytesPerMftRecord, (ntfsReadMftRecord_isSome_iff rfl).mp recovers.divides⟩
  · rintro ⟨⟨total, mft, mirror⟩, record, sector⟩
    exact ⟨total, mft, mirror, rfl, record, (ntfsReadMftRecord_isSome_iff rfl).mpr sector⟩

/-- A boot sector of the format is mounted right exactly if the fields that the driver looks for
say the same as those of the format. -/
theorem ntfsMountPartition_right_iff (boot : ByteMemory) (oem : boot.read 3 8 = oemId) :
    MountsRight boot ↔ Displaced boot := by
  unfold MountsRight
  simp only [ntfsMountPartition_eq_some_iff oem]
  constructor
  · intro mounts
    obtain ⟨mounted, ⟨recordSize, blockSize, record, block, _, rfl⟩, recovers⟩ :=
      mounts ⟨0, 0, 0, 0, 0, 0, 0, 0, 0, 0, false⟩ 0
    obtain ⟨fields, rfl, sector⟩ := (recovers_iff boot 0 recordSize blockSize).mp recovers
    refine ⟨fields, recordBytes_eq_some_iff.mp record, ?_, sector⟩
    exact recordBytes_isSome_iff.mp (Option.isSome_iff_exists.mpr ⟨blockSize, block⟩)
  · rintro ⟨fields, record, indexBlock, sector⟩ mount partitionStartLba
    obtain ⟨blockSize, block⟩ := Option.isSome_iff_exists.mp
      ((@recordBytes_isSome_iff _ (bootClusterBytes boot)).mpr indexBlock)
    exact ⟨_, ⟨_, blockSize, recordBytes_eq_some_iff.mpr record, block, trivial, rfl⟩,
      (recovers_iff boot partitionStartLba _ blockSize).mpr ⟨fields, rfl, sector⟩⟩

/-- The boot sector of a volume with sectors of 512 bytes and clusters of 8 sectors, and behind
0x28 the bytes that are given. -/
def bootSector (fields : List UInt8) : ByteMemory :=
  write (write (fun _ => 0) 3 (oemId ++ [0, 2, 8])) 0x28 fields

/-- Fields that repeat every 6 bytes, and records of one cluster. -/
def repeatingBoot : ByteMemory :=
  bootSector [1, 0, 0, 0, 0, 0, 1, 0, 0, 0, 0, 0, 1, 0, 0, 0, 0, 0, 1, 0, 0, 0, 0, 0, 1, 0, 0, 0, 0,
    0, 1, 0, 0, 0, 0, 0, 0, 0]

/-- Every field of that boot sector is read right. -/
theorem repeatingBoot_mountsRight : MountsRight repeatingBoot := by
  refine (ntfsMountPartition_right_iff repeatingBoot (by decide)).mpr ⟨by decide, ?_, by decide,
    by decide⟩
  exact .inl ⟨by decide, by decide⟩

/-- A volume of 0x1FFFFF sectors, with the MFT at cluster 0xC0000, its mirror at cluster 2 and
records of 1024 bytes. -/
def ordinaryBoot : ByteMemory :=
  bootSector [0xFF, 0xFF, 0x1F, 0, 0, 0, 0, 0, 0, 0, 0x0C, 0, 0, 0, 0, 0, 2, 0, 0, 0, 0, 0, 0, 0,
    0xF6, 0, 0, 0, 1, 0, 0, 0]

theorem ordinaryBoot_not_mountsRight :
    ¬ ∀ boot : ByteMemory, boot.read 3 8 = oemId → MountsRight boot := by
  intro all
  obtain ⟨mounted, done, recovers⟩ := all ordinaryBoot (by decide)
    ⟨0, 0, 0, 0, 0, 0, 0, 0, 0, 0, false⟩ 0
  obtain ⟨recordSize, blockSize, _, _, _, rfl⟩ :=
    (ntfsMountPartition_eq_some_iff (by decide)).mp done
  have total : load ordinaryBoot 8 0x2E = load ordinaryBoot 8 0x28 := recovers.totalSectors
  exact absurd total (by decide)

end MinNT.Ntfs
