import MinNT.Fs.Fat32Mount
import MinNT.Lib.WriteLog

namespace MinNT.Fat32

open ByteMemory WriteLog List

/-- The fields of the boot sector that the mount checks or computes with. -/
structure Fat32Bpb where
  bytesPerSector : Nat
  sectorsPerCluster : Nat
  reservedSectors : Nat
  numberOfFATs : Nat
  rootEntryCount : Nat
  totalSectors16 : Nat
  sectorsPerFAT16 : Nat
  totalSectors32 : Nat
  sectorsPerFAT32 : Nat
deriving DecidableEq

def bpbAt (v : Volume) (lba : Nat) : Fat32Bpb :=
  let bootSector := fat32ReadSectors v lba 1
  { bytesPerSector := bpbField bootSector 11 2
    sectorsPerCluster := bpbField bootSector 13 1
    reservedSectors := bpbField bootSector 14 2
    numberOfFATs := bpbField bootSector 16 1
    rootEntryCount := bpbField bootSector 17 2
    totalSectors16 := bpbField bootSector 19 2
    sectorsPerFAT16 := bpbField bootSector 22 2
    totalSectors32 := bpbField bootSector 32 4
    sectorsPerFAT32 := bpbField bootSector 36 4 }

namespace Fat32Bpb

/-- The check that stands for a FAT32 signature. -/
def Accepted (bpb : Fat32Bpb) : Prop :=
  bpb.rootEntryCount = 0 ∧ bpb.sectorsPerFAT16 = 0 ∧ bpb.bytesPerSector ≠ 0

instance (bpb : Fat32Bpb) : Decidable bpb.Accepted := inferInstanceAs (Decidable (_ ∧ _))

def totalSectors (bpb : Fat32Bpb) : Nat :=
  if bpb.totalSectors32 = 0 then bpb.totalSectors16 else bpb.totalSectors32

/-- The sectors of all FATs, before the product is cut to 32 bits. -/
def fatSectors (bpb : Fat32Bpb) : Nat := bpb.numberOfFATs * bpb.sectorsPerFAT32

/-- `data_sectors`, in the arithmetic of the source. -/
def dataSectors (bpb : Fat32Bpb) : Nat :=
  subtract32 bpb.totalSectors ((bpb.reservedSectors + bpb.fatSectors % 2 ^ 32) % 2 ^ 32)

def dataClusters (bpb : Fat32Bpb) : Nat := bpb.dataSectors / bpb.sectorsPerCluster

end Fat32Bpb

theorem bpbField_lt (bootSector : List UInt8) (offset width : Nat) :
    bpbField bootSector offset width < 256 ^ width :=
  Nat.lt_of_lt_of_le (decodeLE_lt _) (Nat.pow_le_pow_right (by decide) (length_take_le width _))

theorem totalSectors_eq (v : Volume) (lba : Nat) : (bpbAt v lba).totalSectors =
    if bpbField (fat32ReadSectors v lba 1) 32 4 = 0 then bpbField (fat32ReadSectors v lba 1) 19 2
    else bpbField (fat32ReadSectors v lba 1) 32 4 := by
  unfold Fat32Bpb.totalSectors bpbAt
  dsimp only

theorem totalSectors_lt (v : Volume) (lba : Nat) : (bpbAt v lba).totalSectors < 2 ^ 32 := by
  have wide := bpbField_lt (fat32ReadSectors v lba 1) 32 4
  have narrow := bpbField_lt (fat32ReadSectors v lba 1) 19 2
  rw [totalSectors_eq]
  split <;> omega

theorem Fat32Bpb.dataSectors_eq {bpb : Fat32Bpb} (small : bpb.totalSectors < 2 ^ 32)
    (fits : bpb.reservedSectors + bpb.fatSectors ≤ bpb.totalSectors) :
    bpb.dataSectors = bpb.totalSectors - (bpb.reservedSectors + bpb.fatSectors) := by
  rw [dataSectors, Nat.mod_eq_of_lt (by omega : bpb.fatSectors < 2 ^ 32),
    Nat.mod_eq_of_lt (by omega), subtract32_of_le fits]

/-- What a turn of the loop puts into the cache. -/
def fatWrite (v : Volume) (sectors turn : Nat) : Write :=
  bytes (64 * turn * 512 % 2 ^ 32)
    (fat32ReadSectors v (v.fatStart + 64 * turn) (min (sectors - 64 * turn) 64))

def fatWrites (v : Volume) (sectors : Nat) : List Write :=
  (range ((sectors + 63) / 64)).map (fatWrite v sectors)

theorem readFat_replay (v : Volume) (sectors : Nat) (cache : ByteMemory) :
    readFat v sectors 0 cache = replay cache (fatWrites v sectors) := by
  have rest : ∀ left turn cache, turn + left = (sectors + 63) / 64 →
      readFat v sectors (64 * turn) cache =
        replay cache ((List.range' turn left).map (fatWrite v sectors)) := by
    intro left
    induction left with
    | zero =>
      intro turn cache last
      rw [readFat, if_neg (by omega)]
      rfl
    | succ left ih =>
      intro turn cache counted
      have more : 64 * turn < sectors := by omega
      rw [readFat, if_pos more, List.range'_succ, map_cons, replay_cons, fatWrite, put_bytes]
      by_cases whole : 64 ≤ sectors - 64 * turn
      · rw [← ih (turn + 1) _ (by omega), Nat.min_eq_right whole, Nat.mul_succ 64 turn]
      · have done : left = 0 := by omega
        subst done
        rw [readFat, if_neg (by omega)]
        rfl
  rw [fatWrites, range_eq_range']
  exact rest _ 0 cache (Nat.zero_add _)

theorem fatWrite_count (v : Volume) (sectors turn : Nat) :
    (fatWrite v sectors turn).count = min (sectors - 64 * turn) 64 * 512 :=
  read_length _ _ _

/-- The FAT is read inside its cache exactly if it fits. -/
theorem fatWrites_within (v : Volume) (sectors bound : Nat) :
    Within bound (fatWrites v sectors) ↔ min (sectors * 512) (2 ^ 32) ≤ bound := by
  constructor
  · intro within
    by_contra short
    -- The last byte below both limits lies in the chunk of its 64 sectors.
    generalize last : min (sectors * 512) (2 ^ 32) - 1 = address at *
    have turns : address / 32768 < (sectors + 63) / 64 := by omega
    have covers : (fatWrite v sectors (address / 32768)).Covers address := by
      refine ⟨?_, ?_⟩
      · change 64 * (address / 32768) * 512 % 2 ^ 32 ≤ address
        omega
      · rw [fatWrite_count]
        change address < 64 * (address / 32768) * 512 % 2 ^ 32 + _
        omega
    have below := within _ (mem_map_of_mem (mem_range.mpr turns)) address covers
    omega
  · intro enough
    apply within_of_end
    intro write member
    obtain ⟨turn, turns, rfl⟩ := List.mem_map.mp member
    have inside := mem_range.mp turns
    rw [fatWrite_count]
    change 64 * turn * 512 % 2 ^ 32 + _ ≤ bound
    omega

section Mount

variable {room : Bool} {pool : ByteMemory} {mount : Mount} {lba : Nat}

theorem fat32MountPartition_divides (accepted : (bpbAt mount.toVolume lba).Accepted) :
    fat32MountPartition room pool mount lba = none ↔
      (bpbAt mount.toVolume lba).sectorsPerCluster = 0 := by
  obtain ⟨root, sectors16, bytes⟩ := accepted
  unfold bpbAt at root sectors16 bytes ⊢
  dsimp only at root sectors16 bytes ⊢
  unfold fat32MountPartition
  dsimp only
  rw [if_neg (by simp [root, sectors16, bytes])]
  split
  · rename_i none
    simp [none]
  · rename_i some
    split <;> simp [some]

/-- What a successful mount leaves behind: the size of the cache comes from the data
area, its contents from the FATs. -/
structure Mounted (room : Bool) (pool : ByteMemory) (mount : Mount) (lba : Nat) (after : Mount) :
    Prop where
  given : room = true
  bytesPerCluster : after.bytesPerCluster = after.bytesPerSector * after.sectorsPerCluster
  sectorsPerCluster : 0 < after.sectorsPerCluster
  entries : after.fatEntries = (bpbAt mount.toVolume lba).dataClusters
  sectors : after.fatTotalSectors = (bpbAt mount.toVolume lba).fatSectors % 2 ^ 32
  cache : after.fatCache = fun cluster =>
    load (replay pool (fatWrites after.toVolume after.fatTotalSectors)) 4 (4 * cluster)

/-- What a successful mount has read and stored. -/
theorem fat32MountPartition_mounted {after : Mount}
    (done : fat32MountPartition room pool mount lba = some (statusSuccess, after)) :
    Mounted room pool mount lba after := by
  unfold fat32MountPartition at done
  dsimp only at done
  split at done
  · have failed : statusInvalidImageFormat = statusSuccess :=
      congrArg Prod.fst (Option.some.inj done)
    exact absurd failed (by decide)
  · split at done
    · cases done
    rename_i present
    split at done
    · rename_i given
      have same : _ = after := congrArg Prod.snd (Option.some.inj done)
      rw [← same]
      refine ⟨given, ?_, ?_, ?_, ?_, ?_⟩
      · dsimp only
      · dsimp only
        exact Nat.pos_of_ne_zero present
      · dsimp only
        rw [Fat32Bpb.dataClusters, Fat32Bpb.dataSectors, totalSectors_eq]
        simp only [Fat32Bpb.fatSectors, bpbAt]
      · dsimp only
        simp only [Fat32Bpb.fatSectors, bpbAt]
      · dsimp only
        funext cluster
        rw [readFat_replay]
        congr 2
    · have failed : statusNoMemory = statusSuccess := congrArg Prod.fst (Option.some.inj done)
      exact absurd failed (by decide)

theorem fat32MountPartition_status (accepted : (bpbAt mount.toVolume lba).Accepted)
    {status : NtStatus} {after : Mount}
    (done : fat32MountPartition room pool mount lba = some (status, after)) :
    status = if room then statusSuccess else statusNoMemory := by
  obtain ⟨root, sectors16, bytes⟩ := accepted
  unfold bpbAt at root sectors16 bytes
  dsimp only at root sectors16 bytes
  unfold fat32MountPartition at done
  dsimp only at done
  rw [if_neg (by simp [root, sectors16, bytes])] at done
  split at done
  · cases done
  · split at done
    · rename_i given
      rw [if_pos given]
      exact (congrArg Prod.fst (Option.some.inj done)).symm
    · rename_i refused
      rw [if_neg refused]
      exact (congrArg Prod.fst (Option.some.inj done)).symm

theorem fat32MountPartition_mounts (pool : ByteMemory)
    (accepted : (bpbAt mount.toVolume lba).Accepted)
    (divides : (bpbAt mount.toVolume lba).sectorsPerCluster ≠ 0) :
    ∃ after, fat32MountPartition true pool mount lba = some (statusSuccess, after) := by
  obtain ⟨⟨status, after⟩, done⟩ :=
    Option.ne_none_iff_exists'.mp (mt (fat32MountPartition_divides accepted).mp divides)
  have success := fat32MountPartition_status accepted done
  rw [if_pos rfl] at success
  exact ⟨after, success ▸ done⟩

/-- What the mount of a boot sector owes: it divides by no zero, the unsigned count of data
sectors is the difference it stands for, and when it succeeds the block of the cache holds
all that is read into it and an entry for every data cluster. -/
structure MountSafe (room : Bool) (pool : ByteMemory) (mount : Mount) (lba : Nat) : Prop where
  divides : fat32MountPartition room pool mount lba ≠ none
  counted : ((bpbAt mount.toVolume lba).dataSectors : Int) =
    (bpbAt mount.toVolume lba).totalSectors -
      ((bpbAt mount.toVolume lba).reservedSectors + (bpbAt mount.toVolume lba).fatSectors)
  within : ∀ after, fat32MountPartition room pool mount lba = some (statusSuccess, after) →
    Within (4 * after.fatEntries) (fatWrites after.toVolume after.fatTotalSectors)
  covered : ∀ after, fat32MountPartition room pool mount lba = some (statusSuccess, after) →
    ∀ cluster, 2 ≤ cluster → cluster ≤ (bpbAt mount.toVolume lba).dataClusters + 1 →
      cluster < after.fatEntries

/-- A boot sector that passes the check is mounted safely only where the mount fails for
want of memory. A block of no bytes, which the pool never gives, would do too. -/
theorem fat32MountPartition_safe_iff (accepted : (bpbAt mount.toVolume lba).Accepted) :
    MountSafe room pool mount lba ↔
      (bpbAt mount.toVolume lba).sectorsPerCluster ≠ 0 ∧
        (bpbAt mount.toVolume lba).reservedSectors + (bpbAt mount.toVolume lba).fatSectors ≤
          (bpbAt mount.toVolume lba).totalSectors ∧
        (room = true → (bpbAt mount.toVolume lba).fatSectors = 0 ∧
          (bpbAt mount.toVolume lba).totalSectors <
            (bpbAt mount.toVolume lba).reservedSectors +
              (bpbAt mount.toVolume lba).sectorsPerCluster) := by
  have small := totalSectors_lt mount.toVolume lba
  constructor
  · intro safe
    have divides := mt (fat32MountPartition_divides accepted).mpr safe.divides
    have counted := safe.counted
    have fits : (bpbAt mount.toVolume lba).reservedSectors + (bpbAt mount.toVolume lba).fatSectors ≤
        (bpbAt mount.toVolume lba).totalSectors := by omega
    refine ⟨divides, fits, ?_⟩
    rintro rfl
    obtain ⟨after, done⟩ := fat32MountPartition_mounts pool accepted divides
    have mounted := fat32MountPartition_mounted done
    have entries := mounted.entries
    -- One cluster would already have a number behind the cache.
    have none : (bpbAt mount.toVolume lba).dataClusters = 0 := by
      by_contra some
      have last := safe.covered after done ((bpbAt mount.toVolume lba).dataClusters + 1)
        (by omega) (Nat.le_refl _)
      omega
    have within := (fatWrites_within _ _ _).mp (safe.within after done)
    rw [entries, none, mounted.sectors] at within
    have below := (Nat.div_eq_zero_iff_lt (Nat.pos_of_ne_zero divides)).mp none
    rw [Fat32Bpb.dataSectors_eq small fits] at below
    omega
  · rintro ⟨divides, fits, full⟩
    have difference := Fat32Bpb.dataSectors_eq small fits
    refine ⟨mt (fat32MountPartition_divides accepted).mp divides, by omega, ?_, ?_⟩
    · intro after done
      have mounted := fat32MountPartition_mounted done
      rw [fatWrites_within, mounted.sectors, (full mounted.given).1]
      exact Nat.zero_le _
    · intro after done cluster first last
      have empty := full (fat32MountPartition_mounted done).given
      have none : (bpbAt mount.toVolume lba).dataClusters = 0 :=
        Nat.div_eq_of_lt (by omega)
      omega

/-- The start of the boot sector of a volume of 64 MiB: 512-byte sectors, one to a cluster,
32 of them reserved, and two FATs of 1009. -/
def smallBootSector : List UInt8 :=
  [0xEB, 0x58, 0x90, 0x4D, 0x53, 0x57, 0x49, 0x4E, 0x34, 0x2E, 0x31, 0x00, 0x02, 0x01, 0x20, 0x00,
    0x02, 0x00, 0x00, 0x00, 0x00, 0xF8, 0x00, 0x00, 0x3F, 0x00, 0xFF, 0x00, 0x00, 0x00, 0x00, 0x00,
    0x00, 0x00, 0x02, 0x00, 0xF1, 0x03, 0x00, 0x00, 0x00, 0x00, 0x00, 0x00, 0x02, 0x00, 0x00, 0x00]

def smallMount : Mount where
  valid := false
  bytesPerSector := 0
  sectorsPerCluster := 0
  bytesPerCluster := 0
  rootCluster := 0
  fatStart := 0
  dataStart := 0
  fatEntries := 0
  fatCache := fun _ => 0
  disk := fun address => smallBootSector.getD address 0
  partitionStart := 0
  reservedSectors := 0
  numFats := 0
  sectorsPerFat := 0
  fatTotalSectors := 0
  hasCache := false

theorem smallMount_bpb : bpbAt smallMount.toVolume 0 =
    { bytesPerSector := 512
      sectorsPerCluster := 1
      reservedSectors := 32
      numberOfFATs := 2
      rootEntryCount := 0
      totalSectors16 := 0
      sectorsPerFAT16 := 0
      totalSectors32 := 131072
      sectorsPerFAT32 := 1009 } := by
  decide +kernel

theorem smallMount_accepted : (bpbAt smallMount.toVolume 0).Accepted := by
  rw [smallMount_bpb]
  decide

/-- Without memory for the cache. -/
theorem smallMount_safe_unmounted : MountSafe false (fun _ => 0) smallMount 0 :=
  (fat32MountPartition_safe_iff smallMount_accepted).mpr (by
    rw [smallMount_bpb]
    decide)

/-- A cache for 129022 entries, while the last of the data clusters is number 129023. -/
theorem smallMount_notSafe :
    ¬ ∀ (room : Bool) (pool : ByteMemory) (mount : Mount) (lba : Nat),
      (bpbAt mount.toVolume lba).Accepted → MountSafe room pool mount lba := by
  intro claim
  have safe := claim true (fun _ => 0) smallMount 0 smallMount_accepted
  obtain ⟨after, done⟩ := fat32MountPartition_mounts (fun _ => 0) smallMount_accepted (by
    rw [smallMount_bpb]
    decide)
  have last := safe.covered after done 129023
  rw [(fat32MountPartition_mounted done).entries, smallMount_bpb] at last
  exact absurd (last (by decide) (by decide)) (by decide)

end Mount

end MinNT.Fat32
