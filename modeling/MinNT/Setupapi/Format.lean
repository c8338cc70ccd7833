import Mathlib.Data.List.GetD
import MinNT.Lib.ByteMemory
import MinNT.NtStatus

namespace MinNT.Setupapi

open ByteMemory List

/-- `OSINSTALL_PARTITION`, by the fields that a format uses. -/
structure Partition where
  startSector : Nat
  sectorCount : Nat
  fileSystem : String
deriving DecidableEq, Repr

structure Install where
  diskCount : Nat
  selectedDisk : Nat
  partitions : List Partition
deriving DecidableEq, Repr

/-- The selected disk, with the numbers of the sectors written so far. -/
structure Disk where
  contents : ByteMemory
  written : List Nat

/-- `OsInstallDiskWrite` of one sector, to a device that carries out every request. -/
def osInstallDiskWrite (g : Install) (disk : Disk) (lba : Nat) (buffer : List UInt8) :
    NtStatus × Disk :=
  if g.selectedDisk ≥ g.diskCount then (statusInvalidParameter, disk)
  else (statusSuccess, ⟨disk.contents.write (lba * 512) buffer, disk.written ++ [lba]⟩)

/-- The boot sector, with the low word of the performance counter. -/
def bootSector (startSector totalSectors sectorsPerFat ts : Nat) : List UInt8 :=
  [[0xEB, 0x58, 0x90],
    [0x4D, 0x53, 0x44, 0x4F, 0x53, 0x35, 0x2E, 0x30], -- "MSDOS5.0"
    [0x00, 0x02], -- bytes per sector
    [0x08], -- sectors per cluster
    [0x20, 0x00], -- reserved sectors
    [0x02], -- number of FATs
    [0x00, 0x00], -- root entries
    [0x00, 0x00], -- total sectors, small
    [0xF8], -- media
    [0x00, 0x00], -- sectors per FAT, old
    [0x3F, 0x00], -- sectors per track
    [0xFF, 0x00], -- heads
    encodeLE 4 startSector, encodeLE 4 totalSectors, encodeLE 4 sectorsPerFat,
    [0x00, 0x00, 0x00, 0x00],
    [0x02, 0x00, 0x00, 0x00], -- root cluster
    [0x01, 0x00], -- FSInfo sector
    [0x06, 0x00], -- backup boot sector
    replicate 12 0,
    [0x80, 0x00, 0x29], -- drive number, boot signature
    encodeLE 4 ts,
    [0x4D, 0x49, 0x4E, 0x4E, 0x54, 0x20, 0x20, 0x20, 0x20, 0x20, 0x20], -- "MINNT      "
    [0x46, 0x41, 0x54, 0x33, 0x32, 0x20, 0x20, 0x20], -- "FAT32   "
    replicate 420 0, [0x55, 0xAA]].flatten

def zeroBuf : List UInt8 := replicate 512 0

/-- The first sector of the first FAT: the media descriptor, then zeros. -/
def mediaSector : List UInt8 := [0xF8, 0xFF, 0xFF, 0x0F] ++ replicate 508 0

/-- A loop that writes `zeroBuf` to `base + i`, with `left` passes to go. -/
def zeroSectors (g : Install) (base : Nat) : Nat → Nat → Disk → Disk
  | 0, _, disk => disk
  | left + 1, i, disk =>
      zeroSectors g base left (i + 1) (osInstallDiskWrite g disk ((base + i) % 2 ^ 32) zeroBuf).2

/-- What `DoFormat` leaves; no message where it has set none. -/
structure FormatResult where
  status : NtStatus
  progressMessage : Option String
  install : Install
  disk : Disk

def doFormat (g : Install) (diskNumber partitionIndex ts : Nat) (disk : Disk) : FormatResult :=
  if diskNumber ≥ g.diskCount then ⟨statusInvalidParameter, none, g, disk⟩
  else
    match g.partitions[partitionIndex]? with
    | none => ⟨statusInvalidParameter, none, g, disk⟩
    | some p =>
        let totalSectors := p.sectorCount % 2 ^ 32
        let sectorsPerFat := totalSectors / 4096 + 1
        let (status, disk) := osInstallDiskWrite g disk p.startSector
          (bootSector p.startSector totalSectors sectorsPerFat ts)
        if ntSuccess status then
          let fatStart := (p.startSector + 32) % 2 ^ 32
          let disk := (osInstallDiskWrite g disk fatStart mediaSector).2
          let disk := zeroSectors g fatStart (sectorsPerFat - 1) 1 disk
          let fat2Start := (fatStart + sectorsPerFat) % 2 ^ 32
          let disk := zeroSectors g fat2Start sectorsPerFat 0 disk
          let rootStart := (fat2Start + sectorsPerFat) % 2 ^ 32
          let disk := zeroSectors g rootStart 8 0 disk
          let formatted := { p with fileSystem := "FAT32" }
          ⟨statusSuccess, some "Format complete",
            { g with partitions := g.partitions.set partitionIndex formatted }, disk⟩
        else ⟨status, some "Formatting FAT32...", g, disk⟩

section Writes

variable {g : Install}

theorem osInstallDiskWrite_eq (selected : g.selectedDisk < g.diskCount) (disk : Disk) (lba : Nat)
    (buffer : List UInt8) :
    osInstallDiskWrite g disk lba buffer =
      (statusSuccess, ⟨disk.contents.write (lba * 512) buffer, disk.written ++ [lba]⟩) :=
  if_neg (Nat.not_le_of_lt selected)

@[simp] theorem mediaSector_length : mediaSector.length = 512 := by
  rw [mediaSector, length_append, length_replicate]
  rfl

@[simp] theorem bootSector_length (startSector totalSectors sectorsPerFat ts : Nat) :
    (bootSector startSector totalSectors sectorsPerFat ts).length = 512 := by
  rw [bootSector, length_flatten]
  simp only [map_cons, map_nil, length_replicate, encodeLE_length]
  rfl

theorem write_zeroBuf (memory : ByteMemory) (address index : Nat) :
    memory.write address zeroBuf index =
      if address ≤ index ∧ index < address + 512 then 0 else memory index := by
  have length : zeroBuf.length = 512 := length_replicate
  by_cases inside : address ≤ index ∧ index < address + 512
  · rw [if_pos inside, write_inside _ _ _ _ inside.1 (by omega), zeroBuf]
    exact getD_replicate _ (by omega)
  · rw [if_neg inside, write_outside _ _ _ _ (by omega)]

theorem mediaSector_zero {offset : Nat} (behind : 4 ≤ offset) : mediaSector.getD offset 0 = 0 := by
  rw [mediaSector, getD_append_right _ _ _ _ behind, getD_eq_getElem?_getD]
  exact getElem?_getD_replicate_default_eq _ _ _

theorem ite_join {low mid high index : Nat} (lower : low ≤ mid) (upper : mid ≤ high)
    {inside outside : UInt8} :
    (if mid ≤ index ∧ index < high then inside
      else if low ≤ index ∧ index < mid then inside else outside) =
      if low ≤ index ∧ index < high then inside else outside := by
  split
  · rw [if_pos (by omega)]
  · split
    · rw [if_pos (by omega)]
    · rw [if_neg (by omega)]

section Selected

variable (selected : g.selectedDisk < g.diskCount)
include selected

theorem zeroSectors_contents {base : Nat} (index : Nat)
    (left i : Nat) (below : base + i + left ≤ 2 ^ 32) (disk : Disk) :
    (zeroSectors g base left i disk).contents index =
      if (base + i) * 512 ≤ index ∧ index < (base + i + left) * 512 then 0
      else disk.contents index := by
  induction left generalizing i disk with
  | zero =>
    rw [zeroSectors, Nat.add_zero, if_neg (fun both => Nat.not_le_of_lt both.2 both.1)]
  | succ left ih =>
    have place : (base + i) % 2 ^ 32 = base + i := Nat.mod_eq_of_lt (by omega)
    have shift : base + (i + 1) + left = base + i + (left + 1) := by omega
    have next : (base + (i + 1)) * 512 = (base + i) * 512 + 512 := Nat.add_mul (base + i) 1 512
    have fits : (base + i) * 512 + 512 ≤ (base + i + (left + 1)) * 512 := by
      rw [Nat.add_mul _ (left + 1), Nat.add_mul left]
      exact Nat.add_le_add_left (Nat.le_add_left _ _) _
    rw [zeroSectors, osInstallDiskWrite_eq selected, ih (i + 1) (by omega), place, shift, next]
    change (if _ then 0 else disk.contents.write ((base + i) * 512) zeroBuf index) = _
    rw [write_zeroBuf]
    exact ite_join (Nat.le_add_right _ _) fits

theorem zeroSectors_written {base : Nat}
    (left i : Nat) (below : base + i + left ≤ 2 ^ 32) (disk : Disk) (lba : Nat) :
    lba ∈ (zeroSectors g base left i disk).written ↔
      lba ∈ disk.written ∨ base + i ≤ lba ∧ lba < base + i + left := by
  induction left generalizing i disk with
  | zero =>
    have empty : ¬ (base + i ≤ lba ∧ lba < base + i) := by omega
    rw [zeroSectors, Nat.add_zero, or_iff_left empty]
  | succ left ih =>
    have place : (base + i) % 2 ^ 32 = base + i := Nat.mod_eq_of_lt (by omega)
    rw [zeroSectors, osInstallDiskWrite_eq selected, ih (i + 1) (by omega), place]
    change lba ∈ disk.written ++ [base + i] ∨ _ ↔ _
    have range : lba = base + i ∨ base + (i + 1) ≤ lba ∧ lba < base + (i + 1) + left ↔
        base + i ≤ lba ∧ lba < base + i + (left + 1) := by omega
    rw [mem_append, mem_singleton, or_assoc, range]

theorem zeroedFats_contents {fatStart sectorsPerFat : Nat} (some : 1 ≤ sectorsPerFat)
    (below : fatStart + sectorsPerFat + sectorsPerFat + 8 ≤ 2 ^ 32) (disk : Disk) (index : Nat) :
    (zeroSectors g (fatStart + sectorsPerFat + sectorsPerFat) 8 0
      (zeroSectors g (fatStart + sectorsPerFat) sectorsPerFat 0
        (zeroSectors g fatStart (sectorsPerFat - 1) 1 disk))).contents index =
      if (fatStart + 1) * 512 ≤ index ∧
        index < (fatStart + sectorsPerFat + sectorsPerFat + 8) * 512 then 0
      else disk.contents index := by
  have whole : fatStart + 1 + (sectorsPerFat - 1) = fatStart + sectorsPerFat := by omega
  rw [zeroSectors_contents selected index _ _ (by omega),
    zeroSectors_contents selected index _ _ (by omega),
    zeroSectors_contents selected index _ _ (by omega), whole]
  simp only [Nat.add_zero]
  rw [ite_join (Nat.mul_le_mul_right 512 (by omega)) (Nat.mul_le_mul_right 512 (by omega)),
    ite_join (Nat.mul_le_mul_right 512 (by omega)) (Nat.mul_le_mul_right 512 (by omega))]

end Selected

end Writes

end MinNT.Setupapi
