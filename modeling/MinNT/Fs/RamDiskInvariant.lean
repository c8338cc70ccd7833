import MinNT.Fs.RamDiskSteps

namespace MinNT.Fs

open List

/-- A RAM disk as `FsCreateRamDisk` leaves it, whose FAT covers every cluster
below the bound. -/
structure FreshDisk (disk : RamDisk) : Prop where
  created : ∃ around sizeInMB,
    fsCreateRamDisk none around true sizeInMB = (statusSuccess, some disk)
  nonempty : 0 < disk.size
  fatInside : FatInside disk

/-- Histories of a RAM disk: creations under names that satisfy `named`, and
writes that satisfy `allowed`. Every creation opens a file object of its own. -/
inductive RamRun (start : RamDisk) (named : WideString → Prop)
    (allowed : RamDisk → FileObject → Option Nat → List UInt8 → Prop) :
    RamDisk → List FileObject → Prop
  | start : RamRun start named allowed start []
  | create {disk after : RamDisk} {files : List FileObject} {slot : Nat}
      (run : RamRun start named allowed disk files) (name : WideString) (ok : named name)
      (done : fsCreateFileEntry disk name 0 = some (slot, after)) :
      RamRun start named allowed after (files ++ [⟨0, slot⟩])
  | write {disk after : RamDisk} {files : List FileObject} {file file' : FileObject}
      {status : IoStatus} (run : RamRun start named allowed disk files) (index : Nat)
      (opened : files[index]? = some file) (byteOffset : Option Nat) (buffer : List UInt8)
      (ok : allowed disk file byteOffset buffer)
      (done : ntWriteFile disk file byteOffset buffer = some (status, file', after)) :
      RamRun start named allowed after (files.set index file')

/-- A write whose `Length` is a `ULONG`. -/
def AnyWrite (_ : RamDisk) (_ : FileObject) (_ : Option Nat) (buffer : List UInt8) : Prop :=
  buffer.length < 2 ^ 32

instance (disk : RamDisk) (file : FileObject) (byteOffset : Option Nat) (buffer : List UInt8) :
    Decidable (AnyWrite disk file byteOffset buffer) :=
  inferInstanceAs (Decidable (_ < _))

/-- A name that `FsCreateFileEntry` stores so that the slot counts as taken. -/
def NameKept (name : WideString) : Prop := FirstCharOk name ∧ BaseKept name

/-- What every history keeps. Free slots own no clusters, and open files do not
use free slots. -/
structure DiskInv (disk : RamDisk) (files : List FileObject) (chain : Nat → List Nat) :
    Prop where
  regions : Regions disk
  sound : ChainsSound disk chain
  unused : ∀ slot, slot < rootEntryCount → emptySlot disk slot = true → chain slot = []
  opened : ∀ file ∈ files,
    file.fsContext < rootEntryCount ∧ emptySlot disk file.fsContext = false

theorem formatRamDisk_mod (around : ByteMemory) (sizeInMB : Nat) :
    formatRamDisk around sizeInMB = formatRamDisk around (sizeInMB % 4096) := by
  have size : sizeInMB * 2 ^ 20 % 2 ^ 32 = sizeInMB % 4096 * 2 ^ 20 % 2 ^ 32 := by omega
  unfold formatRamDisk
  rw [size]

variable {disk : RamDisk} {files : List FileObject}

section Fresh

variable (fresh : FreshDisk disk)
include fresh

/-- A fresh disk is laid out for some size that does not wrap, and is zero
behind the first two FAT entries, with room for all clusters. -/
theorem FreshDisk.layout :
    RegionsApart disk ∧ disk.fat + 4 ≤ disk.rootDir ∧
      (∀ address, disk.fat + 4 ≤ address → address < disk.size → disk.memory address = 0) ∧
      DataInside disk := by
  obtain ⟨around, sizeInMB, created⟩ := fresh.created
  have same : disk = formatRamDisk around (sizeInMB % 4096) := by
    rw [← formatRamDisk_mod]
    exact (Option.some.inj (congrArg Prod.snd created)).symm
  have nonempty := fresh.nonempty
  subst disk
  have size : (formatRamDisk around (sizeInMB % 4096)).size =
      sizeInMB % 4096 * 2 ^ 20 % 2 ^ 32 := rfl
  have layout := formatRamDisk_layout around (sizeInMB % 4096) (by omega) (by omega)
  have sectors : 2 ≤ (if 8 ≤ sizeInMB % 4096 then 2 * (sizeInMB % 4096) else 2) ∧
      (if 8 ≤ sizeInMB % 4096 then 2 * (sizeInMB % 4096) else 2) + 33 ≤
        2048 * (sizeInMB % 4096) := by
    by_cases large : 8 ≤ sizeInMB % 4096
    · rw [if_pos large]
      omega
    · rw [if_neg large]
      omega
  have apart := layout.apart sectors.2
  refine ⟨apart, ?_, ?_, layout.dataInside (by omega) sectors.2⟩
  · rw [layout.fat, layout.rootDir]
    omega
  · intro address lower upper
    have inside : address < sizeInMB % 4096 * 2 ^ 20 % 2 ^ 32 := upper
    have outside := ByteMemory.write_outside
      (fun address => if address < sizeInMB % 4096 * 2 ^ 20 % 2 ^ 32 then 0 else around address)
      (formatRamDisk around (sizeInMB % 4096)).fat [0xF8, 0xFF, 0xFF, 0xFF] address
      (Or.inr lower)
    exact outside.trans (if_pos inside)

theorem FreshDisk.regions : Regions disk := by
  obtain ⟨apart, fatRoom, _⟩ := fresh.layout
  constructor
  · by_cases few : totalClusters disk ≤ 2
    · omega
    · have last := fresh.fatInside (totalClusters disk - 1) (by omega) (by omega)
      omega
  · have root := apart.2.1
    rw [Nat.mul_comm dirEntrySize]
    exact root

theorem diskInv_start : DiskInv disk [] (fun _ => []) := by
  have regions := fresh.regions
  obtain ⟨apart, fatRoom, zero, _⟩ := fresh.layout
  have root := regions.rootFits
  have within := apart.2.2
  refine ⟨regions, ?_, fun _ _ _ => rfl, ?_⟩
  · constructor
    · intro slot inside
      unfold Leads
      rw [if_pos rfl]
      apply ByteMemory.load_eq_zero
      intro address lower upper
      simp only [dirEntry, dirEntrySize, rootEntryCount] at *
      exact zero address (by omega) (by omega)
    · intro slot _ cluster member
      cases member
    · intro slot _
      exact nodup_nil
    · intro slot other _ _ _ cluster member
      cases member
    · intro cluster lower fits used
      have free : fsReadFatEntry disk cluster = 0 := by
        apply ByteMemory.load_eq_zero
        intro address low high
        exact zero address (by omega) (by omega)
      exact absurd free used
  · intro file member
    cases member

theorem freeZero_start : FreeZero disk := by
  obtain ⟨_, fatRoom, zero, room⟩ := fresh.layout
  have root := fresh.regions.rootFits
  intro cluster lower upper _ index below
  have inside := room cluster lower upper
  simp only [fsClusterSize_eq] at inside
  exact zero _ (by omega) (by omega)

end Fresh

theorem emptySlot_congr {disk after : RamDisk} {slot : Nat}
    (same : firstNameByte after slot = firstNameByte disk slot) :
    emptySlot after slot = emptySlot disk slot := by
  unfold emptySlot
  rw [same]

/-- A new entry is one more file, with no clusters. -/
theorem diskInv_create {disk after : RamDisk} {chain : Nat → List Nat}
    {slot : Nat} (inv : DiskInv disk files chain) (name : WideString) (kept : NameKept name)
    (created : fsCreateFileEntry disk name 0 = some (slot, after)) :
    DiskInv after (files ++ [⟨0, slot⟩]) chain ∧ ∀ file ∈ files, file.fsContext ≠ slot := by
  obtain ⟨inside, empty, rfl⟩ := fsCreateFileEntry_some created
  obtain ⟨same, zero, _, named⟩ := fillEntry_spec disk slot name 0
  obtain ⟨byte, rest, stored, notZero, notDeleted⟩ := storedName_head kept.2 kept.1
  have first := named byte rest stored
  have outside := entryChange_apart inv.regions _ slot inside same
  have taken : emptySlot (fillEntry disk slot name 0) slot = false := by
    unfold emptySlot
    rw [first]
    simp [notZero, notDeleted]
  have others : ∀ other, other ≠ slot →
      emptySlot (fillEntry disk slot name 0) other = emptySlot disk other := by
    intro other different
    apply emptySlot_congr
    exact (sameEntry_of_other disk _ slot other different same).firstNameByte
  have notOpen : ∀ file ∈ files, file.fsContext ≠ slot := by
    intro file member clash
    have busy := (inv.opened file member).2
    rw [clash, empty] at busy
    cases busy
  refine ⟨⟨inv.regions.memory _, ?_, ?_, ?_⟩, notOpen⟩
  · apply inv.sound.congr inv.regions _ outside.1
    intro other otherInside
    by_cases here : other = slot
    · subst other
      rw [(inv.sound.firstCluster_zero slot inside).mpr (inv.unused slot inside empty)]
      exact zero
    · exact (sameEntry_of_other disk _ slot other here same).firstCluster
  · intro other otherInside free
    by_cases here : other = slot
    · subst other
      exact inv.unused slot inside empty
    · rw [others other here] at free
      exact inv.unused other otherInside free
  · intro file member
    rcases mem_append.mp member with member | member
    · have old := inv.opened file member
      refine ⟨old.1, ?_⟩
      rw [others _ (notOpen file member)]
      exact old.2
    · rw [mem_singleton.mp member]
      exact ⟨inside, taken⟩

theorem FreeZero.fillEntry (zero : FreeZero disk) (regions : Regions disk)
    {slot : Nat} (inside : slot < rootEntryCount) (name : WideString) (size : Nat) :
    FreeZero (fillEntry disk slot name size) := by
  have fits := regions.fatFits
  have outside := entryChange_apart regions _ slot inside (fillEntry_spec disk slot name size).1
  refine FreeZero.congr zero outside.2 ?_
  intro cluster lower upper free
  rw [← free]
  exact (fsReadFatEntry_frame disk _ cluster (by omega) outside.1).symm

theorem diskInv_keeps {chain chain' : Nat → List Nat}
    {memory : ByteMemory} {file file' : FileObject} (inv : DiskInv disk files chain)
    (member : file ∈ files) (index : Nat) (same : file'.fsContext = file.fsContext)
    (keeps : WriteKeeps disk chain file.fsContext memory chain') :
    DiskInv { disk with memory := memory } (files.set index file') chain' := by
  have busy := inv.opened file member
  have names : ∀ slot, slot < rootEntryCount →
      emptySlot { disk with memory := memory } slot = emptySlot disk slot :=
    fun slot inside => emptySlot_congr (keeps.name slot inside)
  refine ⟨inv.regions.memory memory, keeps.sound, ?_, ?_⟩
  · intro slot inside free
    rw [names slot inside] at free
    have different : slot ≠ file.fsContext := by
      intro clash
      rw [clash, busy.2] at free
      cases free
    rw [keeps.others slot different]
    exact inv.unused slot inside free
  · intro other otherMember
    rcases mem_or_eq_of_mem_set otherMember with otherMember | rfl
    · have old := inv.opened other otherMember
      exact ⟨old.1, (names _ old.1).trans old.2⟩
    · rw [same]
      exact ⟨busy.1, (names _ busy.1).trans busy.2⟩

/-- Every write returns and keeps the disk sound. -/
theorem diskInv_write {chain : Nat → List Nat}
    (inv : DiskInv disk files chain) (index : Nat) (file : FileObject)
    (opened : files[index]? = some file) (byteOffset : Option Nat) (buffer : List UInt8) :
    ∃ status file' memory chain',
      ntWriteFile disk file byteOffset buffer =
        some (status, file', { disk with memory := memory }) ∧
      DiskInv { disk with memory := memory } (files.set index file') chain' ∧
      (FreeZero disk → FreeZero { disk with memory := memory }) := by
  have member := mem_of_getElem? opened
  obtain ⟨status, file', memory, chain', done, same, keeps, zero⟩ :=
    ntWriteFile_sound inv.regions inv.sound file (inv.opened file member).1 byteOffset buffer
  exact ⟨status, file', memory, chain', done, diskInv_keeps inv member index same keeps, zero⟩

/-- Every run keeps the disk sound. -/
theorem diskInv_run {start disk : RamDisk}
    {allowed : RamDisk → FileObject → Option Nat → List UInt8 → Prop} (fresh : FreshDisk start)
    (run : RamRun start NameKept allowed disk files) :
    (∃ chain, DiskInv disk files chain) ∧ FreeZero disk := by
  induction run with
  | start => exact ⟨⟨_, diskInv_start fresh⟩, freeZero_start fresh⟩
  | create run name ok done ih =>
    obtain ⟨⟨chain, inv⟩, zero⟩ := ih
    refine ⟨⟨chain, (diskInv_create inv name ok done).1⟩, ?_⟩
    obtain ⟨inside, _, rfl⟩ := fsCreateFileEntry_some done
    exact FreeZero.fillEntry zero inv.regions inside name 0
  | write run index opened byteOffset buffer ok done ih =>
    obtain ⟨⟨chain, inv⟩, zero⟩ := ih
    obtain ⟨status, file', memory, chain', same, after, kept⟩ :=
      diskInv_write inv index _ opened byteOffset buffer
    rw [done] at same
    cases same
    exact ⟨⟨chain', after⟩, kept zero⟩

/-- The smallest disk. -/
def oneMegabyte : RamDisk := formatRamDisk (fun _ => 0) 1

theorem oneMegabyte_fresh : FreshDisk oneMegabyte := by
  have layout := formatRamDisk_layout (fun _ => 0) 1 (by decide) (by decide)
  refine ⟨⟨_, 1, rfl⟩, by decide, ?_⟩
  show FatInside (formatRamDisk (fun _ => 0) 1)
  rw [layout.fatInside_iff, layout.bound]
  decide

theorem fsCreateFileEntry_slotZero (disk : RamDisk) (name : WideString) (size : Nat)
    (empty : emptySlot disk 0 = true) :
    fsCreateFileEntry disk name size = some (0, fillEntry disk 0 name size) := by
  have search : (range rootEntryCount).find? (emptySlot disk) = some 0 := by
    rw [rootEntryCount, range_succ_eq_map, find?_cons, empty]
  rw [fsCreateFileEntry, search]
  rfl

/-- The disk after `.a` has been created, one byte has been written to it, and
`B` has been created: the slot of `.a` counts as free and is taken again. -/
def reusedSlot (wrote : IoStatus × FileObject × RamDisk) : RamDisk :=
  fillEntry wrote.2.2 0 [0x42] 0

end MinNT.Fs
