import MinNT.Fs.RamDiskContents
import MinNT.Fs.RamDiskInvariant

namespace MinNT.Fs

open List

/-- A write that starts inside the file or at its end, ends below 4 GB and finds
enough free clusters. -/
def NoHole (disk : RamDisk) (file : FileObject) (byteOffset : Option Nat) (buffer : List UInt8) :
    Prop :=
  requestOffset file byteOffset ≤ fileSize disk file.fsContext ∧
    requestOffset file byteOffset + buffer.length < 2 ^ 32 ∧
    clustersFor (max (fileSize disk file.fsContext)
      (requestOffset file byteOffset + buffer.length)) ≤
      clustersFor (fileSize disk file.fsContext) + freeClusters disk

instance (disk : RamDisk) (file : FileObject) (byteOffset : Option Nat) (buffer : List UInt8) :
    Decidable (NoHole disk file byteOffset buffer) :=
  inferInstanceAs (Decidable (_ ∧ _ ∧ _))

/-- Status and bytes of reading one byte. -/
def readByte (disk : RamDisk) (file : FileObject) (offset : Nat) : IoStatus × List UInt8 :=
  ((ntReadFile disk file (some offset) 1).1, (ntReadFile disk file (some offset) 1).2.1)

/-- `NtWriteFile` on one of the open files does to the files what overwriting a
part of a byte list does to the list, and reports the whole length. -/
def WriteRefines (disk : RamDisk) (files : List FileObject) (index : Nat) (file : FileObject)
    (byteOffset : Option Nat) (buffer : List UInt8) : Prop :=
  ∃ file' disk',
    ntWriteFile disk file byteOffset buffer =
      some (⟨statusSuccess, buffer.length⟩, file', disk') ∧
    fileSize disk' file.fsContext = max (fileSize disk file.fsContext)
      (requestOffset file byteOffset + buffer.length) ∧
    (0 < buffer.length → ∃ later,
      ntReadFile disk' file' (some (requestOffset file byteOffset)) buffer.length =
        (⟨statusSuccess, buffer.length⟩, buffer, later)) ∧
    (∀ offset, offset < fileSize disk' file.fsContext →
      offset < requestOffset file byteOffset ∨
        requestOffset file byteOffset + buffer.length ≤ offset →
      readByte disk' file' offset = readByte disk file offset) ∧
    ∀ other otherFile, other ≠ index → files[other]? = some otherFile →
      fileSize disk' otherFile.fsContext = fileSize disk otherFile.fsContext ∧
        ∀ offset length, offset + length < 2 ^ 32 →
          ntReadFile disk' otherFile (some offset) length =
            ntReadFile disk otherFile (some offset) length

/-- On top of the chain invariant: chains as long as the sizes ask for, and one
slot for each open file. -/
structure FilesInv (disk : RamDisk) (files : List FileObject) (chain : Nat → List Nat) :
    Prop where
  base : DiskInv disk files chain
  filled : Filled disk chain
  ownSlot : (files.map FileObject.fsContext).Nodup

theorem clustersFor_covers (size : Nat) : size ≤ 2048 * clustersFor size := by
  rw [clustersFor]
  omega

theorem clustersFor_max (left right : Nat) :
    clustersFor (max left right) = max (clustersFor left) (clustersFor right) := by
  rw [clustersFor, clustersFor, clustersFor]
  omega

variable {disk : RamDisk} {chain : Nat → List Nat} {files : List FileObject}

theorem readByte_chain (sound : ChainsSound disk chain)
    (file : FileObject) (inside : file.fsContext < rootEntryCount) (offset : Nat)
    (below : offset < fileSize disk file.fsContext) :
    readByte disk file offset =
      if offset < 2048 * (chain file.fsContext).length then
        (⟨statusSuccess, 1⟩, [byteAt disk (chain file.fsContext) offset])
      else (⟨statusSuccess, 0⟩, []) := by
  have small := fileSize_lt disk file.fsContext
  by_cases covered : offset < 2048 * (chain file.fsContext).length
  · have read := ntReadFile_chain sound file inside offset 1 1 (by omega) (by omega)
    rw [if_neg (Nat.not_le.mpr below)] at read
    rw [if_pos covered, readByte, read]
    rfl
  · have read := ntReadFile_chain sound file inside offset 1 0 (by omega) (by omega)
    rw [if_neg (Nat.not_le.mpr below)] at read
    rw [if_neg covered, readByte, read]
    rfl

/-- A non-empty request inside of a file reads back as `buffer` exactly if the chain
reaches that far and holds it. -/
theorem readBack_iff (sound : ChainsSound disk chain) (file : FileObject)
    (inside : file.fsContext < rootEntryCount) (offset : Nat) (buffer : List UInt8)
    (positive : 0 < buffer.length) (size : offset + buffer.length ≤ fileSize disk file.fsContext) :
    (∃ later, ntReadFile disk file (some offset) buffer.length =
        (⟨statusSuccess, buffer.length⟩, buffer, later)) ↔
      offset + buffer.length ≤ 2048 * (chain file.fsContext).length ∧
        ∀ index, index < buffer.length →
          byteAt disk (chain file.fsContext) (offset + index) = buffer.getD index 0 := by
  have small := fileSize_lt disk file.fsContext
  generalize counted : min (min buffer.length (fileSize disk file.fsContext - offset))
    (2048 * (chain file.fsContext).length - offset) = count
  rw [ntReadFile_chain sound file inside offset buffer.length count (by omega) counted.symm,
    if_neg (by omega)]
  constructor
  · intro known
    obtain ⟨later, read⟩ := known
    simp only [Prod.mk.injEq, IoStatus.mk.injEq] at read
    have whole : count = buffer.length := read.1.2
    refine ⟨by omega, ?_⟩
    intro index below
    rw [← read.2.1, getD_eq_getElem _ _ (by simpa using whole ▸ below)]
    simp
  · intro known
    have whole : count = buffer.length := by omega
    have bytes : (range count).map (fun index =>
        byteAt disk (chain file.fsContext) (offset + index)) = buffer := by
      apply ext_getElem
      · simp [whole]
      · intro index _ bound
        rw [getElem_map, getElem_range, known.2 index bound, getD_eq_getElem]
    rw [whole] at bytes ⊢
    rw [bytes]
    exact ⟨_, rfl⟩

theorem ntReadFile_congr {disk after : RamDisk} {chain chain' : Nat → List Nat}
    (sound : ChainsSound disk chain) (filled : Filled disk chain)
    (sound' : ChainsSound after chain') (filled' : Filled after chain') (file : FileObject)
    (inside : file.fsContext < rootEntryCount)
    (size : fileSize after file.fsContext = fileSize disk file.fsContext)
    (bytes : ∀ offset, offset < fileSize disk file.fsContext →
      byteAt after (chain' file.fsContext) offset = byteAt disk (chain file.fsContext) offset)
    (offset length : Nat) (noWrap : offset + length < 2 ^ 32) :
    ntReadFile after file (some offset) length = ntReadFile disk file (some offset) length := by
  rw [ntReadFile_eq sound filled file inside offset length noWrap,
    ntReadFile_eq sound' filled' file inside offset length noWrap, size]
  by_cases past : offset ≥ fileSize disk file.fsContext
  · rw [if_pos past, if_pos past]
  · rw [if_neg past, if_neg past]
    congr 2
    apply map_congr_left
    intro position inRange
    have bound := mem_range.mp inRange
    exact bytes (offset + position) (by omega)

/-- A write without a hole writes all of its bytes. -/
theorem ntWriteFile_written
    (inv : FilesInv disk files chain) (file : FileObject) (member : file ∈ files)
    (byteOffset : Option Nat) (buffer : List UInt8) (ok : NoHole disk file byteOffset buffer) :
    ∃ grown memory chain',
      ntWriteFile disk file byteOffset buffer =
        some (⟨statusSuccess, buffer.length⟩,
          { file with currentOffset := requestOffset file byteOffset + buffer.length },
          { disk with memory := memory }) ∧
      (∀ address, disk.dataArea ≤ address → grown address = disk.memory address) ∧
      fileSize { disk with memory := grown } file.fsContext =
        max (fileSize disk file.fsContext) (requestOffset file byteOffset + buffer.length) ∧
      (∀ other, other ≠ file.fsContext →
        fileSize { disk with memory := grown } other = fileSize disk other) ∧
      WriteKeeps disk chain file.fsContext memory chain' ∧
      Written { disk with memory := grown } chain file.fsContext buffer
        (requestOffset file byteOffset) memory chain' := by
  obtain ⟨noHole, noWrap, room⟩ := ok
  have inside := (inv.base.opened file member).1
  have length := inv.filled file.fsContext inside
  obtain ⟨grown, same, keeps, kept, size, others⟩ := growFileSize_keeps inv.base.regions
    inv.base.sound file.fsContext (requestOffset file byteOffset + buffer.length) inside noWrap
  have fatKept : freeClusters { disk with memory := grown } = freeClusters disk :=
    freeClusters_congr disk grown inv.base.regions (fun address below => kept address (.inl below))
  rw [clustersFor_max] at room
  obtain ⟨memory, chain', done, written⟩ := writeLoop_written file.fsContext inside buffer.length
    { disk with memory := grown } chain buffer (requestOffset file byteOffset)
    (inv.base.regions.memory grown) keeps.sound (Nat.le_refl _) noWrap (by
      rw [size]
      exact Nat.le_max_right _ _) (by
      rw [length]
      exact Nat.le_trans noHole (clustersFor_covers _)) (by
      rw [fatKept, length]
      omega)
  refine ⟨grown, memory, chain', ?_, fun address above => kept address (.inr above), size,
    others, keeps.trans written.keeps, written⟩
  unfold ntWriteFile
  dsimp only
  rw [Nat.mod_eq_of_lt noWrap, same, done]
  simp only [Option.map_some, length_nil, Nat.sub_zero]
  rw [Nat.mod_eq_of_lt noWrap]

/-- A write without a hole refines the write to the file's bytes. -/
theorem filesInv_write (inv : FilesInv disk files chain) (index : Nat) (file : FileObject)
    (opened : files[index]? = some file) (byteOffset : Option Nat) (buffer : List UInt8)
    (ok : NoHole disk file byteOffset buffer) :
    WriteRefines disk files index file byteOffset buffer ∧
      ∀ status file' after,
        ntWriteFile disk file byteOffset buffer = some (status, file', after) →
        ∃ chain', FilesInv after (files.set index file') chain' := by
  have member := mem_of_getElem? opened
  have inside := (inv.base.opened file member).1
  have length := inv.filled file.fsContext inside
  obtain ⟨grown, memory, chain', done, data, size, others, keeps, written⟩ :=
    ntWriteFile_written inv file member byteOffset buffer ok
  obtain ⟨noHole, noWrap, room⟩ := ok
  have newSize : fileSize { disk with memory := memory } file.fsContext =
      max (fileSize disk file.fsContext) (requestOffset file byteOffset + buffer.length) :=
    (written.sizes file.fsContext inside).trans size
  have otherSize : ∀ slot, slot < rootEntryCount → slot ≠ file.fsContext →
      fileSize { disk with memory := memory } slot = fileSize disk slot :=
    fun slot slotInside different => (written.sizes slot slotInside).trans (others slot different)
  have filled : Filled { disk with memory := memory } chain' := by
    intro slot slotInside
    by_cases same : slot = file.fsContext
    · subst slot
      rw [newSize, clustersFor_max, ← length]
      exact written.length
    · rw [otherSize slot slotInside same, written.keeps.others slot same]
      exact inv.filled slot slotInside
  have sound : ChainsSound { disk with memory := memory } chain' := written.keeps.sound
  -- The chain of a file reaches to its end, before and after the write.
  have covered : ∀ slot, slot < rootEntryCount →
      fileSize disk slot ≤ 2048 * (chain slot).length := by
    intro slot slotInside
    rw [inv.filled slot slotInside]
    exact clustersFor_covers _
  have covered' : ∀ slot, slot < rootEntryCount →
      fileSize { disk with memory := memory } slot ≤ 2048 * (chain' slot).length := by
    intro slot slotInside
    rw [filled slot slotInside]
    exact clustersFor_covers _
  have old := covered file.fsContext inside
  have new := covered' file.fsContext inside
  refine ⟨⟨_, _, done, newSize, ?_, ?_, ?_⟩, ?_⟩
  · intro positive
    refine (readBack_iff sound
      { file with currentOffset := requestOffset file byteOffset + buffer.length }
      inside _ buffer positive ?_).mpr
      ⟨?_, written.written⟩
    · change _ ≤ fileSize { disk with memory := memory } file.fsContext
      omega
    · change _ ≤ 2048 * (chain' file.fsContext).length
      omega
  · intro offset below apart
    have now := readByte_chain sound { file with
      currentOffset := requestOffset file byteOffset + buffer.length } inside offset below
    have before := readByte_chain inv.base.sound file inside offset (by omega)
    rw [if_pos (by change offset < 2048 * (chain' file.fsContext).length; omega)] at now
    rw [if_pos (by omega)] at before
    rw [now, before]
    congr 2
    exact (written.untouched offset (by omega) apart).trans
      (byteAt_congr inv.base.sound data file.fsContext offset inside (by omega))
  · intro other otherFile different known
    have otherInside := (inv.base.opened otherFile (mem_of_getElem? known)).1
    have apart : otherFile.fsContext ≠ file.fsContext := by
      intro clash
      have slots : (files.map FileObject.fsContext)[other]? =
          (files.map FileObject.fsContext)[index]? := by
        rw [getElem?_map, getElem?_map, known, opened, Option.map_some, Option.map_some, clash]
      have bound := (List.getElem?_eq_some_iff.mp known).1
      exact different ((getElem?_inj (by simpa using bound) inv.ownSlot).mp slots)
    have sameSize := otherSize _ otherInside apart
    refine ⟨sameSize, ?_⟩
    apply ntReadFile_congr inv.base.sound inv.filled sound filled otherFile otherInside sameSize
    intro offset below
    have reached := covered otherFile.fsContext otherInside
    rw [written.keeps.others _ apart]
    exact (written.elsewhere _ otherInside apart offset (by omega)).trans
      (byteAt_congr inv.base.sound data _ _ otherInside (by omega))
  · intro status file' after result
    rw [done] at result
    cases result
    refine ⟨chain', diskInv_keeps inv.base member index rfl keeps, filled, ?_⟩
    have slot : (files.map FileObject.fsContext)[index]? = some file.fsContext := by
      rw [getElem?_map, opened, Option.map_some]
    obtain ⟨bound, here⟩ := List.getElem?_eq_some_iff.mp slot
    rw [map_set]
    change ((files.map FileObject.fsContext).set index file.fsContext).Nodup
    rw [← here, set_getElem_self]
    exact inv.ownSlot

theorem filesInv_start (fresh : FreshDisk disk) : FilesInv disk [] (fun _ => []) := by
  refine ⟨diskInv_start fresh, ?_, nodup_nil⟩
  obtain ⟨apart, fatRoom, zero, _⟩ := fresh.layout
  have root := fresh.regions.rootFits
  have within := apart.2.2
  intro slot inside
  have empty : fileSize disk slot = 0 := by
    apply ByteMemory.load_eq_zero
    intro address lower upper
    simp only [dirEntry, dirEntrySize, rootEntryCount] at *
    exact zero address (by omega) (by omega)
  rw [empty]
  rfl

theorem filesInv_create {disk after : RamDisk}
    {slot : Nat} (inv : FilesInv disk files chain) (name : WideString) (kept : NameKept name)
    (created : fsCreateFileEntry disk name 0 = some (slot, after)) :
    FilesInv after (files ++ [⟨0, slot⟩]) chain := by
  obtain ⟨base, fresh⟩ := diskInv_create inv.base name kept created
  obtain ⟨inside, empty, rfl⟩ := fsCreateFileEntry_some created
  obtain ⟨same, _, size, _⟩ := fillEntry_spec disk slot name 0
  refine ⟨base, ?_, ?_⟩
  · intro other otherInside
    by_cases here : other = slot
    · subst other
      rw [size, inv.base.unused slot inside empty]
      rfl
    · have sameSize := (sameEntry_of_other disk _ slot other here same).fileSize
      rw [inv.filled other otherInside]
      exact congrArg clustersFor sameSize.symm
  · rw [map_append, nodup_append]
    refine ⟨inv.ownSlot, by simp, ?_⟩
    intro used member other isNew clash
    obtain ⟨file, inFiles, rfl⟩ := List.mem_map.mp member
    have isSlot : other = slot := by simpa using isNew
    exact fresh file inFiles (clash.trans isSlot)

theorem filesInv_run {start disk : RamDisk} (fresh : FreshDisk start)
    (run : RamRun start NameKept NoHole disk files) : ∃ chain, FilesInv disk files chain := by
  induction run with
  | start => exact ⟨_, filesInv_start fresh⟩
  | create run name ok done ih =>
    obtain ⟨chain, inv⟩ := ih
    exact ⟨chain, filesInv_create inv name ok done⟩
  | write run index opened byteOffset buffer ok done ih =>
    obtain ⟨chain, inv⟩ := ih
    exact (filesInv_write inv index _ opened byteOffset buffer ok).2 _ _ _ done

end MinNT.Fs
