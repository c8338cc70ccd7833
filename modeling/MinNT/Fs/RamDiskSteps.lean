import MinNT.Fs.RamDiskChain
import MinNT.Fs.RamDiskLayout

namespace MinNT.Fs

open List Function ByteMemory Chain

variable {disk : RamDisk} {chain : Nat → List Nat}

/-- The three outcomes of a turn of the write loop: a cluster of the chain, a
full disk, or a new cluster behind the chain. -/
theorem writeTarget_cases (regions : Regions disk)
    (sound : ChainsSound disk chain) (slot currentOffset : Nat) (inside : slot < rootEntryCount) :
    (∃ cluster, currentOffset < fileSize disk slot ∧
      (chain slot)[currentOffset / fsClusterSize]? = some cluster ∧
      writeTarget disk slot currentOffset =
        some (some (cluster, currentOffset % fsClusterSize, disk))) ∨
    (¬ (currentOffset < fileSize disk slot ∧
        currentOffset / fsClusterSize < (chain slot).length) ∧
      ((findFreeCluster disk = none ∧ writeTarget disk slot currentOffset = some none) ∨
        ∃ cluster memory,
          writeTarget disk slot currentOffset =
            some (some (cluster, 0, { disk with memory := memory })) ∧
          2 ≤ cluster ∧ cluster < totalClusters disk ∧ fsReadFatEntry disk cluster = 0 ∧
          KeepsFiles disk memory ∧
          ChainsSound { disk with memory := memory }
            (update chain slot (chain slot ++ [cluster])))) := by
  have resolved := sound.resolve slot currentOffset inside
  by_cases within : currentOffset < fileSize disk slot ∧
      currentOffset / fsClusterSize < (chain slot).length
  · left
    rw [if_pos within.1, getElem?_eq_getElem within.2] at resolved
    refine ⟨_, within.1, getElem?_eq_getElem within.2, ?_⟩
    unfold writeTarget
    rw [resolved]
    rfl
  · right
    have missing : fsResolveClusterChain disk slot currentOffset = none := by
      rw [resolved]
      by_cases short : currentOffset < fileSize disk slot
      · rw [if_pos short, getElem?_eq_none (by omega), Option.map_none]
      · rw [if_neg short]
    refine ⟨within, ?_⟩
    unfold writeTarget
    rw [missing]
    dsimp only
    rcases allocateCluster_cases regions sound slot inside with
      ⟨full, search⟩ | ⟨cluster, memory, done, lower, upper, free, keeps, after⟩
    · rw [full]
      exact .inl ⟨search, rfl⟩
    · rw [done]
      exact .inr ⟨cluster, memory, rfl, lower, upper, free, keeps, after⟩

theorem clusterPart_eq {size remaining currentOffset : Nat} (offsetInCluster : Nat)
    (covered : (currentOffset + remaining) % 2 ^ 32 ≤ size) :
    clusterPart size remaining currentOffset offsetInCluster =
      min remaining (2048 - offsetInCluster) := by
  unfold clusterPart
  rw [if_neg (Nat.not_lt.mpr covered)]
  rfl

theorem fsClusterSize_eq : fsClusterSize = 2048 := rfl

/-- What a write to one slot keeps about chains and names of the directory. -/
structure WriteKeeps (disk : RamDisk) (chain : Nat → List Nat) (slot : Nat)
    (memory : ByteMemory) (chain' : Nat → List Nat) : Prop where
  sound : ChainsSound { disk with memory := memory } chain'
  others : ∀ other, other ≠ slot → chain' other = chain other
  name : ∀ other, other < rootEntryCount →
    firstNameByte { disk with memory := memory } other = firstNameByte disk other

theorem WriteKeeps.trans {chain middle after : Nat → List Nat} {slot : Nat}
    {memory memory' : ByteMemory} (first : WriteKeeps disk chain slot memory middle)
    (second : WriteKeeps { disk with memory := memory } middle slot memory' after) :
    WriteKeeps disk chain slot memory' after where
  sound := second.sound
  others :=
    fun other different => (second.others other different).trans (first.others other different)
  name := fun other inside => (second.name other inside).trans (first.name other inside)

theorem writeData_keeps (regions : Regions disk) (sound : ChainsSound disk chain)
    (slot cluster offsetInCluster : Nat) (bytes : List UInt8) (lower : 2 ≤ cluster)
    (upper : cluster < 2 ^ 16) (fits : offsetInCluster + bytes.length ≤ 2048) :
    WriteKeeps disk chain slot (writeData disk cluster offsetInCluster bytes).memory chain ∧
      ∀ other, other < rootEntryCount →
        fileSize (writeData disk cluster offsetInCluster bytes) other = fileSize disk other := by
  have same := writeData_sameOutside disk cluster offsetInCluster bytes lower upper fits
  have root := regions.rootFits
  have entry : ∀ other, other < rootEntryCount →
      SameEntry disk (writeData disk cluster offsetInCluster bytes).memory other :=
    fun other inside => sameEntry_of_outside disk _ _ _ other inside same (.inr (by omega))
  refine ⟨⟨sound.dataChange regions _ _ _ same (by omega), fun _ _ => rfl, ?_⟩, ?_⟩
  · intro other inside
    exact (entry other inside).firstNameByte
  · intro other inside
    exact (entry other inside).fileSize

/-- The clusters that no file owns hold zeros. -/
def FreeZero (disk : RamDisk) : Prop :=
  ∀ cluster, 2 ≤ cluster → cluster < totalClusters disk → fsReadFatEntry disk cluster = 0 →
    ∀ index, index < 2048 → disk.memory (fsClusterBase disk cluster + index) = 0

theorem FreeZero.congr {memory : ByteMemory} (zero : FreeZero disk)
    (data : ∀ address, disk.dataArea ≤ address → memory address = disk.memory address)
    (used : ∀ cluster, 2 ≤ cluster → cluster < totalClusters disk →
      fsReadFatEntry { disk with memory := memory } cluster = 0 →
      fsReadFatEntry disk cluster = 0) : FreeZero { disk with memory := memory } := by
  intro cluster lower upper free index below
  have bound : cluster < 2 ^ 16 := Nat.lt_trans upper (totalClusters_lt _)
  have base := fsClusterBase_eq disk cluster lower bound
  refine (data _ ?_).trans (zero cluster lower upper (used cluster lower upper free) index below)
  show disk.dataArea ≤ fsClusterBase disk cluster + index
  omega

theorem FreeZero.writeData (zero : FreeZero disk) (regions : Regions disk)
    {cluster offsetInCluster : Nat} {bytes : List UInt8} (lower : 2 ≤ cluster)
    (upper : cluster < 2 ^ 16) (taken : fsReadFatEntry disk cluster ≠ 0)
    (fits : offsetInCluster + bytes.length ≤ 2048) :
    FreeZero (writeData disk cluster offsetInCluster bytes) := by
  intro other otherLower otherUpper free index below
  have fatFits := regions.fatFits
  have rootFits := regions.rootFits
  have bound : other < totalClusters disk := otherUpper
  have same := writeData_sameOutside disk cluster offsetInCluster bytes lower upper fits
  have stillFree : fsReadFatEntry disk other = 0 := by
    rw [← free]
    exact (fsReadFatEntry_frame disk _ other (by omega) (fun address front =>
      same address (by omega))).symm
  have different : other ≠ cluster := by
    intro clash
    exact taken (clash ▸ stillFree)
  refine (writeData_otherCluster disk cluster other offsetInCluster index bytes lower upper
    otherLower (Nat.lt_trans otherUpper (totalClusters_lt _)) different below fits).trans ?_
  exact zero other otherLower otherUpper stillFree index below

theorem FreeZero.append {memory : ByteMemory} {slot cluster : Nat} (zero : FreeZero disk)
    (regions : Regions disk) (sound : ChainsSound disk chain) (keeps : KeepsFiles disk memory)
    (after : ChainsSound { disk with memory := memory }
      (update chain slot (chain slot ++ [cluster]))) : FreeZero { disk with memory := memory } := by
  refine zero.congr keeps.data ?_
  intro other lower upper free
  have unused := (after.free_iff (regions.memory memory) other lower upper).mp free
  refine (sound.free_iff regions other lower upper).mpr ?_
  intro anySlot inside member
  apply unused anySlot inside
  by_cases here : anySlot = slot
  · subst anySlot
    rw [update_self]
    exact mem_append_left _ member
  · rw [update_of_ne here]
    exact member

theorem ChainsSound.taken (regions : Regions disk)
    (sound : ChainsSound disk chain) {slot cluster : Nat} (inside : slot < rootEntryCount)
    (member : cluster ∈ chain slot) : fsReadFatEntry disk cluster ≠ 0 := by
  intro free
  have range := sound.inRange slot inside cluster member
  exact (sound.free_iff regions cluster range.1 range.2).mp free slot inside member

/-- The write loop ends from every sound disk, whatever the offset, and leaves
a sound disk behind, full or not. -/
theorem writeLoop_sound (slot : Nat) (inside : slot < rootEntryCount) (fuel : Nat) :
    ∀ (disk : RamDisk) (chain : Nat → List Nat) (src : List UInt8) (currentOffset : Nat),
      Regions disk → ChainsSound disk chain → src.length ≤ fuel →
      (currentOffset + src.length) % 2 ^ 32 ≤ fileSize disk slot →
      ∃ memory left chain',
        writeLoop fuel disk slot src currentOffset = some ({ disk with memory := memory }, left) ∧
        WriteKeeps disk chain slot memory chain' ∧
        (FreeZero disk → FreeZero { disk with memory := memory }) := by
  induction fuel with
  | zero =>
    intro disk chain src currentOffset regions sound enough covered
    have empty : src = [] := eq_nil_of_length_eq_zero (by omega)
    subst src
    exact ⟨disk.memory, [], chain, rfl, ⟨sound, fun _ _ => rfl, fun _ _ => rfl⟩, id⟩
  | succ fuel ih =>
    intro disk chain src currentOffset regions sound enough covered
    cases src with
    | nil => exact ⟨disk.memory, [], chain, rfl, ⟨sound, fun _ _ => rfl, fun _ _ => rfl⟩, id⟩
    | cons byte rest =>
      -- One turn at a given cluster, then the loop on the bytes left.
      have turn : ∀ (cluster offsetInCluster : Nat) (memory : ByteMemory) (chain' : Nat → List Nat),
          writeTarget disk slot currentOffset =
            some (some (cluster, offsetInCluster, { disk with memory := memory })) →
          WriteKeeps disk chain slot memory chain' →
          fileSize { disk with memory := memory } slot = fileSize disk slot →
          2 ≤ cluster → cluster < 2 ^ 16 → offsetInCluster < 2048 → cluster ∈ chain' slot →
          (FreeZero disk → FreeZero { disk with memory := memory }) →
          ∃ memory left chain',
            writeLoop (fuel + 1) disk slot (byte :: rest) currentOffset =
              some ({ disk with memory := memory }, left) ∧
            WriteKeeps disk chain slot memory chain' ∧
            (FreeZero disk → FreeZero { disk with memory := memory }) := by
        intro cluster offsetInCluster memory chain' target keeps size lower upper below member zero
        have part := clusterPart_eq offsetInCluster (size.symm ▸ covered)
        rw [writeLoop, target]
        dsimp only
        rw [part]
        generalize counted : min (byte :: rest).length (2048 - offsetInCluster) = toWrite
        rw [if_neg (by omega)]
        have copied : ((byte :: rest).take toWrite).length = toWrite := by
          rw [length_take]
          omega
        obtain ⟨data, sizes⟩ := writeData_keeps (regions.memory memory) keeps.sound slot
          cluster offsetInCluster ((byte :: rest).take toWrite) lower upper (by omega)
        have left : ((byte :: rest).drop toWrite).length = (byte :: rest).length - toWrite :=
          length_drop
        obtain ⟨final, leftover, chain'', done, later, laterZero⟩ := ih _ chain'
          ((byte :: rest).drop toWrite) ((currentOffset + toWrite) % 2 ^ 32)
          (regions.memory _) data.sound (by omega) (by
            rw [left]
            refine Nat.le_trans (Nat.le_of_eq ?_)
              (Nat.le_trans covered (Nat.le_of_eq ((sizes slot inside).trans size).symm))
            omega)
        have taken := keeps.sound.taken (regions.memory memory) inside member
        exact ⟨final, leftover, chain'', done, (keeps.trans data).trans later, fun start =>
          laterZero ((zero start).writeData (regions.memory memory) lower upper taken (by omega))⟩
      have bound := totalClusters_lt disk
      rcases writeTarget_cases regions sound slot currentOffset inside with
        ⟨cluster, short, member, target⟩ |
          ⟨_, ⟨_, full⟩ | ⟨cluster, memory, target, lower, upper, free, keeps, after⟩⟩
      · have range := sound.inRange slot inside cluster (mem_of_getElem? member)
        exact turn cluster _ disk.memory chain target ⟨sound, fun _ _ => rfl, fun _ _ => rfl⟩
          rfl range.1 (by omega) (Nat.mod_lt _ (by decide)) (mem_of_getElem? member) id
      · refine ⟨disk.memory, byte :: rest, chain, ?_, ⟨sound, fun _ _ => rfl, fun _ _ => rfl⟩, id⟩
        rw [writeLoop, full]
      · refine turn cluster 0 memory _ target ⟨after, ?_, keeps.name⟩ (keeps.size slot inside)
          lower (by omega) (by decide) ?_ fun zero => zero.append regions sound keeps after
        · intro other different
          exact update_of_ne different _ _
        · rw [update_self]
          exact mem_append_right _ (mem_singleton_self _)

/-- A longer file is longer, and nothing else is changed. -/
theorem growFileSize_keeps (regions : Regions disk) (sound : ChainsSound disk chain)
    (slot size : Nat) (inside : slot < rootEntryCount) (small : size < 2 ^ 32) :
    ∃ memory, growFileSize disk slot size = { disk with memory := memory } ∧
      WriteKeeps disk chain slot memory chain ∧
      (∀ address, address < disk.rootDir ∨ disk.dataArea ≤ address →
        memory address = disk.memory address) ∧
      fileSize { disk with memory := memory } slot = max (fileSize disk slot) size ∧
      ∀ other, other ≠ slot →
        fileSize { disk with memory := memory } other = fileSize disk other := by
  unfold growFileSize
  by_cases larger : size > fileSize disk slot
  · rw [if_pos larger]
    have outside := entryChange_apart regions _ slot inside (setFileSize_sameOutside disk slot size)
    refine ⟨_, rfl, ⟨?_, fun _ _ => rfl, ?_⟩,
      fun address apart => apart.elim (outside.1 address) (outside.2 address), ?_, ?_⟩
    · apply sound.congr regions _ outside.1
      intro other _
      exact firstCluster_setFileSize disk slot size other
    · intro other _
      exact firstNameByte_setFileSize disk slot size other
    · have stored := fileSize_setFileSize disk slot size small
      rw [Nat.max_eq_right (Nat.le_of_lt larger)]
      exact stored
    · intro other different
      exact (sameEntry_of_other disk _ slot other different
        (setFileSize_sameOutside disk slot size)).fileSize
  · rw [if_neg larger]
    refine ⟨disk.memory, rfl, ⟨sound, fun _ _ => rfl, fun _ _ => rfl⟩, fun _ _ => rfl, ?_,
      fun _ _ => rfl⟩
    exact (Nat.max_eq_left (Nat.le_of_not_lt larger)).symm

theorem ntWriteFile_sound (regions : Regions disk)
    (sound : ChainsSound disk chain) (file : FileObject) (inside : file.fsContext < rootEntryCount)
    (byteOffset : Option Nat) (buffer : List UInt8) :
    ∃ status file' memory chain',
      ntWriteFile disk file byteOffset buffer =
        some (status, file', { disk with memory := memory }) ∧
      file'.fsContext = file.fsContext ∧
      WriteKeeps disk chain file.fsContext memory chain' ∧
      (FreeZero disk → FreeZero { disk with memory := memory }) := by
  have small : (requestOffset file byteOffset + buffer.length) % 2 ^ 32 < 2 ^ 32 :=
    Nat.mod_lt _ (by decide)
  obtain ⟨grown, same, keeps, kept, size, _⟩ := growFileSize_keeps regions sound file.fsContext
    ((requestOffset file byteOffset + buffer.length) % 2 ^ 32) inside small
  obtain ⟨memory, left, chain', done, later, zero⟩ :=
    writeLoop_sound file.fsContext inside buffer.length
    { disk with memory := grown } chain buffer (requestOffset file byteOffset)
    (regions.memory grown) keeps.sound (Nat.le_refl _) (by
      rw [size]
      exact Nat.le_max_right _ _)
  unfold ntWriteFile
  dsimp only
  rw [same, done]
  refine ⟨_, _, memory, chain', rfl, rfl, keeps.trans later, fun start => zero ?_⟩
  refine start.congr (fun address above => kept address (.inr above)) ?_
  intro cluster lower upper free
  have fits := regions.fatFits
  rw [← free]
  exact (fsReadFatEntry_frame disk grown cluster (by omega)
    (fun address front => kept address (.inl front))).symm

/-- The low byte of the first character is neither of the two free-slot marks. -/
def FirstCharOk (name : WideString) : Prop :=
  ∃ char, name.head? = some char ∧ UInt8.ofNat char.toNat ≠ 0 ∧ UInt8.ofNat char.toNat ≠ 0xE5

instance (name : WideString) : Decidable (FirstCharOk name) :=
  match shape : name.head? with
  | none => isFalse (by
      intro accepted
      obtain ⟨char, known, _⟩ := accepted
      rw [shape] at known
      cases known)
  | some char =>
      decidable_of_iff (UInt8.ofNat char.toNat ≠ 0 ∧ UInt8.ofNat char.toNat ≠ 0xE5) (by
        simp only [FirstCharOk, shape, Option.some.injEq]
        constructor
        · intro accepted
          exact ⟨char, rfl, accepted⟩
        · intro accepted
          obtain ⟨_, rfl, rest⟩ := accepted
          exact rest)

/-- Something is left of the part in front of the last dot once its length has
been stored in a `USHORT`. -/
def BaseKept (name : WideString) : Prop := (splitLastDot name).1.length % 2 ^ 16 ≠ 0

instance (name : WideString) : Decidable (BaseKept name) := inferInstanceAs (Decidable (_ ≠ _))

theorem splitLastDot_base_prefix (name : WideString) : (splitLastDot name).1 <+: name := by
  unfold splitLastDot
  split
  · have suffix : (name.reverse.dropWhile (· ≠ wideDot)).tail <:+ name.reverse :=
      (tail_suffix _).trans (dropWhile_suffix _)
    have flipped := reverse_prefix.mpr suffix
    rwa [reverse_reverse] at flipped
  · exact prefix_rfl

/-- Under these two conditions the stored name starts with the low byte of the
first character. -/
theorem storedName_head {name : WideString} (kept : BaseKept name) (first : FirstCharOk name) :
    ∃ byte rest, (wideBytes (copyPart (splitLastDot name).1 8)).take 8 = byte :: rest ∧
      byte ≠ 0 ∧ byte ≠ 0xE5 := by
  obtain ⟨char, head, notZero, notDeleted⟩ := first
  obtain ⟨rest, whole⟩ := splitLastDot_base_prefix name
  unfold BaseKept at kept
  unfold copyPart
  dsimp only
  generalize (splitLastDot name).1 = base at kept whole ⊢
  cases base with
  | nil => simp at kept
  | cons other base =>
    have same : other = char := by
      rw [← whole] at head
      simpa using head
    subst other
    have positive : 0 < min ((char :: base).length % 2 ^ 16) 8 := by omega
    obtain ⟨count, counted⟩ := Nat.exists_eq_succ_of_ne_zero (Nat.ne_of_gt positive)
    rw [counted, take_succ_cons, cons_append]
    simp only [wideBytes, flatMap_cons, encodeLE, cons_append, take_succ_cons]
    exact ⟨_, _, rfl, notZero, notDeleted⟩

/-- What a new directory entry holds. -/
theorem fillEntry_spec (disk : RamDisk) (slot : Nat) (name : WideString) (size : Nat) :
    ByteMemory.SameOutside disk.memory (fillEntry disk slot name size).memory
        (dirEntry disk slot) (dirEntry disk slot + dirEntrySize) ∧
      firstCluster (fillEntry disk slot name size) slot = 0 ∧
      fileSize (fillEntry disk slot name size) slot = size % 2 ^ 32 ∧
      ∀ byte rest, (wideBytes (copyPart (splitLastDot name).1 8)).take 8 = byte :: rest →
        firstNameByte (fillEntry disk slot name size) slot = byte := by
  have entrySize : dirEntrySize = 30 := rfl
  have nameLength : ((wideBytes (copyPart (splitLastDot name).1 8)).take 8).length ≤ 8 :=
    length_take_le _ _
  have extLength : ((wideBytes (copyPart (splitLastDot name).2 3)).take 3).length ≤ 3 :=
    length_take_le _ _
  unfold fillEntry
  dsimp only
  generalize (wideBytes (copyPart (splitLastDot name).1 8)).take 8 = nameBytes at nameLength ⊢
  generalize (wideBytes (copyPart (splitLastDot name).2 3)).take 3 = extBytes at extLength ⊢
  have first := write_sameOutside disk.memory (dirEntry disk slot) nameBytes
    (dirEntry disk slot) (dirEntry disk slot + 8) (by omega) (by omega)
  have second := write_sameOutside
    (disk.memory.write (dirEntry disk slot) nameBytes) (dirEntry disk slot + 8) extBytes
    (dirEntry disk slot + 8) (dirEntry disk slot + 30) (by omega) (by omega)
  have third := write_sameOutside
    ((disk.memory.write (dirEntry disk slot) nameBytes).write (dirEntry disk slot + 8) extBytes)
    (dirEntry disk slot + 11) [fat16AttrArchive] (dirEntry disk slot + 8)
    (dirEntry disk slot + 30) (by omega) (by simp)
  have fourth := store_sameOutside
    (((disk.memory.write (dirEntry disk slot) nameBytes).write (dirEntry disk slot + 8)
      extBytes).write (dirEntry disk slot + 11) [fat16AttrArchive]) 4 (dirEntry disk slot + 26)
    size (dirEntry disk slot + 8) (dirEntry disk slot + 30) (by omega) (by omega)
  have fifth := store_sameOutside
    ((((disk.memory.write (dirEntry disk slot) nameBytes).write (dirEntry disk slot + 8)
      extBytes).write (dirEntry disk slot + 11) [fat16AttrArchive]).store 4
        (dirEntry disk slot + 26) size) 2 (dirEntry disk slot + 24) 0 (dirEntry disk slot + 8)
    (dirEntry disk slot + 30) (by omega) (by omega)
  have fields := ((second.trans third).trans fourth).trans fifth
  refine ⟨?_, ?_, ?_, ?_⟩
  · rw [entrySize]
    exact (first.mono (Nat.le_refl _) (by omega)).trans (fields.mono (by omega) (Nat.le_refl _))
  · show load (store _ 2 (dirEntry disk slot + 24) 0) 2
      (dirEntry disk slot + 24) = 0
    rw [load_store_same, Nat.zero_mod]
  · show load (store _ 2 (dirEntry disk slot + 24) 0) 4
      (dirEntry disk slot + 26) = size % 2 ^ 32
    rw [load_store_disjoint _ _ _ _ _ _ (by omega), load_store_same,
      show 256 ^ 4 = 2 ^ 32 by decide]
  · intro byte rest shape
    have kept := fields (dirEntry disk slot) (by omega)
    refine Eq.trans kept ?_
    subst nameBytes
    rw [write_inside _ _ _ _ (Nat.le_refl _) (by simp), Nat.sub_self]
    rfl

theorem fsCreateFileEntry_some {disk after : RamDisk} {name : WideString} {size slot : Nat}
    (created : fsCreateFileEntry disk name size = some (slot, after)) :
    slot < rootEntryCount ∧ emptySlot disk slot = true ∧ after = fillEntry disk slot name size := by
  unfold fsCreateFileEntry at created
  rw [Option.map_eq_some_iff] at created
  obtain ⟨found, search, same⟩ := created
  cases same
  exact ⟨mem_range.mp (mem_of_find?_eq_some search), find?_some search, rfl⟩

end MinNT.Fs
