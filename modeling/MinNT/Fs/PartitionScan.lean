import MinNT.Lib.ByteMemory
import MinNT.NtStatus

namespace MinNT.Partition

open ByteMemory List

/-- Where the fields of `MBR` stand. -/
def offsetofPartitions : Nat := 0x1BE
def offsetofSignature : Nat := 510

/-- Where the fields of `PARTITION_TABLE_ENTRY` stand. -/
def sizeofPartitionTableEntry : Nat := 16
def offsetofSystemId : Nat := 4
def offsetofStartLba : Nat := 8
def offsetofNumSectors : Nat := 12

def mbrSignature : Nat := 0xAA55
def partTypeEmpty : Nat := 0x00
def partTypeFat32 : Nat := 0x0B
def partTypeFat32Lba : Nat := 0x0C
def partTypeNtfs : Nat := 0x07
def partTypeEfi : Nat := 0xEE
def partTypeExtended : Nat := 0x05
def partTypeExtLba : Nat := 0x0F

/-- Where the fields of `GPT_HEADER` stand. -/
def offsetofPartitionEntryLba : Nat := 72
def offsetofNumPartitionEntries : Nat := 80
def offsetofPartitionEntrySize : Nat := 84

/-- Where the fields of `GPT_ENTRY` stand. -/
def sizeofGptEntry : Nat := 128
def sizeofGuid : Nat := 16
def offsetofStartingLba : Nat := 32
def offsetofEndingLba : Nat := 40

/-- `"EFI PART"`. -/
def gptSignature : List UInt8 := [0x45, 0x46, 0x49, 0x20, 0x50, 0x41, 0x52, 0x54]

def gptTypeMicrosoftBasic : List UInt8 :=
  [0xA2, 0xA0, 0xD0, 0xEB, 0xE5, 0xB9, 0x33, 0x44, 0x87, 0xC0, 0x68, 0xB6, 0xB7, 0x26, 0x99, 0xC7]

/-- `"FAT32"`. -/
def fat32Mark : List UInt8 := [0x46, 0x41, 0x54, 0x33, 0x32]

/-- `"NTFS"`. -/
def ntfsMark : List UInt8 := [0x4E, 0x54, 0x46, 0x53]

def maxPartitions : Nat := 32

structure PartitionInfo where
  index : Nat
  systemId : Nat
  startLba : Nat
  numSectors : Nat
  mounted : Bool
  fstype : String
deriving DecidableEq, Repr

/-- What the scan asks others for: the disk, whose reads give the bytes of a number of sectors, the
pool, and the mounts, of which it takes the status. -/
structure ScanDevices where
  ahciIsPresent : Bool
  ahciReadSectors : Nat → Nat → Except NtStatus ByteMemory
  poolHas : Nat → Bool
  fat32MountPartition : Nat → NtStatus
  ntfsMountPartition : Nat → NtStatus

/-- `ExAllocatePool` finds a block, and never one of length 0. -/
def ScanDevices.Allocates (devices : ScanDevices) (bytes : Nat) : Prop :=
  bytes ≠ 0 ∧ devices.poolHas bytes = true

instance (devices : ScanDevices) (bytes : Nat) : Decidable (devices.Allocates bytes) :=
  inferInstanceAs (Decidable (_ ∧ _))

/-- What happened to the buffer of the GPT entries: its length, how many bytes the disk wrote into
it, and at which offsets entries were looked at. -/
structure EntryBuffer where
  length : Nat
  bytesRead : Nat
  lookedAt : List Nat

/-- The status, `g_Partitions`, and the buffer if it was filled. -/
structure Scan where
  status : NtStatus
  partitions : List PartitionInfo
  buffer : Option EntryBuffer

def Scan.failed (status : NtStatus) : Scan := ⟨status, [], none⟩

def Scan.complete (partitions : List PartitionInfo) (buffer : Option EntryBuffer) : Scan :=
  ⟨if partitions = [] then statusObjectNameNotFound else statusSuccess, partitions, buffer⟩

/-- The type of a partition by its boot sector, and whether it was mounted. -/
def gptIdentify (devices : ScanDevices) (typeGuid : List UInt8) (startLba : Nat) : String × Bool :=
  if typeGuid = gptTypeMicrosoftBasic then
    match devices.ahciReadSectors startLba 1 with
    | .error _ => ("", false)
    | .ok bs =>
        if bs.read 0x52 5 = fat32Mark ∨ bs.read 0x36 5 = fat32Mark then
          ("FAT32", ntSuccess (devices.fat32MountPartition startLba))
        else if bs.read 0x03 4 = ntfsMark then
          ("NTFS", ntSuccess (devices.ntfsMountPartition startLba))
        else ("?", false)
  else ("U", false)

/-- The type GUID of the entry is all zeros. -/
def EmptyEntry (entries : ByteMemory) (offset : Nat) : Prop :=
  entries.read offset sizeofGuid = replicate sizeofGuid 0

instance (entries : ByteMemory) (offset : Nat) : Decidable (EmptyEntry entries offset) :=
  inferInstanceAs (Decidable (_ = _))

/-- `e->starting_lba`. -/
def startingLba (entries : ByteMemory) (offset : Nat) : Nat :=
  load entries 8 (offset + offsetofStartingLba)

/-- `e->ending_lba - e->starting_lba + 1`. -/
def storedSectors (entries : ByteMemory) (offset : Nat) : Nat :=
  (load entries 8 (offset + offsetofEndingLba) + (2 ^ 64 - startingLba entries offset) + 1) % 2 ^ 64

def gptPartition (devices : ScanDevices) (entries : ByteMemory) (offset i : Nat) : PartitionInfo :=
  let startLba := startingLba entries offset
  let found := gptIdentify devices (entries.read offset sizeofGuid) startLba
  ⟨i, 0, startLba, storedSectors entries offset, found.2, found.1⟩

/-- The loop over the GPT entries, with `count` of them to go: `g_Partitions` and the offsets looked
at. -/
def gptEntries (devices : ScanDevices) (entries : ByteMemory) (entrySize : Nat) :
    Nat → Nat → List PartitionInfo → List PartitionInfo × List Nat
  | 0, _, found => (found, [])
  | count + 1, i, found =>
      let offset := i * entrySize
      if EmptyEntry entries offset then
        let rest := gptEntries devices entries entrySize count (i + 1) found
        (rest.1, offset :: rest.2)
      else
        let found := found ++ [gptPartition devices entries offset i]
        if maxPartitions ≤ found.length then (found, [offset])
        else
          let rest := gptEntries devices entries entrySize count (i + 1) found
          (rest.1, offset :: rest.2)

/-- `gpt->num_partition_entries`. -/
def numPartitionEntries (gpt : ByteMemory) : Nat := load gpt 4 offsetofNumPartitionEntries

/-- `gpt->partition_entry_size`. -/
def partitionEntrySize (gpt : ByteMemory) : Nat := load gpt 4 offsetofPartitionEntrySize

/-- `gpt->partition_entry_lba`. -/
def partitionEntryLba (gpt : ByteMemory) : Nat := load gpt 8 offsetofPartitionEntryLba

/-- `entry_size`, after the check. -/
def adjustedSize (gpt : ByteMemory) : Nat :=
  if partitionEntrySize gpt < sizeofGptEntry then sizeofGptEntry else partitionEntrySize gpt

def entriesSectors (gpt : ByteMemory) : Nat :=
  (numPartitionEntries gpt * adjustedSize gpt + 511) / 512

/-- The branch of `PartitionScan` for a disk with a protective partition. -/
def scanGpt (devices : ScanDevices) : Scan :=
  match devices.ahciReadSectors 1 1 with
  | .error s => .failed s
  | .ok gpt =>
      if gpt.read 0 8 ≠ gptSignature then .failed statusInvalidImageFormat
      else if numPartitionEntries gpt > 128 ∨ partitionEntrySize gpt = 0 ∨
          partitionEntrySize gpt > 256 then
        .failed statusInvalidImageFormat
      else if ¬ devices.Allocates (numPartitionEntries gpt * adjustedSize gpt) then
        .failed statusNoMemory
      else
        match devices.ahciReadSectors (partitionEntryLba gpt) (entriesSectors gpt) with
        | .error s => .failed s
        | .ok entries =>
            let found :=
              gptEntries devices entries (adjustedSize gpt) (numPartitionEntries gpt) 0 []
            .complete found.1 (some ⟨numPartitionEntries gpt * adjustedSize gpt,
              entriesSectors gpt * 512, found.2⟩)

/-- `mbr->partitions[i].system_id`. -/
def mbrSystemId (mbr : ByteMemory) (i : Nat) : Nat :=
  load mbr 1 (offsetofPartitions + i * sizeofPartitionTableEntry + offsetofSystemId)

/-- One of the entries is a GPT protective partition. -/
def Protective (mbr : ByteMemory) : Prop := ∃ i ∈ range 4, mbrSystemId mbr i = partTypeEfi

instance (mbr : ByteMemory) : Decidable (Protective mbr) :=
  inferInstanceAs (Decidable (∃ _ ∈ _, _ = _))

/-- The type of a legacy partition, and whether it was mounted. -/
def mbrIdentify (devices : ScanDevices) (systemId startLba : Nat) : String × Bool :=
  if systemId = partTypeFat32 ∨ systemId = partTypeFat32Lba then
    ("FAT32", ntSuccess (devices.fat32MountPartition startLba))
  else if systemId = partTypeNtfs then
    ("NTFS", ntSuccess (devices.ntfsMountPartition startLba))
  else if systemId = partTypeExtended ∨ systemId = partTypeExtLba then ("EXTENDED", false)
  else ("UNKNOWN", false)

/-- An entry of the legacy partition table. -/
def mbrPartition (devices : ScanDevices) (mbr : ByteMemory) (i : Nat) : PartitionInfo :=
  let offset := offsetofPartitions + i * sizeofPartitionTableEntry
  let startLba := load mbr 4 (offset + offsetofStartLba)
  let found := mbrIdentify devices (mbrSystemId mbr i) startLba
  ⟨i, mbrSystemId mbr i, startLba, load mbr 4 (offset + offsetofNumSectors), found.2, found.1⟩

/-- The branch of `PartitionScan` for a legacy partition table; its four entries never come to
`MAX_PARTITIONS`. -/
def scanMbr (devices : ScanDevices) (mbr : ByteMemory) : Scan :=
  .complete (((range 4).filter fun i => mbrSystemId mbr i ≠ partTypeEmpty).map
    (mbrPartition devices mbr)) none

def partitionScan (devices : ScanDevices) : Scan :=
  if ¬ devices.ahciIsPresent then .failed statusDeviceDoesNotExist
  else
    match devices.ahciReadSectors 0 1 with
    | .error s => .failed s
    | .ok mbr =>
        if load mbr 2 offsetofSignature ≠ mbrSignature then .failed statusInvalidImageFormat
        else if Protective mbr then scanGpt devices
        else scanMbr devices mbr

/-- The entries that are not empty among the first `count`, where they lie `stride` bytes apart. -/
def nonEmptyEntries (array : ByteMemory) (stride count : Nat) : List Nat :=
  (range count).filter fun i => ¬ EmptyEntry array (i * stride)

/-- The first `MAX_PARTITIONS` of them, each with its starting sector and its length. -/
def listedEntries (array : ByteMemory) (stride count : Nat) : List (Nat × Nat × Nat) :=
  ((nonEmptyEntries array stride count).take maxPartitions).map fun i =>
    (i, startingLba array (i * stride), storedSectors array (i * stride))

/-- What the scan owes: the read stays in the buffer, only entries of the array are looked at, and
`g_Partitions` lists the entries that the array holds. -/
structure GptKept (gpt array : ByteMemory) (scan : Scan) : Prop where
  inside : ∀ buffer ∈ scan.buffer, buffer.bytesRead ≤ buffer.length
  inArray : ∀ buffer ∈ scan.buffer, ∀ offset ∈ buffer.lookedAt,
    offset < numPartitionEntries gpt * partitionEntrySize gpt
  listed : scan.partitions.map (fun p => (p.index, p.startLba, p.numSectors)) =
    listedEntries array (partitionEntrySize gpt) (numPartitionEntries gpt)

/-- The disk holds a GPT that the scan accepts, with this header and this array of entries, and no
read of them fails. -/
structure GptAccepted (devices : ScanDevices) (gpt array : ByteMemory) : Prop where
  present : devices.ahciIsPresent = true
  protective : ∃ mbr, devices.ahciReadSectors 0 1 = .ok mbr ∧
    load mbr 2 offsetofSignature = mbrSignature ∧ Protective mbr
  header : devices.ahciReadSectors 1 1 = .ok gpt
  signed : gpt.read 0 8 = gptSignature
  count : numPartitionEntries gpt ≤ 128
  size : 0 < partitionEntrySize gpt ∧ partitionEntrySize gpt ≤ 256
  memory : 0 < numPartitionEntries gpt →
    devices.poolHas (numPartitionEntries gpt * adjustedSize gpt) = true
  entries : ∃ entries, devices.ahciReadSectors (partitionEntryLba gpt) (entriesSectors gpt) =
    .ok entries ∧ ∀ i < entriesSectors gpt * 512, entries i = array i

/-- Two places of the array hold the same entry: none, or one with the same sectors. -/
structure SameEntry (array : ByteMemory) (first second : Nat) : Prop where
  empty : EmptyEntry array first ↔ EmptyEntry array second
  sectors : ¬ EmptyEntry array first → startingLba array first = startingLba array second ∧
    storedSectors array first = storedSectors array second

/-- The array, read 128 bytes apart although its entries are not: up to the last one that is looked
at, an entry is taken from inside the array and is the one that it is taken for. -/
structure MisreadHarmless (gpt array : ByteMemory) : Prop where
  inArray : ∀ i < numPartitionEntries gpt,
    (nonEmptyEntries array sizeofGptEntry i).length < maxPartitions →
      i * sizeofGptEntry < numPartitionEntries gpt * partitionEntrySize gpt
  same : ∀ i < numPartitionEntries gpt,
    (nonEmptyEntries array sizeofGptEntry i).length < maxPartitions →
      SameEntry array (i * sizeofGptEntry) (i * partitionEntrySize gpt)

section Entries

variable {devices : ScanDevices} {entries array : ByteMemory} {stride : Nat}

theorem length_filter_range' {p : Nat → Prop} [DecidablePred p] {i j : Nat} (after : i < j) :
    ((List.range' i (j - i)).filter fun k => p k).length =
      (if p i then 1 else 0) +
        ((List.range' (i + 1) (j - (i + 1))).filter fun k => p k).length := by
  have parts : j - i = (j - (i + 1)) + 1 := by omega
  rw [parts, List.range'_succ]
  by_cases here : p i
  · rw [if_pos here, filter_cons_of_pos (by simpa using here), length_cons, Nat.add_comm]
  · rw [if_neg here, filter_cons_of_neg (by simpa using here), Nat.zero_add]

/-- The first few numbers with a property, each with a value, are the same by two properties
exactly if the properties and the values agree as far as numbers are taken. -/
theorem taken_eq_iff {β : Type} {p q : Nat → Prop} [DecidablePred p] [DecidablePred q]
    {f g : Nat → β} (count : Nat) : ∀ i limit,
      (((List.range' i count).filter fun k => p k).take limit).map (fun k => (k, f k)) =
          (((List.range' i count).filter fun k => q k).take limit).map (fun k => (k, g k)) ↔
        ∀ j, i ≤ j → j < i + count →
          ((List.range' i (j - i)).filter fun k => p k).length < limit →
            (p j ↔ q j) ∧ (p j → f j = g j) := by
  induction count with
  | zero =>
    intro i limit
    simp only [List.range'_zero, filter_nil, take_nil, map_nil, true_iff]
    intro j lower upper
    omega
  | succ count ih =>
    intro i limit
    cases limit with
    | zero => exact iff_of_true rfl fun _ _ _ few => absurd few (Nat.not_lt_zero _)
    | succ limit =>
      have split : (∀ j, i ≤ j → j < i + (count + 1) →
            ((List.range' i (j - i)).filter fun k => p k).length < limit + 1 →
              (p j ↔ q j) ∧ (p j → f j = g j)) ↔
          ((p i ↔ q i) ∧ (p i → f i = g i)) ∧ ∀ j, i + 1 ≤ j → j < i + 1 + count →
            (if p i then 1 else 0) +
                ((List.range' (i + 1) (j - (i + 1))).filter fun k => p k).length < limit + 1 →
              (p j ↔ q j) ∧ (p j → f j = g j) := by
        constructor
        · intro all
          refine ⟨all i (Nat.le_refl i) (by omega) (by simp), fun j lower upper few => ?_⟩
          rw [← length_filter_range' lower] at few
          exact all j (Nat.le_of_succ_le lower) (by omega) few
        · rintro ⟨here, later⟩ j lower upper few
          rcases Nat.eq_or_lt_of_le lower with rfl | after
          · exact here
          · rw [length_filter_range' after] at few
            exact later j after (by omega) few
      have behind : ∀ {r : Nat → Prop} [DecidablePred r] {h : Nat → β} {value : β},
          (i, value) ∉ (((List.range' (i + 1) count).filter fun k => r k).take (limit + 1)).map
            (fun k => (k, h k)) := by
        intro r _ h value member
        obtain ⟨k, taken, same⟩ := List.mem_map.mp member
        have later := (mem_filter.mp (mem_of_mem_take taken)).1
        rw [(Prod.mk.inj same).1, mem_range'_1] at later
        omega
      rw [split, List.range'_succ]
      by_cases left : p i
      · rw [filter_cons_of_pos (by simpa using left), take_succ_cons, map_cons]
        by_cases right : q i
        · rw [filter_cons_of_pos (by simpa using right), take_succ_cons, map_cons,
            List.cons.injEq, ih (i + 1) limit, Prod.mk.injEq, eq_self_iff_true, true_and]
          simp only [left, right, true_and, true_imp_iff, if_true, Nat.add_comm 1,
            Nat.add_lt_add_iff_right]
        · rw [filter_cons_of_neg (by simpa using right)]
          refine iff_of_false (fun same => ?_) fun all => right (all.1.1.mp left)
          exact behind (same ▸ mem_cons_self)
      · rw [filter_cons_of_neg (by simpa using left)]
        by_cases right : q i
        · rw [filter_cons_of_pos (by simpa using right), take_succ_cons, map_cons]
          refine iff_of_false (fun same => ?_) fun all => left (all.1.1.mpr right)
          exact behind (same ▸ mem_cons_self)
        · rw [filter_cons_of_neg (by simpa using right), ih (i + 1) (limit + 1)]
          simp only [left, right, true_and, false_imp_iff, if_false, Nat.zero_add]

/-- Two strides list the same entries if those that are taken are the same. -/
theorem listedEntries_eq_iff {first second count : Nat} :
    listedEntries array first count = listedEntries array second count ↔
      ∀ i < count, (nonEmptyEntries array first i).length < maxPartitions →
        SameEntry array (i * first) (i * second) := by
  unfold listedEntries nonEmptyEntries
  rw [range_eq_range', taken_eq_iff count 0 maxPartitions]
  simp only [Nat.zero_le, true_imp_iff, Nat.zero_add, Nat.sub_zero, ← range_eq_range',
    Prod.mk.injEq]
  apply forall₃_congr
  intro i _ _
  constructor
  · rintro ⟨empty, sectors⟩
    exact ⟨not_iff_not.mp empty, sectors⟩
  · rintro ⟨empty, sectors⟩
    exact ⟨not_congr empty, sectors⟩

/-- How many entries from `i` on the loop lists before it comes to `j`. -/
def listedBefore (entries : ByteMemory) (stride i j : Nat) : List Nat :=
  (List.range' i (j - i)).filter fun k => ¬ EmptyEntry entries (k * stride)

theorem gptEntries_found (count : Nat) {i : Nat} {found : List PartitionInfo}
    (room : found.length < maxPartitions) :
    (gptEntries devices entries stride count i found).1 =
      found ++ (((List.range' i count).filter fun k => ¬ EmptyEntry entries (k * stride)).take
        (maxPartitions - found.length)).map
          fun k => gptPartition devices entries (k * stride) k := by
  induction count generalizing i found with
  | zero => simp [gptEntries]
  | succ count ih =>
    rw [gptEntries, List.range'_succ]
    dsimp only
    by_cases empty : EmptyEntry entries (i * stride)
    · rw [if_pos empty, filter_cons_of_neg (by simpa using empty)]
      exact ih room
    rw [if_neg empty, filter_cons_of_pos (by simpa using empty)]
    have next : maxPartitions - found.length = (maxPartitions - (found.length + 1)) + 1 := by
      omega
    rw [next, take_succ_cons, map_cons, length_append, length_singleton]
    by_cases full : maxPartitions ≤ found.length + 1
    · rw [if_pos full, Nat.sub_eq_zero_of_le full, take_zero, map_nil]
    · rw [if_neg full]
      rw [@ih (i + 1) (found ++ [gptPartition devices entries (i * stride) i])
        (by rw [length_append, length_singleton]; omega)]
      rw [append_assoc, length_append, length_singleton, singleton_append]

/-- The loop looks at every entry until the list is full. -/
theorem mem_gptEntries_lookedAt (count : Nat) {i offset : Nat} {found : List PartitionInfo}
    (room : found.length < maxPartitions) :
    offset ∈ (gptEntries devices entries stride count i found).2 ↔
      ∃ j, i ≤ j ∧ j < i + count ∧ offset = j * stride ∧
        found.length + (listedBefore entries stride i j).length < maxPartitions := by
  induction count generalizing i found with
  | zero =>
    simp only [gptEntries, not_mem_nil, false_iff, not_exists]
    rintro j ⟨lower, upper, _⟩
    omega
  | succ count ih =>
    have here : listedBefore entries stride i i = [] := by simp [listedBefore]
    have later : ∀ j, i < j → (listedBefore entries stride i j).length =
        (if EmptyEntry entries (i * stride) then 0 else 1) +
          (listedBefore entries stride (i + 1) j).length := by
      intro j after
      rw [listedBefore, length_filter_range' after, ite_not]
      rfl
    have split : (∃ j, i ≤ j ∧ j < i + (count + 1) ∧ offset = j * stride ∧
          found.length + (listedBefore entries stride i j).length < maxPartitions) ↔
        offset = i * stride ∨ ∃ j, i + 1 ≤ j ∧ j < i + 1 + count ∧ offset = j * stride ∧
          found.length + (if EmptyEntry entries (i * stride) then 0 else 1) +
            (listedBefore entries stride (i + 1) j).length < maxPartitions := by
      constructor
      · rintro ⟨j, lower, upper, place, few⟩
        rcases Nat.eq_or_lt_of_le lower with rfl | after
        · exact .inl place
        · rw [later j after] at few
          exact .inr ⟨j, after, by omega, place, by omega⟩
      · rintro (place | ⟨j, lower, upper, place, few⟩)
        · exact ⟨i, Nat.le_refl i, by omega, place, by rw [here]; exact room⟩
        · exact ⟨j, by omega, by omega, place, by rw [later j lower]; omega⟩
    rw [split, gptEntries]
    dsimp only
    by_cases empty : EmptyEntry entries (i * stride)
    · rw [if_pos empty, mem_cons, ih room]
      simp only [if_pos empty, Nat.add_zero]
    rw [if_neg empty, if_neg empty]
    by_cases full : maxPartitions ≤ (found ++ [gptPartition devices entries (i * stride) i]).length
    · rw [if_pos full, mem_singleton]
      rw [length_append, length_singleton] at full
      constructor
      · exact .inl
      · rintro (place | ⟨j, _, _, _, few⟩)
        · exact place
        · omega
    · rw [if_neg full, mem_cons, ih (by omega)]
      simp only [length_append, length_singleton]

/-- The listed entries depend on the array alone. -/
theorem listedEntries_congr {count bytes : Nat} (inside : count * stride ≤ bytes)
    (wide : sizeofGptEntry ≤ stride) (same : ∀ i < bytes, entries i = array i) :
    listedEntries entries stride count = listedEntries array stride count ∧
      ∀ i < count, (EmptyEntry entries (i * stride) ↔ EmptyEntry array (i * stride)) := by
  have entry : ∀ i < count, i * stride + sizeofGptEntry ≤ bytes := by
    intro i before
    have next : (i + 1) * stride ≤ count * stride := Nat.mul_le_mul_right _ before
    rw [Nat.succ_mul] at next
    omega
  have empty : ∀ i < count, (EmptyEntry entries (i * stride) ↔ EmptyEntry array (i * stride)) := by
    intro i before
    have limit := entry i before
    have bytes : entries.read (i * stride) sizeofGuid = array.read (i * stride) sizeofGuid := by
      apply read_congr
      intro k lower upper
      apply same
      unfold sizeofGuid sizeofGptEntry at *
      omega
    rw [EmptyEntry, EmptyEntry, bytes]
  refine ⟨?_, empty⟩
  have filtered : nonEmptyEntries entries stride count = nonEmptyEntries array stride count := by
    apply filter_congr
    intro i member
    rw [decide_eq_decide, empty i (mem_range.mp member)]
  rw [listedEntries, listedEntries, filtered]
  apply map_congr_left
  intro i member
  have before : i < count := by
    have listed := mem_of_mem_take member
    exact mem_range.mp (mem_filter.mp listed).1
  have limit := entry i before
  have word : ∀ field, field + 8 ≤ sizeofGptEntry →
      load entries 8 (i * stride + field) = load array 8 (i * stride + field) := by
    intro field room
    apply load_congr
    intro k lower upper
    apply same
    omega
  rw [storedSectors, storedSectors, startingLba, startingLba, word _ (by decide),
    word _ (by decide)]

end Entries

section Gpt

variable {devices : ScanDevices} {gpt array entries : ByteMemory}

theorem partitionScan_none (accepted : GptAccepted devices gpt array)
    (none : numPartitionEntries gpt = 0) : partitionScan devices = .failed statusNoMemory := by
  obtain ⟨mbr, read, signature, protective⟩ := accepted.protective
  have size : ¬ (numPartitionEntries gpt > 128 ∨ partitionEntrySize gpt = 0 ∨
      partitionEntrySize gpt > 256) := by
    have size := accepted.size
    omega
  have refused : ¬ devices.Allocates (numPartitionEntries gpt * adjustedSize gpt) := by
    rintro ⟨nonzero, _⟩
    rw [none, Nat.zero_mul] at nonzero
    exact nonzero rfl
  unfold partitionScan
  rw [if_neg (not_not.mpr accepted.present), read]
  dsimp only
  rw [if_neg (not_not.mpr signature), if_pos protective]
  unfold scanGpt
  rw [accepted.header]
  dsimp only
  rw [if_neg (not_not.mpr accepted.signed), if_neg size, if_pos refused]

theorem adjustedSize_pos (gpt : ByteMemory) : 0 < adjustedSize gpt := by
  unfold adjustedSize sizeofGptEntry
  split <;> omega

theorem partitionScan_some (accepted : GptAccepted devices gpt array)
    (some : 0 < numPartitionEntries gpt) :
    ∃ entries, (∀ i < entriesSectors gpt * 512, entries i = array i) ∧
      partitionScan devices = .complete
        (gptEntries devices entries (adjustedSize gpt) (numPartitionEntries gpt) 0 []).1
        (.some ⟨numPartitionEntries gpt * adjustedSize gpt, entriesSectors gpt * 512,
          (gptEntries devices entries (adjustedSize gpt) (numPartitionEntries gpt) 0 []).2⟩) := by
  obtain ⟨mbr, read, signature, protective⟩ := accepted.protective
  obtain ⟨entries, filled, same⟩ := accepted.entries
  have size : ¬ (numPartitionEntries gpt > 128 ∨ partitionEntrySize gpt = 0 ∨
      partitionEntrySize gpt > 256) := by
    have count := accepted.count
    have size := accepted.size
    omega
  have granted : devices.Allocates (numPartitionEntries gpt * adjustedSize gpt) :=
    ⟨Nat.ne_of_gt (Nat.mul_pos some (adjustedSize_pos gpt)), accepted.memory some⟩
  refine ⟨entries, same, ?_⟩
  unfold partitionScan
  rw [if_neg (not_not.mpr accepted.present), read]
  dsimp only
  rw [if_neg (not_not.mpr signature), if_pos protective]
  unfold scanGpt
  rw [accepted.header]
  dsimp only
  rw [if_neg (not_not.mpr accepted.signed), if_neg size, if_neg (not_not.mpr granted), filled]

theorem gptEntries_array (same : ∀ i < entriesSectors gpt * 512, entries i = array i) :
    ((gptEntries devices entries (adjustedSize gpt) (numPartitionEntries gpt) 0 []).1.map
        fun p => (p.index, p.startLba, p.numSectors)) =
      listedEntries array (adjustedSize gpt) (numPartitionEntries gpt) ∧
    ∀ offset, offset ∈
        (gptEntries devices entries (adjustedSize gpt) (numPartitionEntries gpt) 0 []).2 ↔
      ∃ i < numPartitionEntries gpt, offset = i * adjustedSize gpt ∧
        (nonEmptyEntries array (adjustedSize gpt) i).length < maxPartitions := by
  have wide : sizeofGptEntry ≤ adjustedSize gpt := by
    unfold adjustedSize
    split <;> omega
  have inside : numPartitionEntries gpt * adjustedSize gpt ≤ entriesSectors gpt * 512 := by
    unfold entriesSectors
    omega
  have bytes := listedEntries_congr inside wide same
  have room : ([] : List PartitionInfo).length < maxPartitions := by decide
  constructor
  · rw [gptEntries_found _ room, ← bytes.1, listedEntries, nonEmptyEntries, range_eq_range',
      nil_append, map_map]
    rfl
  · intro offset
    rw [mem_gptEntries_lookedAt _ room]
    have before : ∀ i < numPartitionEntries gpt, listedBefore entries (adjustedSize gpt) 0 i =
        nonEmptyEntries array (adjustedSize gpt) i := by
      intro i few
      rw [listedBefore, nonEmptyEntries, Nat.sub_zero, ← range_eq_range']
      apply filter_congr
      intro k member
      rw [decide_eq_decide, bytes.2 k (Nat.lt_trans (mem_range.mp member) few)]
    constructor
    · rintro ⟨i, _, few, place, listed⟩
      rw [Nat.zero_add] at few
      rw [before i few, length_nil, Nat.zero_add] at listed
      exact ⟨i, few, place, listed⟩
    · rintro ⟨i, few, place, listed⟩
      refine ⟨i, Nat.zero_le i, by omega, place, ?_⟩
      rw [before i few, length_nil, Nat.zero_add]
      exact listed

/-- A full scan does its part if whole sectors fill the buffer and the entries it takes are those of
the array. -/
theorem gptKept_some (accepted : GptAccepted devices gpt array)
    (some : 0 < numPartitionEntries gpt) :
    GptKept gpt array (partitionScan devices) ↔
      numPartitionEntries gpt * adjustedSize gpt % 512 = 0 ∧
        (∀ i < numPartitionEntries gpt,
          (nonEmptyEntries array (adjustedSize gpt) i).length < maxPartitions →
            i * adjustedSize gpt < numPartitionEntries gpt * partitionEntrySize gpt) ∧
        listedEntries array (adjustedSize gpt) (numPartitionEntries gpt) =
          listedEntries array (partitionEntrySize gpt) (numPartitionEntries gpt) := by
  obtain ⟨entries, same, scan⟩ := partitionScan_some accepted some
  obtain ⟨listed, lookedAt⟩ := @gptEntries_array devices gpt array entries same
  have whole : entriesSectors gpt * 512 ≤ numPartitionEntries gpt * adjustedSize gpt ↔
      numPartitionEntries gpt * adjustedSize gpt % 512 = 0 := by
    unfold entriesSectors
    omega
  rw [scan, ← whole, ← listed]
  constructor
  · intro kept
    refine ⟨kept.inside _ rfl, ?_, kept.listed⟩
    intro i few room
    exact kept.inArray _ rfl _ ((lookedAt _).mpr ⟨i, few, rfl, room⟩)
  · rintro ⟨inside, inArray, sameList⟩
    constructor
    · rintro buffer ⟨⟩
      exact inside
    · rintro buffer ⟨⟩ offset member
      obtain ⟨i, few, rfl, room⟩ := (lookedAt offset).mp member
      exact inArray i few room
    · exact sameList

end Gpt

def protectiveMbr : ByteMemory := fun offset =>
  if offset = 0x1C2 then 0xEE else if offset = 510 then 0x55 else if offset = 511 then 0xAA else 0

/-- A header for `count` entries of `size` bytes from sector 2 on. -/
def headerOf (count size : UInt8) : ByteMemory := fun offset =>
  if offset < 8 then gptSignature.getD offset 0
  else if offset = 72 then 2 else if offset = 80 then count else if offset = 84 then size else 0

/-- Of the entries the second, in steps of 128 bytes, is not empty. -/
def secondEntry : ByteMemory := fun offset => if offset = 128 then 1 else 0

def gptDisk (count size : UInt8) : ScanDevices where
  ahciIsPresent := true
  ahciReadSectors lba _ :=
    .ok (if lba = 0 then protectiveMbr else if lba = 1 then headerOf count size else secondEntry)
  poolHas _ := true
  fat32MountPartition _ := statusInvalidImageFormat
  ntfsMountPartition _ := statusInvalidImageFormat

theorem gptDisk_accepted {count size : UInt8}
    (header : numPartitionEntries (headerOf count size) = count.toNat ∧
      partitionEntrySize (headerOf count size) = size.toNat ∧
      (headerOf count size).read 0 8 = gptSignature ∧
      partitionEntryLba (headerOf count size) = 2) (few : count.toNat ≤ 128)
    (some : 0 < size.toNat) :
    GptAccepted (gptDisk count size) (headerOf count size) secondEntry where
  present := rfl
  protective := ⟨protectiveMbr, rfl, by decide, by decide⟩
  header := rfl
  signed := header.2.2.1
  count := by
    rw [header.1]
    exact few
  size := by
    have small := size.toNat_lt
    rw [header.2.1]
    omega
  memory := fun _ => rfl
  entries := by
    refine ⟨secondEntry, ?_, fun _ _ => rfl⟩
    rw [header.2.2.2]
    rfl

/-- When the scan of a GPT does its part: the array is whole sectors, counted with entries of at
least 128 bytes, and either the entries have that size or the misreading of them does no harm. -/
theorem partitionScan_kept_iff (devices : ScanDevices) (gpt array : ByteMemory)
    (accepted : GptAccepted devices gpt array) :
    GptKept gpt array (partitionScan devices) ↔
      numPartitionEntries gpt = 0 ∨
        numPartitionEntries gpt * adjustedSize gpt % 512 = 0 ∧
          (sizeofGptEntry ≤ partitionEntrySize gpt ∨ MisreadHarmless gpt array) := by
  by_cases none : numPartitionEntries gpt = 0
  · refine iff_of_true ?_ (.inl none)
    rw [partitionScan_none accepted none]
    constructor
    · rintro buffer ⟨⟩
    · rintro buffer ⟨⟩
    · show [] = listedEntries array _ _
      rw [none]
      rfl
  · rw [gptKept_some accepted (Nat.pos_of_ne_zero none), or_iff_right none]
    apply and_congr_right
    intro _
    by_cases wide : sizeofGptEntry ≤ partitionEntrySize gpt
    · have size : adjustedSize gpt = partitionEntrySize gpt := if_neg (Nat.not_lt.mpr wide)
      refine iff_of_true ⟨?_, by rw [size]⟩ (.inl wide)
      intro i few _
      rw [size]
      exact Nat.mul_lt_mul_of_pos_right few accepted.size.1
    · have size : adjustedSize gpt = sizeofGptEntry := if_pos (Nat.not_le.mp wide)
      rw [or_iff_right wide, size, listedEntries_eq_iff]
      exact ⟨fun both => ⟨both.1, both.2⟩, fun harmless => ⟨harmless.inArray, harmless.same⟩⟩

/-- Four entries of 128 bytes fill a sector. -/
theorem partitionScan_kept_iff_four :
    GptKept (headerOf 4 128) secondEntry (partitionScan (gptDisk 4 128)) :=
  (partitionScan_kept_iff (gptDisk 4 128) (headerOf 4 128) secondEntry
    (gptDisk_accepted (by decide) (by decide) (by decide))).mpr (.inr ⟨by decide, .inl (by decide)⟩)

/-- Two entries are read into a buffer of 256 bytes, as a sector of 512. -/
theorem partitionScan_two :
    GptAccepted (gptDisk 2 128) (headerOf 2 128) secondEntry ∧
      ¬ GptKept (headerOf 2 128) secondEntry (partitionScan (gptDisk 2 128)) := by
  have accepted : GptAccepted (gptDisk 2 128) (headerOf 2 128) secondEntry :=
    gptDisk_accepted (by decide) (by decide) (by decide)
  refine ⟨accepted, ?_⟩
  rw [gptKept_some accepted (by decide)]
  rintro ⟨whole, _⟩
  exact absurd whole (by decide)

end MinNT.Partition
