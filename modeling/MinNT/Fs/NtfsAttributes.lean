import MinNT.Fs.NtfsReadFile
import MinNT.Lib.FuelLoop
import MinNT.Lib.Traced

/-! The attributes of an MFT record: `NtfsFindAttribute`, and what `NtfsReadFile` and
`NtfsGetFileName` read of the record for an attribute that it found. The record is a memory of
its own, and a trace says which of its bytes are read. -/

namespace MinNT.Ntfs

open List Traced ByteMemory FuelLoop

def attrFileName : Nat := 0x30
def attrData : Nat := 0x80
def attrEnd : Nat := 0xFFFFFFFF

/-- Bytes of the record that are read. -/
structure RecordRead where
  offset : Nat
  size : Nat
deriving DecidableEq, Repr

/-- The bytes lie in a record of a size. -/
def RecordRead.Inside (recordSize : Nat) (read : RecordRead) : Prop :=
  read.size = 0 ∨ read.offset + read.size ≤ recordSize

/-- `NTFS_ATTR_HEADER`, a packed structure of 24 bytes. -/
structure AttrHeader where
  type : Nat
  length : Nat
  nonResident : Nat
  nameLength : Nat
  nameOffset : Nat
  flags : Nat
  attrId : Nat
  valueLength : Nat
  valueOffset : Nat
  flags2 : Nat
deriving DecidableEq, Repr

def sizeofAttrHeader : Nat := 24

def attrHeader (record : ByteMemory) (offset : Nat) : AttrHeader where
  type := load record 4 offset
  length := load record 4 (offset + 4)
  nonResident := load record 1 (offset + 8)
  nameLength := load record 1 (offset + 9)
  nameOffset := load record 2 (offset + 10)
  flags := load record 2 (offset + 12)
  attrId := load record 2 (offset + 14)
  valueLength := load record 4 (offset + 16)
  valueOffset := load record 2 (offset + 20)
  flags2 := load record 2 (offset + 22)

/-- What `NtfsFindAttribute` returns and stores. -/
structure Attribute where
  offset : Nat
  hdr : AttrHeader
  valueOffset : Nat
  valueLength : Nat
deriving DecidableEq, Repr

/-- The attribute whose header is at an offset. The sums are of 32 bits. -/
def attributeAt (record : ByteMemory) (offset : Nat) : Attribute :=
  let hdr := attrHeader record offset
  { offset, hdr
    valueOffset :=
      if hdr.nonResident = 0 then (offset + hdr.valueOffset) % 2 ^ 32
      else (offset + 0x40) % 2 ^ 32
    valueLength := if hdr.nonResident = 0 then hdr.valueLength else hdr.length }

/-- The loop of `NtfsFindAttribute`. -/
def findAttributeFrom (record : ByteMemory) (recordSize attrType : Nat) :
    Nat → Nat → Option (Option Attribute)
  | 0, _ => none
  | fuel + 1, offset =>
      if offset + sizeofAttrHeader ≤ recordSize then
        let hdr := attrHeader record offset
        if hdr.type = attrEnd ∨ hdr.length = 0 then some none
        else if hdr.type = attrType then some (some (attributeAt record offset))
        else findAttributeFrom record recordSize attrType fuel ((offset + hdr.length) % 2 ^ 32)
      else some none

/-- More turns than there are offsets. -/
@[irreducible] def attributeSteps : Nat := 2 ^ 32 + 2

/-- `first_attr_offset` of the record header. -/
def firstAttrOffset (record : ByteMemory) : Nat := load record 2 20

/-- `NtfsFindAttribute`; the outer `none` is a call that does not return. -/
def ntfsFindAttribute (record : ByteMemory) (recordSize attrType : Nat) :
    Option (Option Attribute) :=
  findAttributeFrom record recordSize attrType attributeSteps (firstAttrOffset record)

def readRecord (record : ByteMemory) (offset width : Nat) : Traced RecordRead Nat :=
  touch ⟨offset, width⟩ (load record width offset)

/-- `name_len_chars` of `NtfsGetFileName`; the difference is one of 32 bits. -/
def nameLenChars (nameLength maxLen : Nat) : Nat :=
  if nameLength ≥ maxLen then (maxLen + 2 ^ 32 - 1) % 2 ^ 32 else nameLength

/-- The loop of `NtfsGetFileName`: the characters it stores in `out_name`. -/
def readName (record : ByteMemory) (name count : Nat) : Traced RecordRead (List Nat) :=
  (range count).foldlM (fun outName i => do
    let c ← readRecord record (name + 2 * i) 2
    pure (outName ++ [if c < 128 then c else 0x3F])) []

/-- `NtfsGetFileName` once it has its attribute. -/
def getFileNameOf (record : ByteMemory) (attr : Attribute) (maxLen : Nat) :
    Traced RecordRead (Except NtStatus (List Nat)) :=
  if attr.hdr.nonResident ≠ 0 then pure (.error statusInvalidImageFormat)
  else do
    let nameLength ← readRecord record (attr.valueOffset + 64) 1
    let outName ← readName record (attr.valueOffset + 66) (nameLenChars nameLength maxLen)
    pure (.ok outName)

/-- What `NtfsDecodeDataRun` reads at `p`: the header, and the two fields if it accepts it. -/
def decodeReads (memory : ByteMemory) (p : Nat) : List RecordRead :=
  match ntfsDecodeDataRun memory p with
  | none => [⟨p, 1⟩]
  | some (_, next) => [⟨p, 1⟩, ⟨p + 1, next - (p + 1)⟩]

def decodeDataRun (memory : ByteMemory) (p : Nat) : Traced RecordRead (Option (DataRun × Nat)) :=
  ⟨decodeReads memory p, ntfsDecodeDataRun memory p⟩

/-- The loop of `NtfsReadFile` with its trace. A loop that runs out of fuel returns nothing. -/
def readRunsOf (machine : Machine) (mount : NtfsMount) (bufsize : Nat) :
    Nat → ByteMemory → Nat → Nat → List UInt8 →
      Traced RecordRead (Option (Except NtStatus (List UInt8)))
  | 0, _, _, _, _ => pure none
  | fuel + 1, record, runs, prevLcn, copied =>
      if ¬ copied.length < bufsize then pure (some (.ok copied))
      else do
        match ← decodeDataRun record runs with
        | none => pure (some (.ok copied))
        | some (run, next) =>
            let prevLcn := if prevLcn = 0 then run.lcn else (prevLcn + run.lcn) % 2 ^ 64
            let runBytes := run.length * mount.bytesPerCluster % 2 ^ 64
            let toRead := min (bufsize - copied.length) runBytes
            let lba := (mount.partitionStart +
              prevLcn * mount.bytesPerCluster % 2 ^ 64 / mount.bytesPerSector) % 2 ^ 64
            let numSectors :=
              (toRead + mount.bytesPerSector - 1) % 2 ^ 32 / mount.bytesPerSector
            if ¬ exAllocatePool machine (numSectors * mount.bytesPerSector % 2 ^ 32) then
              pure (some (.error statusNoMemory))
            else
              match ntfsReadSectors machine lba numSectors with
              | .error status => pure (some (.error status))
              | .ok clusterBuf =>
                  readRunsOf machine mount bufsize fuel record next
                    ((prevLcn + run.length) % 2 ^ 64) (copied ++ clusterBuf.read 0 toRead)

/-- `NtfsReadFile` once it has its attribute: what it copies to the buffer. -/
def readFileOf (machine : Machine) (mount : NtfsMount) (fuel : Nat) (record : ByteMemory)
    (attr : Attribute) (bufsize : Nat) :
    Traced RecordRead (Option (Except NtStatus (List UInt8))) :=
  if attr.hdr.nonResident = 0 then
    let copy := min attr.valueLength bufsize
    touch ⟨attr.valueOffset, copy⟩ (some (.ok (record.read attr.valueOffset copy)))
  else readRunsOf machine mount bufsize fuel record attr.valueOffset 0 []

/-- The walk goes on from a header to the next one. -/
def attributeStep (record : ByteMemory) (recordSize attrType : Nat) (offset : Nat) : Option Nat :=
  if offset + sizeofAttrHeader ≤ recordSize ∧ (attrHeader record offset).type ≠ attrEnd ∧
      (attrHeader record offset).length ≠ 0 ∧ (attrHeader record offset).type ≠ attrType then
    some ((offset + (attrHeader record offset).length) % 2 ^ 32)
  else none

/-- The walk comes to one header twice. -/
def ComesBack (record : ByteMemory) (recordSize attrType : Nat) : Prop :=
  ∃ first again offset, first < again ∧
    after (attributeStep record recordSize attrType) first (firstAttrOffset record) =
      some offset ∧
    after (attributeStep record recordSize attrType) again (firstAttrOffset record) = some offset

/-- The walk comes to a header of the type that is looked for. -/
def FoundAt (record : ByteMemory) (recordSize attrType offset : Nat) : Prop :=
  (∃ turns, after (attributeStep record recordSize attrType) turns (firstAttrOffset record) =
    some offset) ∧
  offset + sizeofAttrHeader ≤ recordSize ∧ (attrHeader record offset).length ≠ 0 ∧
    (attrHeader record offset).type = attrType ∧ attrType ≠ attrEnd

variable {record : ByteMemory} {recordSize attrType : Nat}

theorem attributeStep_eq_some {recordSize attrType offset next : Nat} :
    attributeStep record recordSize attrType offset = some next ↔
      (offset + sizeofAttrHeader ≤ recordSize ∧ (attrHeader record offset).type ≠ attrEnd ∧
        (attrHeader record offset).length ≠ 0 ∧ (attrHeader record offset).type ≠ attrType) ∧
        (offset + (attrHeader record offset).length) % 2 ^ 32 = next := by
  unfold attributeStep
  rw [Option.ite_none_right_eq_some, Option.some_inj]

theorem findAttributeFrom_step {recordSize attrType offset next : Nat}
    (step : attributeStep record recordSize attrType offset = some next) (fuel : Nat) :
    findAttributeFrom record recordSize attrType (fuel + 1) offset =
      findAttributeFrom record recordSize attrType fuel next := by
  obtain ⟨⟨inside, notEnd, advances, other⟩, rfl⟩ := attributeStep_eq_some.mp step
  rw [findAttributeFrom, if_pos inside]
  dsimp only
  rw [if_neg (not_or.mpr ⟨notEnd, advances⟩), if_neg other]

theorem findAttributeFrom_stop {recordSize attrType offset : Nat}
    (stop : attributeStep record recordSize attrType offset = none) (fuel : Nat) :
    ∃ found, findAttributeFrom record recordSize attrType (fuel + 1) offset = some found ∧
      ∀ attr, found = some attr ↔
        (offset + sizeofAttrHeader ≤ recordSize ∧ (attrHeader record offset).length ≠ 0 ∧
          (attrHeader record offset).type = attrType ∧ attrType ≠ attrEnd) ∧
          attr = attributeAt record offset := by
  rw [findAttributeFrom]
  by_cases inside : offset + sizeofAttrHeader ≤ recordSize
  · rw [if_pos inside]
    dsimp only
    by_cases ends : (attrHeader record offset).type = attrEnd ∨
        (attrHeader record offset).length = 0
    · rw [if_pos ends]
      refine ⟨none, rfl, fun attr => iff_of_false (fun found => nomatch found) ?_⟩
      rintro ⟨⟨_, advances, same, notEnd⟩, _⟩
      exact ends.elim (fun isEnd => notEnd (same.symm.trans isEnd)) advances
    · obtain ⟨notEnd, advances⟩ := not_or.mp ends
      rw [if_neg ends]
      have same : (attrHeader record offset).type = attrType := by
        by_contra other
        rw [attributeStep, if_pos ⟨inside, notEnd, advances, other⟩] at stop
        cases stop
      rw [if_pos same]
      refine ⟨_, rfl, fun attr => ?_⟩
      rw [Option.some_inj, and_iff_right ⟨inside, advances, same, same ▸ notEnd⟩]
      exact eq_comm
  · rw [if_neg inside]
    exact ⟨none, rfl, fun attr => iff_of_false (fun found => nomatch found) fun all =>
      inside all.1.1⟩

theorem findAttributeFrom_controls (record : ByteMemory) (recordSize attrType : Nat) :
    Controls (findAttributeFrom record recordSize attrType) id
      (attributeStep record recordSize attrType) where
  zero := fun _ => rfl
  turn := fun offset next step => ⟨next, rfl, findAttributeFrom_step step⟩
  stop := by
    intro offset stop fuel
    obtain ⟨found, done, _⟩ := findAttributeFrom_stop stop (fuel + 1)
    exact Option.isSome_iff_exists.mpr ⟨found, done⟩

theorem attributeStep_image (offset next : Nat)
    (step : attributeStep record recordSize attrType offset = some next) :
    next ∈ Finset.range (2 ^ 32) := by
  obtain ⟨_, rfl⟩ := attributeStep_eq_some.mp step
  exact Finset.mem_range.mpr (Nat.mod_lt _ (by decide))

theorem ntfsFindAttribute_isSome_iff (record : ByteMemory) (recordSize attrType : Nat) :
    (ntfsFindAttribute record recordSize attrType).isSome ↔
      ¬ ComesBack record recordSize attrType := by
  have enough : (Finset.range (2 ^ 32)).card + 2 ≤ attributeSteps := by
    rw [Finset.card_range, attributeSteps]
  rw [ntfsFindAttribute, (findAttributeFrom_controls record recordSize attrType).isSome_iff
    (Finset.range (2 ^ 32)) attributeStep_image enough, id_eq,
    forever_iff_repeat (Finset.range (2 ^ 32)) attributeStep_image]
  rfl

theorem findAttributeFrom_after (turns : Nat) :
    ∀ {start offset : Nat}, after (attributeStep record recordSize attrType) turns start =
      some offset → ∀ fuel, findAttributeFrom record recordSize attrType (turns + fuel) start =
        findAttributeFrom record recordSize attrType fuel offset := by
  induction turns with
  | zero =>
    intro start offset known fuel
    cases known
    rw [Nat.zero_add]
  | succ turns ih =>
    intro start offset known fuel
    rw [FuelLoop.after, Option.bind_eq_some_iff] at known
    obtain ⟨next, step, later⟩ := known
    rw [Nat.add_right_comm, findAttributeFrom_step step, ih later]

theorem findAttributeFrom_found (fuel : Nat) :
    ∀ {start : Nat} {attr : Attribute},
      findAttributeFrom record recordSize attrType fuel start = some (some attr) →
        ∃ turns offset,
          after (attributeStep record recordSize attrType) turns start = some offset ∧
          (offset + sizeofAttrHeader ≤ recordSize ∧ (attrHeader record offset).length ≠ 0 ∧
            (attrHeader record offset).type = attrType ∧ attrType ≠ attrEnd) ∧
          attr = attributeAt record offset := by
  induction fuel with
  | zero => exact fun done => nomatch done
  | succ fuel ih =>
    intro start attr done
    cases step : attributeStep record recordSize attrType start with
    | none =>
      obtain ⟨found, stopped, finds⟩ := findAttributeFrom_stop step fuel
      rw [stopped, Option.some_inj] at done
      obtain ⟨here, same⟩ := (finds attr).mp done
      exact ⟨0, start, rfl, here, same⟩
    | some next =>
      rw [findAttributeFrom_step step] at done
      obtain ⟨turns, offset, known, here⟩ := ih done
      exact ⟨turns + 1, offset, by rw [FuelLoop.after, step]; exact known, here⟩

/-- The search finds the first attribute of the type. -/
theorem ntfsFindAttribute_found_iff {attr : Attribute} :
    ntfsFindAttribute record recordSize attrType = some (some attr) ↔
      ∃ offset, FoundAt record recordSize attrType offset ∧ attr = attributeAt record offset := by
  constructor
  · intro done
    obtain ⟨turns, offset, known, here, same⟩ := findAttributeFrom_found attributeSteps done
    exact ⟨offset, ⟨⟨turns, known⟩, here⟩, same⟩
  · rintro ⟨offset, ⟨⟨turns, known⟩, here⟩, same⟩
    have stop : attributeStep record recordSize attrType offset = none :=
      if_neg fun going => going.2.2.2 here.2.2.1
    have few : turns ≤ 2 ^ 32 := by
      have bound := turns_le_card (Finset.range (2 ^ 32)) attributeStep_image known stop
      rwa [Finset.card_range] at bound
    obtain ⟨found, done, finds⟩ := findAttributeFrom_stop stop (2 ^ 32 - turns + 1)
    have steps : attributeSteps = turns + (2 ^ 32 - turns + 1 + 1) := by
      rw [attributeSteps]
      omega
    rw [ntfsFindAttribute, steps, findAttributeFrom_after turns known, done,
      (finds attr).mpr ⟨here, same⟩]

/-- The number of characters that `NtfsGetFileName` reads. -/
def nameChars (record : ByteMemory) (attr : Attribute) (maxLen : Nat) : Nat :=
  nameLenChars (load record 1 (attr.valueOffset + 64)) maxLen

/-- The attribute is not resident, or its name stands in the record, as far as it is read. -/
def NameInside (record : ByteMemory) (recordSize maxLen : Nat) (attr : Attribute) : Prop :=
  attr.hdr.nonResident ≠ 0 ∨ (attr.valueOffset + 65 ≤ recordSize ∧
    (nameChars record attr maxLen = 0 ∨
      attr.valueOffset + 66 + 2 * nameChars record attr maxLen ≤ recordSize))

theorem readName_inside_iff (record : ByteMemory) (recordSize name count : Nat) :
    (readName record name count).All (RecordRead.Inside recordSize) ↔
      count = 0 ∨ name + 2 * count ≤ recordSize := by
  have turns : ∀ i ∈ range count, ∀ outName : List Nat,
      (do
        let c ← readRecord record (name + 2 * i) 2
        pure (outName ++ [if c < 128 then c else 0x3F]) : Traced RecordRead (List Nat)).All
          (RecordRead.Inside recordSize) ↔ name + 2 * i + 2 ≤ recordSize := by
    intro i _ outName
    rw [all_bind, readRecord, all_touch, RecordRead.Inside]
    simp
  rw [readName, all_foldlM turns]
  simp only [mem_range]
  constructor
  · intro all
    cases count with
    | zero => exact .inl rfl
    | succ count =>
      have last := all count (Nat.lt_succ_self count)
      omega
  · intro room i less
    omega

theorem getFileNameOf_inside_iff (record : ByteMemory) (recordSize maxLen : Nat)
    (attr : Attribute) :
    (getFileNameOf record attr maxLen).All (RecordRead.Inside recordSize) ↔
      NameInside record recordSize maxLen attr := by
  unfold getFileNameOf NameInside nameChars
  by_cases resident : attr.hdr.nonResident ≠ 0
  · rw [if_pos resident]
    exact iff_of_true (all_pure _) (.inl resident)
  · rw [if_neg resident, or_iff_right resident, all_bind, all_bind,
      readName_inside_iff, readRecord, all_touch, RecordRead.Inside]
    simp [Nat.add_assoc]

def runLenSize (hdr : UInt8) : Nat := hdr.toNat >>> 4

def runOffSize (hdr : UInt8) : Nat := hdr.toNat &&& 0x0F

/-- The decoder stops at this header. -/
def RunEnds (hdr : UInt8) : Prop :=
  hdr = 0 ∨ runLenSize hdr = 0 ∨ runLenSize hdr > 8 ∨ runOffSize hdr > 8

/-- The bytes of the clusters of the run at `p`. -/
def runBytes (record : ByteMemory) (mount : NtfsMount) (p : Nat) : Nat :=
  load record (runLenSize (record p)) (p + 1) * mount.bytesPerCluster % 2 ^ 64

/-- The size of the block that is asked for to read `toRead` bytes. -/
def blockBytes (mount : NtfsMount) (toRead : Nat) : Nat :=
  (toRead + mount.bytesPerSector - 1) % 2 ^ 32 / mount.bytesPerSector * mount.bytesPerSector %
    2 ^ 32

/-- The run list that begins at `p` comes to its end, to a run that an empty block is asked for, or
to the clusters for the bytes that are left to read, inside the record. -/
inductive RunsInside (record : ByteMemory) (recordSize : Nat) (mount : NtfsMount) :
    Nat → Nat → Prop
  | full (p : Nat) : RunsInside record recordSize mount p 0
  | ends (p left : Nat) : p < recordSize → RunEnds (record p) →
      RunsInside record recordSize mount p left
  | refused (p left : Nat) : ¬ RunEnds (record p) →
      p + 1 + runLenSize (record p) + runOffSize (record p) ≤ recordSize →
      blockBytes mount (min left (runBytes record mount p)) = 0 →
      RunsInside record recordSize mount p left
  | run (p left : Nat) : ¬ RunEnds (record p) →
      p + 1 + runLenSize (record p) + runOffSize (record p) ≤ recordSize →
      RunsInside record recordSize mount (p + 1 + runLenSize (record p) + runOffSize (record p))
        (left - runBytes record mount p) →
      RunsInside record recordSize mount p left

theorem ntfsDecodeDataRun_ends {p : Nat} (ends : RunEnds (record p)) :
    ntfsDecodeDataRun record p = none := by
  rw [ntfsDecodeDataRun]
  split
  · rfl
  · rename_i more
    exact if_pos (ends.resolve_left more)

theorem ntfsDecodeDataRun_run {p : Nat} (more : ¬ RunEnds (record p)) :
    ∃ lcn, ntfsDecodeDataRun record p =
      some (⟨lcn, load record (runLenSize (record p)) (p + 1)⟩,
        p + 1 + runLenSize (record p) + runOffSize (record p)) := by
  unfold RunEnds runLenSize runOffSize at more
  obtain ⟨notEnd, fits⟩ := not_or.mp more
  unfold ntfsDecodeDataRun runLenSize runOffSize
  rw [if_neg notEnd]
  dsimp only
  rw [if_neg fits, readField_eq, readField_eq]
  exact ⟨_, rfl⟩

/-- The decoder depends on nothing but the bytes that it reads. -/
theorem ntfsDecodeDataRun_congr {record other : ByteMemory} {p : Nat}
    (same : ∀ read ∈ decodeReads record p, ∀ address, read.offset ≤ address →
      address < read.offset + read.size → other address = record address) :
    ntfsDecodeDataRun other p = ntfsDecodeDataRun record p := by
  by_cases ends : RunEnds (record p)
  · rw [decodeReads, ntfsDecodeDataRun_ends ends] at same
    have header := same _ (mem_singleton_self _) p (Nat.le_refl _) (Nat.lt_succ_self _)
    rw [ntfsDecodeDataRun_ends ends, ntfsDecodeDataRun_ends (header.symm ▸ ends)]
  · obtain ⟨lcn, decoded⟩ := ntfsDecodeDataRun_run ends
    rw [decodeReads, decoded] at same
    dsimp only at same
    have header := same _ mem_cons_self p (Nat.le_refl _) (Nat.lt_succ_self _)
    have fields : ∀ address, p + 1 ≤ address →
        address < p + 1 + runLenSize (record p) + runOffSize (record p) →
        other address = record address := fun address low high =>
      same _ (mem_cons_of_mem _ mem_cons_self) address low (by
        dsimp only
        omega)
    unfold runLenSize runOffSize at fields
    unfold ntfsDecodeDataRun
    rw [header]
    split
    · rfl
    dsimp only
    split
    · rfl
    rw [readField_eq, readField_eq, readField_eq, readField_eq,
      load_congr record other _ _ fun address low high => fields address low (by omega),
      load_congr record other _ _ fun address low high =>
        fields address (by omega) (by omega)]
    by_cases sign : (record p).toNat &&& 0x0F = 0
    · simp [sign]
    · rw [fields (p + 1 + (record p).toNat >>> 4 + ((record p).toNat &&& 0x0F) - 1) (by omega)
        (by omega)]

/-- A disk and a pool without failures. -/
def smooth : Machine where
  readSectors := fun _ _ => .ok fun _ => 0
  allocates := fun _ => true
  fresh := fun _ => 0

theorem smooth_reads (lba count : Nat) :
    ∃ buffer, ntfsReadSectors smooth lba count = .ok buffer := by
  unfold ntfsReadSectors
  split <;> exact ⟨_, rfl⟩

section Runs

variable {record : ByteMemory} {recordSize : Nat} {mount : NtfsMount} {bufsize p : Nat}
  {copied : List UInt8}

theorem readRunsOf_full (full : ¬ copied.length < bufsize) (machine : Machine)
    (fuel prevLcn : Nat) :
    (readRunsOf machine mount bufsize fuel record p prevLcn copied).All
      (RecordRead.Inside recordSize) := by
  cases fuel with
  | zero => exact all_pure _
  | succ fuel =>
    rw [readRunsOf, if_pos full]
    exact all_pure _

theorem readRunsOf_ends (unfinished : copied.length < bufsize) (ends : RunEnds (record p))
    (machine : Machine) (fuel prevLcn : Nat) :
    (readRunsOf machine mount bufsize (fuel + 1) record p prevLcn copied).All
      (RecordRead.Inside recordSize) ↔ p < recordSize := by
  have decoded := ntfsDecodeDataRun_ends ends
  rw [readRunsOf, if_neg (not_not.mpr unfinished), all_bind, decodeDataRun, decodeReads, decoded]
  dsimp only
  rw [and_iff_left (all_pure _), Traced.All]
  simp only [mem_singleton, forall_eq, RecordRead.Inside]
  omega

/-- A turn of the loop that finds a run: it reads the run and then, if nothing fails, goes on
behind it with the bytes of its clusters copied. -/
theorem readRunsOf_run (unfinished : copied.length < bufsize) (more : ¬ RunEnds (record p))
    (machine : Machine) (prevLcn : Nat) :
    ∃ rest : Nat → Traced RecordRead (Option (Except NtStatus (List UInt8))),
      (∀ fuel, (readRunsOf machine mount bufsize (fuel + 1) record p prevLcn copied).All
        (RecordRead.Inside recordSize) ↔
          p + 1 + runLenSize (record p) + runOffSize (record p) ≤ recordSize ∧
            (rest fuel).All (RecordRead.Inside recordSize)) ∧
      (((blockBytes mount (min (bufsize - copied.length) (runBytes record mount p)) = 0 ∨
          machine ≠ smooth) ∧ ∀ fuel, (rest fuel).touched = []) ∨ ∃ prevLcn' copied',
        blockBytes mount (min (bufsize - copied.length) (runBytes record mount p)) ≠ 0 ∧
        bufsize - copied'.length = bufsize - copied.length - runBytes record mount p ∧
        ∀ fuel, rest fuel = readRunsOf machine mount bufsize fuel record
          (p + 1 + runLenSize (record p) + runOffSize (record p)) prevLcn' copied') := by
  obtain ⟨lcn, decoded⟩ := ntfsDecodeDataRun_run more
  simp only [readRunsOf, if_neg (not_not.mpr unfinished), all_bind]
  refine ⟨_, fun fuel => Iff.and ?_ Iff.rfl, ?_⟩
  · rw [decodeDataRun, decodeReads, decoded, Traced.All]
    simp only [mem_cons, not_mem_nil, or_false, forall_eq_or_imp, forall_eq, RecordRead.Inside]
    omega
  · simp only [decodeDataRun, decoded]
    split
    · rename_i refused
      left
      refine ⟨?_, fun _ => rfl⟩
      by_cases block : blockBytes mount (min (bufsize - copied.length) (runBytes record mount p)) =
        0
      · exact .inl block
      · refine .inr fun same => refused ?_
        rw [same, exAllocatePool, smooth, Bool.and_true]
        exact decide_eq_true block
    · rename_i allocated
      cases reading : ntfsReadSectors machine _ _ with
      | error status =>
        left
        refine ⟨.inr fun same => ?_, fun _ => rfl⟩
        obtain ⟨buffer, done⟩ := smooth_reads _ _
        rw [same, done] at reading
        cases reading
      | ok buffer =>
        right
        refine ⟨_, _, ?_, ?_, fun _ => rfl⟩
        · exact of_decide_eq_true (Bool.and_eq_true_iff.mp (not_not.mp allocated)).1
        · rw [length_append, read_length, runBytes]
          omega

/-- A run list inside the record is read inside it. -/
theorem RunsInside.reads {left : Nat}
    (inside : RunsInside record recordSize mount p left) (machine : Machine)
    (fuel : Nat) : ∀ (prevLcn : Nat) {copied : List UInt8}, bufsize - copied.length = left →
      (readRunsOf machine mount bufsize fuel record p prevLcn copied).All
        (RecordRead.Inside recordSize) := by
  induction inside generalizing fuel with
  | full p => exact fun prevLcn _ none => readRunsOf_full (by omega) machine fuel prevLcn
  | ends p left here ends =>
    intro prevLcn copied room
    by_cases unfinished : copied.length < bufsize
    · cases fuel with
      | zero => exact all_pure _
      | succ fuel => exact (readRunsOf_ends unfinished ends machine fuel prevLcn).mpr here
    · exact readRunsOf_full unfinished machine fuel prevLcn
  | refused p left more here block =>
    intro prevLcn copied room
    by_cases unfinished : copied.length < bufsize
    · cases fuel with
      | zero => exact all_pure _
      | succ fuel =>
        obtain ⟨rest, all, ⟨_, nothing⟩ | ⟨_, _, some, _⟩⟩ :=
          readRunsOf_run unfinished more machine prevLcn
        · refine (all fuel).mpr ⟨here, fun read member => ?_⟩
          rw [nothing fuel] at member
          cases member
        · rw [room] at some
          exact absurd block some
    · exact readRunsOf_full unfinished machine fuel prevLcn
  | run p left more here _ ih =>
    intro prevLcn copied room
    by_cases unfinished : copied.length < bufsize
    · cases fuel with
      | zero => exact all_pure _
      | succ fuel =>
        obtain ⟨rest, all, ⟨_, nothing⟩ | ⟨prevLcn', copied', _, room', goes⟩⟩ :=
          readRunsOf_run unfinished more machine prevLcn
        · refine (all fuel).mpr ⟨here, fun read member => ?_⟩
          rw [nothing fuel] at member
          cases member
        · refine (all fuel).mpr ⟨here, ?_⟩
          rw [goes fuel]
          exact ih fuel prevLcn' (by rw [room', room])
    · exact readRunsOf_full unfinished machine fuel prevLcn

/-- Reads that stay inside the record are those of runs inside it. -/
theorem runsInside_of_reads (fewer : Nat) : ∀ {p prevLcn : Nat} {copied : List UInt8},
    recordSize - p ≤ fewer →
    (∀ fuel, (readRunsOf smooth mount bufsize fuel record p prevLcn copied).All
      (RecordRead.Inside recordSize)) →
    RunsInside record recordSize mount p (bufsize - copied.length) := by
  -- Induction on the bytes of the record behind `p`: every run takes some of them.
  induction fewer with
  | zero =>
    intro p prevLcn copied none reads
    by_cases unfinished : copied.length < bufsize
    · exfalso
      by_cases ends : RunEnds (record p)
      · have here := (readRunsOf_ends unfinished ends smooth 0 prevLcn).mp (reads 1)
        omega
      · obtain ⟨_, all, _⟩ := readRunsOf_run unfinished ends smooth prevLcn
        have here := ((all 0).mp (reads 1)).1
        omega
    · rw [Nat.sub_eq_zero_of_le (Nat.le_of_not_lt unfinished)]
      exact .full p
  | succ fewer ih =>
    intro p prevLcn copied few reads
    by_cases unfinished : copied.length < bufsize
    · by_cases ends : RunEnds (record p)
      · exact .ends p _ ((readRunsOf_ends unfinished ends smooth 0 prevLcn).mp (reads 1)) ends
      obtain ⟨rest, all, ⟨other, _⟩ | ⟨prevLcn', copied', _, room, goes⟩⟩ :=
        readRunsOf_run unfinished ends smooth prevLcn
      · exact .refused p _ ends ((all 0).mp (reads 1)).1
          (other.resolve_right (not_not.mpr rfl))
      have here := ((all 0).mp (reads 1)).1
      refine .run p _ ends here ?_
      rw [← room]
      apply @ih _ prevLcn' copied'
      · omega
      · intro fuel
        rw [← goes fuel]
        exact ((all fuel).mp (reads (fuel + 1))).2
    · rw [Nat.sub_eq_zero_of_le (Nat.le_of_not_lt unfinished)]
      exact .full p

/-- Beside its trace the loop computes what `readRuns` does. -/
theorem readRunsOf_value (machine : Machine) (fuel : Nat) : ∀ {p prevLcn : Nat}
    {copied : List UInt8}, (readRunsOf machine mount bufsize fuel record p prevLcn copied).value =
      readRuns machine mount bufsize fuel record p prevLcn copied := by
  induction fuel with
  | zero => exact rfl
  | succ fuel ih =>
    intro p prevLcn copied
    rw [readRunsOf, readRuns]
    split
    · rfl
    rw [bind_value, decodeDataRun]
    dsimp only
    cases ntfsDecodeDataRun record p with
    | none => rfl
    | some found =>
      dsimp only
      split
      · rfl
      · cases ntfsReadSectors machine _ _ with
        | error status => rfl
        | ok buffer => exact ih

theorem readRunsOf_inside_iff :
    (∀ machine fuel, (readRunsOf machine mount bufsize fuel record p 0 []).All
      (RecordRead.Inside recordSize)) ↔
      RunsInside record recordSize mount p bufsize := by
  constructor
  · exact fun reads => runsInside_of_reads recordSize (Nat.sub_le _ _) (reads smooth)
  · exact fun inside machine fuel => inside.reads machine fuel 0 rfl

end Runs

/-- What `NtfsReadFile` reads of the attribute stands in the record: the value, as far as it
fits into the buffer, or the run list. -/
def DataInside (record : ByteMemory) (recordSize : Nat) (mount : NtfsMount) (bufsize : Nat)
    (attr : Attribute) : Prop :=
  if attr.hdr.nonResident = 0 then
    min attr.valueLength bufsize = 0 ∨ attr.valueOffset + min attr.valueLength bufsize ≤ recordSize
  else RunsInside record recordSize mount attr.valueOffset bufsize

theorem readFileOf_inside_iff (record : ByteMemory) (recordSize : Nat) (mount : NtfsMount)
    (bufsize : Nat) (attr : Attribute) :
    (∀ machine fuel, (readFileOf machine mount fuel record attr bufsize).All
      (RecordRead.Inside recordSize)) ↔
      DataInside record recordSize mount bufsize attr := by
  unfold readFileOf DataInside
  by_cases resident : attr.hdr.nonResident = 0
  · simp only [if_pos resident, all_touch, RecordRead.Inside]
    exact ⟨fun all => all smooth 0, fun inside _ _ => inside⟩
  · simp only [if_neg resident]
    exact readRunsOf_inside_iff

/-- The search returns, and what is read for the attributes that it finds stands in the record,
whatever the disk and the pool do. -/
structure AttributesSafe (record : ByteMemory) (recordSize : Nat) (mount : NtfsMount)
    (bufsize maxLen : Nat) : Prop where
  returns : ∀ attrType, (ntfsFindAttribute record recordSize attrType).isSome
  fileName : ∀ attr, ntfsFindAttribute record recordSize attrFileName = some (some attr) →
    (getFileNameOf record attr maxLen).All (RecordRead.Inside recordSize)
  data : ∀ attr, ntfsFindAttribute record recordSize attrData = some (some attr) →
    ∀ machine fuel, (readFileOf machine mount fuel record attr bufsize).All
      (RecordRead.Inside recordSize)

/-- The searches of a record are safe exactly if its headers lead to no header twice, and its
file name and its data stand in it. -/
theorem attributesSafe_iff (record : ByteMemory) (recordSize : Nat) (mount : NtfsMount)
    (bufsize maxLen : Nat) :
    AttributesSafe record recordSize mount bufsize maxLen ↔
      (∀ attrType, ¬ ComesBack record recordSize attrType) ∧
      (∀ offset, FoundAt record recordSize attrFileName offset →
        NameInside record recordSize maxLen (attributeAt record offset)) ∧
      ∀ offset, FoundAt record recordSize attrData offset →
        DataInside record recordSize mount bufsize (attributeAt record offset) := by
  constructor
  · rintro ⟨returns, fileName, data⟩
    refine ⟨fun attrType => (ntfsFindAttribute_isSome_iff record recordSize attrType).mp
      (returns attrType), fun offset found => ?_, fun offset found => ?_⟩
    · exact (getFileNameOf_inside_iff record recordSize maxLen _).mp
        (fileName _ (ntfsFindAttribute_found_iff.mpr ⟨offset, found, rfl⟩))
    · exact (readFileOf_inside_iff record recordSize mount bufsize _).mp
        (data _ (ntfsFindAttribute_found_iff.mpr ⟨offset, found, rfl⟩))
  · rintro ⟨ends, fileName, data⟩
    refine ⟨fun attrType => (ntfsFindAttribute_isSome_iff record recordSize attrType).mpr
      (ends attrType), fun attr found => ?_, fun attr found => ?_⟩
    · obtain ⟨offset, here, rfl⟩ := ntfsFindAttribute_found_iff.mp found
      exact (getFileNameOf_inside_iff record recordSize maxLen _).mpr (fileName offset here)
    · obtain ⟨offset, here, rfl⟩ := ntfsFindAttribute_found_iff.mp found
      exact (readFileOf_inside_iff record recordSize mount bufsize _).mpr (data offset here)

/-- A record of 1024 bytes with one attribute, at 56: resident data of 4096 bytes. -/
def longValueRecord : ByteMemory :=
  write (write (fun _ => 0xFF) 20 [56, 0]) 56
    [0x80, 0, 0, 0, 24, 0, 0, 0, 0, 0, 0, 0, 0, 0, 0, 0, 0, 0x10, 0, 0, 24, 0, 0, 0]

theorem longValueRecord_found :
    ntfsFindAttribute longValueRecord 1024 attrData =
      some (some (attributeAt longValueRecord 56)) := by
  decide +kernel

/-- The read of the value ends 3152 bytes behind the record. -/
theorem longValueRecord_notSafe :
    ¬ ∀ record recordSize mount bufsize maxLen, 48 ≤ recordSize →
      AttributesSafe record recordSize mount bufsize maxLen := by
  intro all
  have inside := (readFileOf_inside_iff _ _ _ _ _).mp
    ((all longValueRecord 1024 volumeMount 4096 256 (by decide)).data _ longValueRecord_found)
  rw [DataInside, if_pos (by decide +kernel)] at inside
  revert inside
  decide +kernel

end MinNT.Ntfs
