import MinNT.Ke.PeLoad

/-! What `PeLoadImage` touches outside the file and the image. -/

namespace MinNT.Ke.Pe

open ByteMemory Traced

/-- Every byte is one of the file or one of the image. -/
def Access.InBounds (fileSize imageSize : Nat) (access : Access) : Prop :=
  ∀ byte, access.offset ≤ byte → byte < access.offset + access.size →
    byte < match access.region with
      | .file => fileSize
      | .image => imageSize

/-- The header checks. -/
structure Accepted (file : ByteMemory) (fileSize : BitVec 32) : Prop where
  size : sizeofDosHeader ≤ fileSize.toNat
  e_magic : field file 0 2 = imageDosSignature
  e_lfanew : field file offsetofLfanew 4 + sizeofNtHeaders ≤ fileSize.toNat
  signature : ntField file 0 4 = imageNtSignature
  machine : ntField file offsetofMachine 2 = imageFileMachineAmd64
  magic : ntField file offsetofMagic 2 = 0x20B

def sectionTable (file : ByteMemory) : Nat :=
  ntHeaders file + offsetofNumberOfRvaAndSizes +
    ntField file offsetofNumberOfRvaAndSizes 4 * sizeofDataDirectory

def sectionHeader (file : ByteMemory) (i : Nat) : Nat :=
  sectionTable file + i * sizeofSectionHeader

def sectionField (file : ByteMemory) (i offset : Nat) : Nat :=
  field file (sectionHeader file i + offset) 4

def sizeOfImage (file : ByteMemory) : Nat := ntField file offsetofSizeOfImage 4

/-- How much of a section is copied. -/
def copySize (file : ByteMemory) (i : Nat) : Nat :=
  min (sectionField file i offsetofSizeOfRawData) (sectionField file i offsetofVirtualSize)

/-- The header of a section is in the file as far as it is read, and what is copied of the section
is in the file and in the image. -/
structure SectionInside (file : ByteMemory) (fileSize i : Nat) : Prop where
  rawSize : sectionHeader file i + 20 ≤ fileSize
  header : sectionField file i offsetofSizeOfRawData ≠ 0 → sectionHeader file i + 24 ≤ fileSize
  source : sectionField file i offsetofSizeOfRawData ≠ 0 →
    sectionField file i offsetofPointerToRawData ≠ 0 → copySize file i = 0 ∨
      sectionField file i offsetofPointerToRawData + copySize file i ≤ fileSize
  target : sectionField file i offsetofSizeOfRawData ≠ 0 →
    sectionField file i offsetofPointerToRawData ≠ 0 → copySize file i = 0 ∨
      sectionField file i offsetofVirtualAddress + copySize file i ≤ sizeOfImage file

/-- The blocks of relocations that are walked through from the first on. -/
inductive RelocBlock (memory : ByteMemory) (imageBase relocEnd first : Nat) : Nat → Prop
  | first (before : (imageBase + first) % 2 ^ 64 < (imageBase + relocEnd) % 2 ^ 64) :
      RelocBlock memory imageBase relocEnd first first
  | next {block : Nat} (walked : RelocBlock memory imageBase relocEnd first block)
      (before : (imageBase + (block + load memory 4 (block + 4))) % 2 ^ 64 <
        (imageBase + relocEnd) % 2 ^ 64) :
      RelocBlock memory imageBase relocEnd first (block + load memory 4 (block + 4))

theorem RelocBlock.of_next {memory : ByteMemory} {imageBase relocEnd block later : Nat}
    (before : (imageBase + block) % 2 ^ 64 < (imageBase + relocEnd) % 2 ^ 64)
    (walked : RelocBlock memory imageBase relocEnd (block + load memory 4 (block + 4)) later) :
    RelocBlock memory imageBase relocEnd block later := by
  induction walked with
  | first second => exact .next (.first before) second
  | next _ further ih => exact .next ih further

/-- A block has room for its own header, and it and what it relocates are in the image. -/
structure BlockInside (memory : ByteMemory) (imageSize block : Nat) : Prop where
  header : block + sizeofBaseRelocation ≤ imageSize
  size : sizeofBaseRelocation ≤ load memory 4 (block + 4)
  entries : block + sizeofBaseRelocation +
    (load memory 4 (block + 4) - sizeofBaseRelocation) / 2 * 2 ≤ imageSize
  patches : ∀ j < (load memory 4 (block + 4) - sizeofBaseRelocation) / 2,
    load memory 2 (block + sizeofBaseRelocation + j * 2) / 2 ^ 12 = imageRelBasedDir64 →
    load memory 4 block + load memory 2 (block + sizeofBaseRelocation + j * 2) % 2 ^ 12 + 8 ≤
      imageSize

/-- The image behind the copies of the headers and of the sections. -/
def copiedImage (file prior : ByteMemory) : ByteMemory :=
  ((List.range (ntField file offsetofNumberOfSections 2)).foldlM
    (copySection file (sectionTable file))
    (write (write prior 0 (List.replicate (sizeOfImage file) 0)) 0
      (read file 0 (ntField file offsetofSizeOfOptionalHeader 2 + sizeofFileHeader + 4)))).value

structure LoadInside (file : ByteMemory) (fileSize : Nat) (prior : ByteMemory) : Prop where
  headersInFile :
    ntField file offsetofSizeOfOptionalHeader 2 + sizeofFileHeader + 4 ≤ fileSize
  headersInImage :
    ntField file offsetofSizeOfOptionalHeader 2 + sizeofFileHeader + 4 ≤ sizeOfImage file
  sections : ∀ i < ntField file offsetofNumberOfSections 2, SectionInside file fileSize i
  relocations :
    let directory := offsetofDataDirectory imageDirectoryEntryBasereloc
    let relocRva := ntField file directory 4
    let relocSize := ntField file (directory + 4) 4
    relocRva ≠ 0 → relocSize ≠ 0 → ∀ block,
      RelocBlock (copiedImage file prior) (ntField file offsetofImageBase 8)
        (relocRva + relocSize) relocRva block →
      BlockInside (copiedImage file prior) (sizeOfImage file) block

/-- `e_lfanew` is not negative, and if the pages of the image can be mapped, then the headers, the
sections and the relocations are where they have to be. -/
structure Inside (file : ByteMemory) (fileSize : Nat) (pages : Nat → NtStatus)
    (prior : ByteMemory) : Prop where
  e_lfanew : field file offsetofLfanew 4 < 2 ^ 31
  load : mapPages pages (sizeOfImage file) = none → LoadInside file fileSize prior

section Bounds

variable {file memory prior : ByteMemory} {fileSize : BitVec 32} {limit imageSize : Nat}

theorem inBounds_iff (access : Access) :
    access.InBounds limit imageSize ↔ access.size = 0 ∨ access.offset + access.size ≤
      match access.region with
      | .file => limit
      | .image => imageSize := by
  unfold Access.InBounds
  generalize (match access.region with | .file => limit | .image => imageSize) = bound
  constructor
  · intro inside
    by_cases empty : access.size = 0
    · exact .inl empty
    · have last := inside (access.offset + access.size - 1) (by omega) (by omega)
      omega
  · omega

@[simp] theorem readFile_value (file : ByteMemory) (offset width : Nat) :
    (readFile file offset width).value = field file offset width := (rfl)

@[simp] theorem readImage_value (memory : ByteMemory) (offset width : Nat) :
    (readImage memory offset width).value = load memory width offset := (rfl)

@[simp] theorem all_readFile (offset width : Nat) :
    (readFile file offset width).All (Access.InBounds limit imageSize) ↔
      width = 0 ∨ offset % 2 ^ 64 + width ≤ limit := by
  rw [readFile, all_touch, inBounds_iff]

@[simp] theorem all_readImage (offset width : Nat) :
    (readImage memory offset width).All (Access.InBounds limit imageSize) ↔
      width = 0 ∨ offset + width ≤ imageSize := by
  rw [readImage, all_touch, inBounds_iff]

@[simp] theorem rtlZeroMemory_value (memory : ByteMemory) (length : Nat) :
    (rtlZeroMemory memory length).value = write memory 0 (List.replicate length 0) := (rfl)

@[simp] theorem all_rtlZeroMemory (length : Nat) :
    (rtlZeroMemory memory length).All (Access.InBounds limit imageSize) ↔
      length = 0 ∨ length ≤ imageSize := by
  rw [rtlZeroMemory, all_touch, inBounds_iff]
  simp only [Nat.zero_add]

@[simp] theorem rtlCopyMemory_value (source target length : Nat) :
    (rtlCopyMemory file source memory target length).value =
      write memory target (read file source length) := (rfl)

@[simp] theorem all_rtlCopyMemory (source target length : Nat) :
    (rtlCopyMemory file source memory target length).All (Access.InBounds limit imageSize) ↔
      (length = 0 ∨ source + length ≤ limit) ∧ (length = 0 ∨ target + length ≤ imageSize) := by
  rw [rtlCopyMemory, all_bind, all_touch, all_touch, inBounds_iff, inBounds_iff]

theorem field_lt (file : ByteMemory) (offset width : Nat) : field file offset width < 256 ^ width :=
  load_lt ..

theorem signExtend_of_lt {long : Nat} (small : long < 2 ^ 31) : signExtend long = long := by
  unfold signExtend TwosComplement.word TwosComplement.value
  rw [if_pos (by omega)]
  omega

theorem signExtend_of_le {long : Nat} (large : 2 ^ 31 ≤ long) (word : long < 2 ^ 32) :
    2 ^ 63 ≤ signExtend long ∧ signExtend long < 2 ^ 64 := by
  unfold signExtend TwosComplement.word TwosComplement.value
  rw [if_neg (by omega)]
  omega

theorem ntHeaders_of_lt (small : field file offsetofLfanew 4 < 2 ^ 31) :
    ntHeaders file = field file offsetofLfanew 4 := signExtend_of_lt small

/-! What a load reads of the headers, by the names of the model. -/

theorem signExtend_lfanew (file : ByteMemory) :
    signExtend (field file offsetofLfanew 4) = ntHeaders file := rfl

theorem readFile_ntHeaders (file : ByteMemory) (offset width : Nat) :
    (readFile file (ntHeaders file + offset) width).value = ntField file offset width := (rfl)

theorem ntField_zero (file : ByteMemory) (width : Nat) :
    ntField file 0 width = field file (ntHeaders file) width := by
  rw [ntField, Nat.add_zero]

theorem ntField_sizeOfImage (file : ByteMemory) :
    ntField file offsetofSizeOfImage 4 = sizeOfImage file := rfl

theorem sectionTable_eq (file : ByteMemory) :
    ntHeaders file + offsetofNumberOfRvaAndSizes +
      ntField file offsetofNumberOfRvaAndSizes 4 * sizeofDataDirectory = sectionTable file := rfl

theorem check_value {refused : Prop} [Decidable refused] (rest : Traced Access NtStatus) :
    (if refused then pure statusInvalidImageFormat else rest).value = statusSuccess ↔
      ¬ refused ∧ rest.value = statusSuccess := by
  by_cases here : refused
  · rw [if_pos here]
    exact iff_of_false (by decide) fun both => both.1 here
  · rw [if_neg here]
    exact (and_iff_right here).symm

theorem accepted_iff : (peValidateImage file fileSize).value = statusSuccess ↔
    Accepted file fileSize := by
  unfold peValidateImage
  simp only [check_value, bind_value]
  simp only [readFile_value, signExtend_lfanew, ← ntField_zero, not_lt, ne_eq, not_not, gt_iff_lt,
    pure_value, and_true]
  constructor
  · rintro ⟨size, e_magic, e_lfanew, signature, machine, magic⟩
    exact ⟨size, e_magic, e_lfanew, signature, machine, magic⟩
  · rintro ⟨size, e_magic, e_lfanew, signature, machine, magic⟩
    exact ⟨size, e_magic, e_lfanew, signature, machine, magic⟩

theorem all_readFile_ntHeaders (accepted : Accepted file fileSize)
    (small : field file offsetofLfanew 4 < 2 ^ 31) {offset width : Nat}
    (inside : offset + width ≤ sizeofNtHeaders) :
    (readFile file (ntHeaders file + offset) width).All
      (Access.InBounds fileSize.toNat imageSize) := by
  have room := accepted.e_lfanew
  rw [all_readFile, ntHeaders_of_lt small]
  omega

/-- The checks stay in the file exactly below this offset. -/
theorem all_peValidateImage (accepted : Accepted file fileSize) :
    (peValidateImage file fileSize).All (Access.InBounds fileSize.toNat imageSize) ↔
      field file offsetofLfanew 4 < 2 ^ 31 := by
  have room := accepted.e_lfanew
  have word := field_lt file offsetofLfanew 4
  have dosSize : sizeofDosHeader = 64 := rfl
  have ntSize : sizeofNtHeaders = 264 := rfl
  unfold peValidateImage
  simp only [all_ite_pure, all_bind, all_pure]
  simp only [readFile_value, all_readFile, accepted.e_magic, ne_eq, not_true, not_false_eq_true]
  constructor
  · intro inside
    have signatureRead := (((inside (by omega)).2 trivial).2 (by omega)).1
    by_contra large
    have far := signExtend_of_le (Nat.le_of_not_lt large) word
    omega
  · intro small _
    rw [signExtend_of_lt small]
    unfold offsetofLfanew offsetofMachine offsetofMagic at *
    exact ⟨by omega, fun _ => ⟨by omega, fun _ => ⟨by omega, fun _ => ⟨by omega, fun _ =>
      ⟨by omega, fun _ => trivial⟩⟩⟩⟩⟩

/-- A section is copied inside the bounds exactly if its header says so. -/
theorem all_copySection (small : field file offsetofLfanew 4 < 2 ^ 31) {i : Nat}
    (index : i < 2 ^ 16) :
    (copySection file (sectionTable file) memory i).All
      (Access.InBounds limit (sizeOfImage file)) ↔ SectionInside file limit i := by
  have table : sectionHeader file i + 40 < 2 ^ 64 := by
    have count := field_lt file (ntHeaders file + offsetofNumberOfRvaAndSizes) 4
    unfold sectionHeader sectionTable ntField
    rw [ntHeaders_of_lt small] at count ⊢
    unfold offsetofNumberOfRvaAndSizes sizeofDataDirectory sizeofSectionHeader at *
    omega
  have place : sectionTable file + i * sizeofSectionHeader = sectionHeader file i := rfl
  unfold copySection
  simp only [all_ite_pure, all_bind]
  simp only [readFile_value, all_readFile, all_rtlCopyMemory, place]
  have fieldOf : ∀ offset, field file (sectionHeader file i + offset) 4 =
    sectionField file i offset := fun _ => rfl
  simp only [fieldOf]
  unfold offsetofSizeOfRawData offsetofPointerToRawData offsetofVirtualSize offsetofVirtualAddress
  constructor
  · rintro ⟨rawSize, inside⟩
    constructor
    case rawSize => omega
    case header =>
      intro some
      have pointerRead := (inside some).1
      omega
    case source =>
      intro some pointer
      exact ((inside some).2 pointer).2.2.1
    case target =>
      intro some pointer
      exact ((inside some).2 pointer).2.2.2
  · intro inside
    have rawSize := inside.rawSize
    refine ⟨by omega, fun some => ?_⟩
    have header := inside.header some
    exact ⟨by omega, fun pointer => ⟨by omega, by omega, inside.source some pointer,
      inside.target some pointer⟩⟩

theorem relocEntry_value (relocBase j : Nat) :
    (relocEntry 0 relocBase memory j).value = memory := by
  unfold relocEntry
  rw [bind_value, readImage_value]
  split
  · rfl
  · simp only [bind_value, readImage_value, touch_value, Nat.add_zero]
    exact store_load memory 8 _

theorem all_relocEntry (relocBase j : Nat) :
    (relocEntry 0 relocBase memory j).All (Access.InBounds limit imageSize) ↔
      relocBase + sizeofBaseRelocation + j * 2 + 2 ≤ imageSize ∧
      (load memory 2 (relocBase + sizeofBaseRelocation + j * 2) / 2 ^ 12 = imageRelBasedDir64 →
        relocBase + 4 ≤ imageSize ∧
        load memory 4 relocBase +
          load memory 2 (relocBase + sizeofBaseRelocation + j * 2) % 2 ^ 12 + 8 ≤ imageSize) := by
  unfold relocEntry
  simp only [all_ite_pure, all_bind, all_touch, inBounds_iff]
  simp only [readImage_value, all_readImage]
  constructor
  · rintro ⟨entry, inside⟩
    refine ⟨by omega, fun patched => ?_⟩
    omega
  · rintro ⟨entry, inside⟩
    refine ⟨by omega, fun patched => ?_⟩
    omega

theorem entryCount_eq {sizeOfBlock : Nat} (word : sizeOfBlock < 2 ^ 32)
    (room : sizeofBaseRelocation ≤ sizeOfBlock) :
    entryCount sizeOfBlock = (sizeOfBlock - sizeofBaseRelocation) / 2 := by
  unfold entryCount
  unfold sizeofBaseRelocation at *
  omega

theorem entryCount_of_lt {sizeOfBlock : Nat} (small : sizeOfBlock < sizeofBaseRelocation) :
    2 ^ 32 - 4 ≤ entryCount sizeOfBlock := by
  unfold entryCount
  unfold sizeofBaseRelocation at *
  omega

/-- Everything that is touched of a block has a property. -/
def BlockHolds (holds : Access → Prop) (memory : ByteMemory) (block : Nat) : Prop :=
  holds ⟨.image, false, block + 4, 4⟩ ∧
    ∀ j ∈ List.range (entryCount (load memory 4 (block + 4))),
      (relocEntry 0 block memory j).All holds

theorem all_relocBlock (word : imageSize < 2 ^ 32) (block : Nat) :
    BlockHolds (Access.InBounds limit imageSize) memory block ↔
      BlockInside memory imageSize block := by
  have sizeWord := load_lt memory 4 (block + 4)
  simp only [BlockHolds, List.mem_range, all_relocEntry, inBounds_iff]
  constructor
  · rintro ⟨header, entries⟩
    have room : sizeofBaseRelocation ≤ load memory 4 (block + 4) := by
      by_contra small
      have many := entryCount_of_lt (Nat.lt_of_not_le small)
      have last := (entries (2 ^ 32 - 5) (by omega)).1
      omega
    have count := entryCount_eq sizeWord room
    constructor
    case header =>
      unfold sizeofBaseRelocation
      omega
    case size => exact room
    case entries =>
      by_cases empty : entryCount (load memory 4 (block + 4)) = 0
      · unfold sizeofBaseRelocation at *
        omega
      · have last := (entries (entryCount (load memory 4 (block + 4)) - 1) (by omega)).1
        omega
    case patches =>
      intro j inside relocated
      exact ((entries j (by omega)).2 relocated).2
  · intro inside
    have count := entryCount_eq sizeWord inside.size
    have header := inside.header
    have entries := inside.entries
    unfold sizeofBaseRelocation at header
    refine ⟨by omega, fun j less => ⟨by omega, fun relocated => ⟨by omega, ?_⟩⟩⟩
    exact inside.patches j (by omega) relocated

theorem all_relocBlocks_succ {holds : Access → Prop} (imageBase relocEnd fuel block : Nat)
    (before : (imageBase + block) % 2 ^ 64 < (imageBase + relocEnd) % 2 ^ 64) :
    (relocBlocks imageBase relocEnd 0 (fuel + 1) block memory).All holds ↔
      BlockHolds holds memory block ∧
      (relocBlocks imageBase relocEnd 0 fuel (block + load memory 4 (block + 4)) memory).All
        holds := by
  have fixed := @Traced.all_foldlM_of_fixed Access holds _ _
    (relocEntry 0 block) (List.range (entryCount (load memory 4 (block + 4)))) memory
    fun j _ => relocEntry_value block j
  have size : (readImage memory (block + 4) 4).All holds ↔ holds ⟨.image, false, block + 4, 4⟩ :=
    all_touch _ _
  rw [relocBlocks, if_pos before]
  simp only [all_bind, readImage_value, size, fixed.1, fixed.2]
  constructor
  · rintro ⟨header, entries, -, rest⟩
    exact ⟨⟨header, entries⟩, rest⟩
  · rintro ⟨⟨header, entries⟩, rest⟩
    exact ⟨header, entries, header, rest⟩

/-- The accesses of the relocation loop are those of its blocks. -/
theorem all_relocBlocks_iff {holds : Access → Prop} (imageBase relocEnd first : Nat) :
    (∀ fuel, (relocBlocks imageBase relocEnd 0 fuel first memory).All holds) ↔
      ∀ block, RelocBlock memory imageBase relocEnd first block →
        BlockHolds holds memory block := by
  constructor
  · intro all block walked
    -- every block that is reached has a walk of its own, of which the same holds
    have here : (imageBase + block) % 2 ^ 64 < (imageBase + relocEnd) % 2 ^ 64 ∧
        ∀ fuel, (relocBlocks imageBase relocEnd 0 fuel block memory).All holds := by
      induction walked with
      | first before => exact ⟨before, all⟩
      | next walked before ih =>
        refine ⟨before, fun fuel => ?_⟩
        exact ((all_relocBlocks_succ imageBase relocEnd fuel _ ih.1).mp (ih.2 (fuel + 1))).2
    exact ((all_relocBlocks_succ imageBase relocEnd 0 block here.1).mp (here.2 1)).1
  · intro blocks fuel
    suffices walk : ∀ block, (∀ later, RelocBlock memory imageBase relocEnd block later →
        BlockHolds holds memory later) →
        (relocBlocks imageBase relocEnd 0 fuel block memory).All holds from walk first blocks
    clear blocks
    induction fuel with
    | zero =>
      intro block _
      unfold relocBlocks
      split
      · exact all_pure _
      · exact all_pure _
    | succ fuel ih =>
      intro block blocks
      by_cases before : (imageBase + block) % 2 ^ 64 < (imageBase + relocEnd) % 2 ^ 64
      · refine (all_relocBlocks_succ imageBase relocEnd fuel block before).mpr
          ⟨blocks block (.first before), ih _ fun later walked => blocks later ?_⟩
        exact RelocBlock.of_next before walked
      · rw [relocBlocks, if_neg before]
        exact all_pure _

theorem delta_eq_zero (file : ByteMemory) :
    (ntField file offsetofImageBase 8 + (2 ^ 64 - ntField file offsetofImageBase 8)) % 2 ^ 64 =
      0 := by
  have word := field_lt file (ntHeaders file + offsetofImageBase) 8
  unfold ntField
  omega

theorem all_applyRelocations (accepted : Accepted file fileSize)
    (small : field file offsetofLfanew 4 < 2 ^ 31) :
    (∀ fuel, (applyRelocations fuel file (ntHeaders file) (ntField file offsetofImageBase 8)
        memory).All (Access.InBounds fileSize.toNat (sizeOfImage file))) ↔
      let directory := offsetofDataDirectory imageDirectoryEntryBasereloc
      let relocRva := ntField file directory 4
      let relocSize := ntField file (directory + 4) 4
      relocRva ≠ 0 → relocSize ≠ 0 → ∀ block,
        RelocBlock memory (ntField file offsetofImageBase 8) (relocRva + relocSize) relocRva
          block → BlockInside memory (sizeOfImage file) block := by
  dsimp only
  have header : ∀ {offset width : Nat}, offset + width ≤ sizeofNtHeaders →
      (readFile file (ntHeaders file + offset) width).All
        (Access.InBounds fileSize.toNat (sizeOfImage file)) :=
    fun inside => all_readFile_ntHeaders accepted small inside
  have word : sizeOfImage file < 2 ^ 32 := field_lt file _ 4
  unfold applyRelocations
  simp only [all_ite_pure, all_bind, Nat.add_assoc, readFile_ntHeaders, delta_eq_zero]
  simp only [← @all_relocBlock memory fileSize.toNat _ word]
  rw [← all_relocBlocks_iff]
  constructor
  · intro inside some more fuel
    exact ((inside fuel).2.2 (by omega)).2
  · intro inside fuel
    refine ⟨header (by decide), header (by decide), fun present => ⟨header (by decide), ?_⟩⟩
    exact inside (by omega) (by omega) fuel

/-- Once the pages are mapped every access is inside exactly if the file and the image have room
for what is copied and relocated. -/
theorem all_fillImage (accepted : Accepted file fileSize)
    (small : field file offsetofLfanew 4 < 2 ^ 31) (isExe : Bool) :
    (∀ fuel, (fillImage fuel file isExe (ntHeaders file) (sectionTable file) (sizeOfImage file)
        (ntField file offsetofImageBase 8) prior).All
        (Access.InBounds fileSize.toNat (sizeOfImage file))) ↔
      LoadInside file fileSize.toNat prior := by
  have header : ∀ {offset width : Nat}, offset + width ≤ sizeofNtHeaders →
      (readFile file (ntHeaders file + offset) width).All
        (Access.InBounds fileSize.toNat (sizeOfImage file)) :=
    fun inside => all_readFile_ntHeaders accepted small inside
  have count : ntField file offsetofNumberOfSections 2 < 2 ^ 16 := field_lt file _ 2
  have sections := @Traced.all_foldlM Access (Access.InBounds fileSize.toNat (sizeOfImage file)) _ _
    (copySection file (sectionTable file)) (List.range (ntField file offsetofNumberOfSections 2))
    (write (write prior 0 (List.replicate (sizeOfImage file) 0)) 0
      (read file 0 (ntField file offsetofSizeOfOptionalHeader 2 + sizeofFileHeader + 4)))
    (SectionInside file fileSize.toNat) fun i member memory =>
      all_copySection small (Nat.lt_trans (List.mem_range.mp member) count)
  have relocations := @all_applyRelocations file (copiedImage file prior) fileSize accepted small
  unfold fillImage
  simp only [all_bind, readFile_ntHeaders, rtlZeroMemory_value, rtlCopyMemory_value,
    sections, all_rtlCopyMemory, List.mem_range]
  constructor
  · intro inside
    obtain ⟨-, -, ⟨source, target⟩, -, each, -⟩ := inside 0
    constructor
    case headersInFile => omega
    case headersInImage => omega
    case sections => exact each
    case relocations => exact relocations.mp fun fuel => (inside fuel).2.2.2.2.2.1
  · intro inside fuel
    have source := inside.headersInFile
    have target := inside.headersInImage
    refine ⟨(all_rtlZeroMemory _).mpr (.inr (Nat.le_refl _)), header (by decide),
      ⟨by omega, by omega⟩, header (by decide), inside.sections,
      relocations.mpr inside.relocations fuel, ?_⟩
    split
    · exact all_pure _
    · simp only [all_bind]
      exact ⟨header (by decide), header (by decide), all_pure _⟩

/-- What a load of an accepted file touches is inside the file and the image exactly if `e_lfanew`
is not negative and, where the pages can be mapped, the headers, the sections and the relocations
are where they have to be. -/
theorem peLoadImage_inBounds_iff (accepted : (peValidateImage file fileSize).value = statusSuccess)
    (isExe : Bool) (pages : Nat → NtStatus) :
    (∀ fuel, (peLoadImage fuel file fileSize isExe pages prior).All
        (Access.InBounds fileSize.toNat (sizeOfImage file))) ↔
      Inside file fileSize.toNat pages prior := by
  have checks := accepted_iff.mp accepted
  have checked := @all_peValidateImage file fileSize (sizeOfImage file) checks
  have passed : ¬ ¬ ntSuccess statusSuccess := by decide
  unfold peLoadImage
  simp only [all_ite_pure, all_bind, accepted, checked]
  by_cases small : field file offsetofLfanew 4 < 2 ^ 31
  case neg =>
    exact iff_of_false (fun inside => small (inside 0).1) fun inside => small inside.e_lfanew
  have header : ∀ {offset width : Nat}, offset + width ≤ sizeofNtHeaders →
      (readFile file (ntHeaders file + offset) width).All
        (Access.InBounds fileSize.toNat (sizeOfImage file)) :=
    fun inside => all_readFile_ntHeaders checks small inside
  have dosHeader : (readFile file offsetofLfanew 4).All
      (Access.InBounds fileSize.toNat (sizeOfImage file)) := by
    have size := checks.size
    rw [all_readFile]
    unfold sizeofDosHeader at size
    unfold offsetofLfanew
    omega
  simp only [readFile_value file offsetofLfanew, signExtend_lfanew, readFile_ntHeaders,
    ntField_sizeOfImage, sectionTable_eq]
  cases mapped : mapPages pages (sizeOfImage file) with
  | some status =>
    refine iff_of_true (fun fuel => ⟨small, fun _ => ⟨dosHeader, header (by decide),
      header (by decide), header (by decide), all_pure _⟩⟩) ⟨small, fun none => ?_⟩
    rw [mapped] at none
    cases none
  | none =>
    have filled := @all_fillImage file prior fileSize checks small isExe
    simp only [all_bind]
    constructor
    · intro inside
      refine ⟨small, fun _ => filled.mp fun fuel => ?_⟩
      exact ((inside fuel).2 passed).2.2.2.2.1
    · intro inside fuel
      exact ⟨small, fun _ => ⟨dosHeader, header (by decide), header (by decide),
        header (by decide), filled.mpr (inside.load mapped) fuel, all_pure _⟩⟩

end Bounds

/-- A file of 1024 bytes with one section of 512 bytes, at the end of the file and at a place in an
image of 0x3000 bytes. -/
def oneSectionFile (virtualAddress : Nat) : ByteMemory :=
  [(2, 0, imageDosSignature), (4, 60, 64), (4, 64, imageNtSignature),
    (2, 68, imageFileMachineAmd64), (2, 70, 1), (2, 84, 240), (2, 88, 0x20B),
    (8, 112, 0x140000000), (4, 144, 0x3000), (4, 196, 16), (4, 332, 0x200),
    (4, 336, virtualAddress), (4, 340, 0x200), (4, 344, 0x200)].foldl
    (fun memory (width, address, value) => store memory width address value) fun _ => 0

/-- A section in the image. -/
theorem peLoadImage_inBounds_oneSection :
    (peValidateImage (oneSectionFile 0x1000) 1024).value = statusSuccess ∧
      ∀ fuel, (peLoadImage fuel (oneSectionFile 0x1000) 1024 true (fun _ => statusSuccess)
        fun _ => 0).All (Access.InBounds 1024 (sizeOfImage (oneSectionFile 0x1000))) := by
  have accepted : (peValidateImage (oneSectionFile 0x1000) 1024).value = statusSuccess := by
    decide +kernel
  refine ⟨accepted, (peLoadImage_inBounds_iff accepted true fun _ => statusSuccess).mpr
    ⟨by decide +kernel, fun _ => ⟨by decide +kernel, by decide +kernel, ?_, ?_⟩⟩⟩
  · have one : ntField (oneSectionFile 0x1000) offsetofNumberOfSections 2 = 1 := by decide +kernel
    rw [one]
    intro i less
    obtain rfl : i = 0 := by omega
    exact ⟨by decide +kernel, fun _ => by decide +kernel, fun _ _ => by decide +kernel,
      fun _ _ => by decide +kernel⟩
  · intro directory relocRva relocSize some
    exact absurd (show relocRva = 0 by decide +kernel) some

/-- A section behind the end of the image. -/
theorem not_peLoadImage_inBounds :
    (peValidateImage (oneSectionFile 0x3000) 1024).value = statusSuccess ∧
      ∃ access ∈ (peLoadImage 0 (oneSectionFile 0x3000) 1024 true (fun _ => statusSuccess)
        fun _ => 0).touched,
        access = ⟨.image, true, 0x3000, 0x200⟩ ∧
          ¬ access.InBounds 1024 (sizeOfImage (oneSectionFile 0x3000)) := by
  refine ⟨by decide +kernel, ⟨.image, true, 0x3000, 0x200⟩, by decide +kernel, rfl, ?_⟩
  intro inside
  have first := inside 0x3000 (by decide) (by decide)
  have size : sizeOfImage (oneSectionFile 0x3000) = 0x3000 := by decide +kernel
  rw [size] at first
  exact absurd first (by decide)

end MinNT.Ke.Pe
