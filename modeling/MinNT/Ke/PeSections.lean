import MinNT.Ke.PeLoaded

/-! Where the headers of a file say that its sections are, and where `PeLoadImage` puts them. -/

namespace MinNT.Ke.Pe

open List ByteMemory

def numberOfSections (file : ByteMemory) : Nat := ntField file offsetofNumberOfSections 2

def sizeOfOptionalHeader (file : ByteMemory) : Nat := ntField file offsetofSizeOfOptionalHeader 2

/-- The table stands behind the optional header, by the size that the file header gives. -/
def listedHeader (file : ByteMemory) (i : Nat) : Nat :=
  ntHeaders file + 4 + sizeofFileHeader + sizeOfOptionalHeader file + i * sizeofSectionHeader

def listedField (file : ByteMemory) (i offset : Nat) : Nat :=
  field file (listedHeader file i + offset) 4

def listedSize (file : ByteMemory) (i : Nat) : Nat :=
  min (listedField file i offsetofSizeOfRawData) (listedField file i offsetofVirtualSize)

/-- The header of no section. -/
def headersEnd (file : ByteMemory) : Nat := listedHeader file (numberOfSections file)

/-- What the headers say about one byte of the image. -/
structure Expected (file : ByteMemory) (address : Nat) (byte : UInt8) : Prop where
  headers : address < headersEnd file → byte = file address
  sections : ∀ i < numberOfSections file, ∀ k < listedSize file i,
    address = listedField file i offsetofVirtualAddress + k →
      byte = file (listedField file i offsetofPointerToRawData + k)
  outside : headersEnd file ≤ address →
    (∀ i < numberOfSections file, address < listedField file i offsetofVirtualAddress ∨
      listedField file i offsetofVirtualAddress + listedField file i offsetofVirtualSize ≤
        address) → byte = 0

/-- The image has what the headers say. -/
def SectionsMapped (file contents : ByteMemory) : Prop :=
  ∀ address < sizeOfImage file, Expected file address (contents address)

/-- The headers are in the file and in the image, and so are the sections, which are in
order and do not overlap. -/
structure WellFormed (file : ByteMemory) (fileSize : BitVec 32) : Prop where
  accepted : (peValidateImage file fileSize).value = statusSuccess
  e_lfanew : sizeofDosHeader ≤ ntHeaders file
  directories : ntField file offsetofNumberOfRvaAndSizes 4 ≤ 16
  optionalHeader : 112 + ntField file offsetofNumberOfRvaAndSizes 4 * sizeofDataDirectory ≤
    sizeOfOptionalHeader file
  headersInFile : headersEnd file ≤ fileSize.toNat
  headersInImage : headersEnd file ≤ sizeOfImage file
  sectionsInFile : ∀ i < numberOfSections file,
    listedField file i offsetofPointerToRawData + listedField file i offsetofSizeOfRawData ≤
      fileSize.toNat
  sectionsInImage : ∀ i < numberOfSections file,
    headersEnd file ≤ listedField file i offsetofVirtualAddress ∧
    listedField file i offsetofVirtualAddress + listedField file i offsetofVirtualSize ≤
      sizeOfImage file
  apart : ∀ j < numberOfSections file, ∀ i < j,
    listedField file i offsetofVirtualAddress + listedField file i offsetofVirtualSize ≤
      listedField file j offsetofVirtualAddress

/-- Section `i`, by the header that the loader takes for its own, is copied to an address. -/
def CopiesTo (file : ByteMemory) (i address : Nat) : Prop :=
  sectionField file i offsetofSizeOfRawData ≠ 0 ∧
    sectionField file i offsetofPointerToRawData ≠ 0 ∧
    sectionField file i offsetofVirtualAddress ≤ address ∧
    address < sectionField file i offsetofVirtualAddress + copySize file i

instance (file : ByteMemory) (i address : Nat) : Decidable (CopiesTo file i address) :=
  inferInstanceAs (Decidable (_ ∧ _))

/-- The number of bytes from the start of the file that are copied as its headers. -/
def copiedHeaders (file : ByteMemory) : Nat := sizeOfOptionalHeader file + sizeofFileHeader + 4

/-- The last section that is copied to an address. -/
structure LastCopy (file : ByteMemory) (i address : Nat) : Prop where
  listed : i < numberOfSections file
  copies : CopiesTo file i address
  last : ∀ j < numberOfSections file, i < j → ¬ CopiesTo file j address

/-- Where the byte stands in the file that section `i` brings to an address. -/
def broughtFrom (file : ByteMemory) (i address : Nat) : Nat :=
  sectionField file i offsetofPointerToRawData +
    (address - sectionField file i offsetofVirtualAddress)

/-- The loader takes the section table to begin 4 bytes early, or more. Sections by the headers that
it takes for theirs are copied onto the address in every listed header; what they bring repeats the
headers and the listed sections and is zero elsewhere, and what they leave out of these is zero. -/
structure MisreadHarmless (file : ByteMemory) : Prop where
  overTable : ∀ j < numberOfSections file, ∃ i < numberOfSections file, ∃ k < 4,
    CopiesTo file i (listedHeader file j + offsetofVirtualAddress + k)
  overHeaders : ∀ address < headersEnd file, ∀ i, LastCopy file i address →
    file (broughtFrom file i address) = file address
  overSections : ∀ j < numberOfSections file, ∀ k < listedSize file j,
    ∀ i, LastCopy file i (listedField file j offsetofVirtualAddress + k) →
      file (broughtFrom file i (listedField file j offsetofVirtualAddress + k)) =
        file (listedField file j offsetofPointerToRawData + k)
  elsewhere : ∀ address < sizeOfImage file, headersEnd file ≤ address →
    (∀ j < numberOfSections file, address < listedField file j offsetofVirtualAddress ∨
      listedField file j offsetofVirtualAddress + listedField file j offsetofVirtualSize ≤
        address) → ∀ i, LastCopy file i address → file (broughtFrom file i address) = 0
  headersLeft : ∀ address < headersEnd file, copiedHeaders file ≤ address →
    (∀ i < numberOfSections file, ¬ CopiesTo file i address) → file address = 0
  sectionsLeft : ∀ j < numberOfSections file, ∀ k < listedSize file j,
    (∀ i < numberOfSections file,
      ¬ CopiesTo file i (listedField file j offsetofVirtualAddress + k)) →
        file (listedField file j offsetofPointerToRawData + k) = 0

section Copies

variable {file memory prior : ByteMemory}

theorem copied_byte (source target length address : Nat) :
    write memory target (read file source length) address =
      if target ≤ address ∧ address < target + length then file (source + (address - target))
      else memory address := by
  split
  · rename_i inside
    rw [write_inside _ _ _ _ inside.1 (by rw [read_length]; exact inside.2),
      getD_eq_getElem?_getD, read_getElem? _ _ _ _ (by omega), Option.getD_some]
  · apply write_outside
    rw [read_length]
    omega

theorem copySection_byte (i address : Nat) :
    (copySection file (sectionTable file) memory i).value address =
      if CopiesTo file i address then file (broughtFrom file i address)
      else memory address := by
  have fields : ∀ offset, (readFile file (sectionTable file + i * sizeofSectionHeader + offset)
      4).value = sectionField file i offset := fun _ => rfl
  unfold copySection
  simp only [Traced.bind_value, fields]
  split
  · rename_i empty
    have none : ¬ CopiesTo file i address := fun copies => copies.1 empty
    rw [if_neg none, Traced.pure_value]
  · rename_i size
    rw [Traced.bind_value, fields]
    split
    · rename_i empty
      have none : ¬ CopiesTo file i address := fun copies => copies.2.1 empty
      rw [if_neg none, Traced.pure_value]
    · rename_i pointer
      simp only [Traced.bind_value, fields, rtlCopyMemory_value, copied_byte]
      by_cases copies : CopiesTo file i address
      · rw [if_pos copies]
        exact if_pos copies.2.2
      · rw [if_neg copies]
        exact if_neg (fun inside => copies ⟨size, pointer, inside⟩)

theorem copySections_byte (count address : Nat) :
    (∀ i < count, CopiesTo file i address → (∀ j < count, i < j → ¬ CopiesTo file j address) →
      ((range count).foldlM (copySection file (sectionTable file)) memory).value address =
        file (broughtFrom file i address)) ∧
    ((∀ i < count, ¬ CopiesTo file i address) →
      ((range count).foldlM (copySection file (sectionTable file)) memory).value address =
        memory address) := by
  induction count with
  | zero => exact ⟨fun i inside => absurd inside (Nat.not_lt_zero i), fun _ => rfl⟩
  | succ count ih =>
    rw [Traced.foldlM_value, range_succ, foldl_append, foldl_cons, foldl_nil,
      copySection_byte, ← Traced.foldlM_value]
    constructor
    · intro i inside copies last
      by_cases newest : CopiesTo file count address
      · have same : i = count := by
          by_contra other
          exact last count (Nat.lt_succ_self count) (by omega) newest
        rw [if_pos newest, same]
      · have earlier : i < count := by
          rcases Nat.lt_succ_iff_lt_or_eq.mp inside with earlier | here
          · exact earlier
          · rw [here] at copies
            exact absurd copies newest
        rw [if_neg newest]
        exact ih.1 i earlier copies (fun j below => last j (Nat.lt_succ_of_lt below))
    · intro none
      rw [if_neg (none count (Nat.lt_succ_self count))]
      exact ih.2 (fun i below => none i (Nat.lt_succ_of_lt below))

theorem headed_byte {address : Nat} (inside : address < sizeOfImage file) :
    write (write prior 0 (replicate (sizeOfImage file) 0)) 0
        (read file 0 (copiedHeaders file)) address =
      if address < copiedHeaders file then file address else 0 := by
  rw [copied_byte, Nat.zero_add, Nat.zero_add, Nat.sub_zero]
  simp only [Nat.zero_le, true_and]
  split
  · rfl
  · rw [write_inside _ _ _ _ (Nat.zero_le _) (by rw [length_replicate]; omega),
      Nat.sub_zero, getD_replicate]
    exact inside

theorem exists_last_copy {count address : Nat} (some : ¬ ∀ i < count, ¬ CopiesTo file i address) :
    ∃ i < count, CopiesTo file i address ∧
      ∀ j < count, i < j → ¬ CopiesTo file j address := by
  induction count with
  | zero => exact absurd (fun i inside => absurd inside (Nat.not_lt_zero i)) some
  | succ count ih =>
    by_cases newest : CopiesTo file count address
    · exact ⟨count, Nat.lt_succ_self count, newest, fun j below above => by omega⟩
    have earlier : ¬ ∀ i < count, ¬ CopiesTo file i address := by
      intro none
      apply some
      intro i inside
      rcases Nat.lt_succ_iff_lt_or_eq.mp inside with below | here
      · exact none i below
      · rw [here]
        exact newest
    obtain ⟨i, inside, copies, last⟩ := ih earlier
    refine ⟨i, Nat.lt_succ_of_lt inside, copies, fun j below above => ?_⟩
    rcases Nat.lt_succ_iff_lt_or_eq.mp below with before | here
    · exact last j before above
    · rw [here]
      exact newest

theorem copiedImage_copied {address i : Nat} (copy : LastCopy file i address) :
    copiedImage file prior address = file (broughtFrom file i address) :=
  (copySections_byte (numberOfSections file) address).1 i copy.listed copy.copies copy.last

theorem copiedImage_kept {address : Nat} (inside : address < sizeOfImage file)
    (none : ∀ i < numberOfSections file, ¬ CopiesTo file i address) :
    copiedImage file prior address = if address < copiedHeaders file then file address else 0 :=
  ((copySections_byte (numberOfSections file) address).2 none).trans (headed_byte inside)

theorem headersEnd_eq : headersEnd file =
    copiedHeaders file + ntHeaders file + numberOfSections file * 40 := by
  unfold headersEnd listedHeader copiedHeaders sizeofSectionHeader
  omega

/-- A listed header whose address nothing is copied over is not in the image. -/
theorem exists_overTable {fileSize : BitVec 32} (wellFormed : WellFormed file fileSize)
    (left : ∀ address < headersEnd file, copiedHeaders file ≤ address →
      (∀ i < numberOfSections file, ¬ CopiesTo file i address) → file address = 0)
    {j : Nat} (listed : j < numberOfSections file) :
    ∃ i < numberOfSections file, ∃ k < 4,
      CopiesTo file i (listedHeader file j + offsetofVirtualAddress + k) := by
  by_contra none
  push Not at none
  have front : copiedHeaders file ≤ listedHeader file j := by
    unfold listedHeader copiedHeaders
    omega
  have table : listedHeader file j + 40 ≤ headersEnd file := by
    unfold headersEnd listedHeader sizeofSectionHeader
    omega
  have small : headersEnd file < 2 ^ 64 := by
    have inFile := wellFormed.headersInFile
    omega
  -- sections stand behind the headers, at an address that is not zero
  have nonzero : listedField file j offsetofVirtualAddress ≠ 0 := by
    have behind := (wellFormed.sectionsInImage j listed).1
    omega
  apply nonzero
  unfold offsetofVirtualAddress at none
  unfold listedField field offsetofVirtualAddress
  rw [Nat.mod_eq_of_lt (by omega)]
  apply load_eq_zero
  intro address lower upper
  refine left address (by omega) (by omega) fun i inside copies => ?_
  apply none i inside (address - (listedHeader file j + 12)) (by omega)
  rwa [Nat.add_sub_cancel' lower]

/-- Without sections the image has what the headers say if the headers that are not copied are
zero. -/
theorem mapped_noSections_iff (none : numberOfSections file = 0)
    (fits : headersEnd file ≤ sizeOfImage file) :
    SectionsMapped file (copiedImage file prior) ↔
      ∀ k < ntHeaders file, file (copiedHeaders file + k) = 0 := by
  have behind := @headersEnd_eq file
  rw [none, Nat.zero_mul, Nat.add_zero] at behind
  have uncopied : ∀ address, ∀ i < numberOfSections file, ¬ CopiesTo file i address := by
    intro address i listed
    rw [none] at listed
    exact absurd listed (Nat.not_lt_zero i)
  constructor
  · intro mapped k inside
    have expected := (mapped (copiedHeaders file + k) (by omega)).headers (by omega)
    rw [copiedImage_kept (by omega) (uncopied _), if_neg (by omega)] at expected
    exact expected.symm
  · intro zeros address inside
    rw [copiedImage_kept inside (uncopied address)]
    constructor
    · intro inHeaders
      split
      · rfl
      · have zero := zeros (address - copiedHeaders file) (by omega)
        rw [Nat.add_sub_cancel' (by omega)] at zero
        exact zero.symm
    · intro i listed
      rw [none] at listed
      exact absurd listed (Nat.not_lt_zero i)
    · intro outside _
      exact if_neg (by omega)

/-- With sections the image has what the headers say if what is misread does no harm. -/
theorem mapped_sections_iff {fileSize : BitVec 32} (wellFormed : WellFormed file fileSize) :
    SectionsMapped file (copiedImage file prior) ↔ MisreadHarmless file := by
  have behind := @headersEnd_eq file
  have fits := wellFormed.headersInImage
  have inImage : ∀ j < numberOfSections file, ∀ k < listedSize file j,
      headersEnd file ≤ listedField file j offsetofVirtualAddress + k ∧
        listedField file j offsetofVirtualAddress + k < sizeOfImage file := by
    intro j listed k inside
    obtain ⟨front, back⟩ := wellFormed.sectionsInImage j listed
    unfold listedSize at inside
    omega
  constructor
  · intro mapped
    have left : ∀ address < headersEnd file, copiedHeaders file ≤ address →
        (∀ i < numberOfSections file, ¬ CopiesTo file i address) → file address = 0 := by
      intro address inHeaders uncut uncopied
      have expected := (mapped address (by omega)).headers inHeaders
      rw [copiedImage_kept (by omega) uncopied, if_neg (by omega)] at expected
      exact expected.symm
    refine ⟨fun j listed => exists_overTable wellFormed left listed, ?_, ?_, ?_, left, ?_⟩
    · intro address inHeaders i copy
      rw [← @copiedImage_copied file prior address i copy]
      exact (mapped address (by omega)).headers inHeaders
    · intro j listed k inside i copy
      rw [← @copiedImage_copied file prior _ i copy]
      exact (mapped _ (inImage j listed k inside).2).sections j listed k inside rfl
    · intro address inside outside apart i copy
      rw [← @copiedImage_copied file prior address i copy]
      exact (mapped address inside).outside outside apart
    · intro j listed k inside uncopied
      obtain ⟨front, back⟩ := inImage j listed k inside
      have expected := (mapped _ back).sections j listed k inside rfl
      rw [copiedImage_kept back uncopied, if_neg (by omega)] at expected
      exact expected.symm
  · intro harmless address inside
    by_cases none : ∀ i < numberOfSections file, ¬ CopiesTo file i address
    · rw [copiedImage_kept inside none]
      constructor
      · intro inHeaders
        split
        · rfl
        · exact (harmless.headersLeft address inHeaders (by omega) none).symm
      · intro j listed k within same
        obtain ⟨front, _⟩ := inImage j listed k within
        subst same
        rw [if_neg (by omega)]
        exact (harmless.sectionsLeft j listed k within none).symm
      · intro outside _
        exact if_neg (by omega)
    · obtain ⟨i, listed, copies, last⟩ := exists_last_copy none
      have copy : LastCopy file i address := ⟨listed, copies, last⟩
      rw [copiedImage_copied copy]
      constructor
      · exact fun inHeaders => harmless.overHeaders address inHeaders i copy
      · intro j listed k within same
        subst same
        exact harmless.overSections j listed k within i copy
      · exact fun outside apart => harmless.elsewhere address inside outside apart i copy

end Copies

/-- A file of 1024 bytes with the fields of its headers. -/
def fileOf (fields : List (Nat × Nat × Nat)) : ByteMemory :=
  fields.foldl (fun memory (width, address, value) => store memory width address value) fun _ => 0

/-- Headers with as many sections, and an image of 0x2000 bytes. -/
def headerFields (sections : Nat) : List (Nat × Nat × Nat) :=
  [(2, 0, imageDosSignature), (4, 60, 64), (4, 64, imageNtSignature),
    (2, 68, imageFileMachineAmd64), (2, 70, sections), (2, 84, 240), (2, 88, 0x20B),
    (8, 112, 0x140000000), (4, 144, 0x2000), (4, 196, 16)]

/-- A section `.text` that is one `ret`. -/
def textFile : ByteMemory :=
  fileOf (headerFields 1 ++ [(8, 328, 0x747865742E), (4, 336, 1), (4, 340, 0x1000),
    (4, 344, 0x200), (4, 348, 0x200), (1, 0x200, 0xC3)])

end MinNT.Ke.Pe
