import MinNT.Ke.PeLoadBounds

/-! What `PeLoadImage` leaves in the memory of an image. -/

namespace MinNT.Ke.Pe

open ByteMemory Traced

/-- The `PE_IMAGE` of a loaded file. -/
def imageOf (file : ByteMemory) (isExe : Bool) : PeImage where
  imageBase := ntField file offsetofImageBase 8
  mappedBase := ntField file offsetofImageBase 8
  entryPoint := (ntField file offsetofImageBase 8 + ntField file offsetofAddressOfEntryPoint 4) %
    2 ^ 64
  imageSize := sizeOfImage file
  numberOfSections := ntField file offsetofNumberOfSections 2
  sections := sectionTable file % 2 ^ 64
  imports :=
    if ntField file (offsetofDataDirectory imageDirectoryEntryImport) 4 = 0 then none
    else some ((ntField file offsetofImageBase 8 +
      ntField file (offsetofDataDirectory imageDirectoryEntryImport) 4) % 2 ^ 64)
  isExe := isExe

section Values

variable {file memory prior : ByteMemory} {fileSize : BitVec 32}

theorem relocEntries_value (block count : Nat) :
    ((List.range count).foldlM (relocEntry 0 block) memory).value = memory :=
  (@Traced.all_foldlM_of_fixed Access (fun _ => True) _ _ (relocEntry 0 block) (List.range count)
    memory fun j _ => relocEntry_value block j).2

theorem relocBlocks_value {imageBase relocEnd fuel block : Nat} {after : ByteMemory}
    (done : (relocBlocks imageBase relocEnd 0 fuel block memory).value = some after) :
    after = memory := by
  induction fuel generalizing block with
  | zero =>
    unfold relocBlocks at done
    by_cases before : (imageBase + block) % 2 ^ 64 < (imageBase + relocEnd) % 2 ^ 64
    · rw [if_pos before, pure_value] at done
      cases done
    · rw [if_neg before, pure_value] at done
      exact (Option.some.inj done).symm
  | succ fuel ih =>
    unfold relocBlocks at done
    by_cases before : (imageBase + block) % 2 ^ 64 < (imageBase + relocEnd) % 2 ^ 64
    · rw [if_pos before] at done
      simp only [bind_value, readImage_value, relocEntries_value] at done
      exact ih done
    · rw [if_neg before, pure_value] at done
      exact (Option.some.inj done).symm

theorem applyRelocations_value {fuel : Nat} {after : ByteMemory}
    (done : (applyRelocations fuel file (ntHeaders file) (ntField file offsetofImageBase 8)
      memory).value = some after) : after = memory := by
  unfold applyRelocations at done
  simp only [bind_value, readFile_ntHeaders] at done
  split at done
  · exact (Option.some.inj done).symm
  · simp only [bind_value, readFile_ntHeaders, delta_eq_zero] at done
    exact relocBlocks_value done

theorem fillImage_value {fuel : Nat} {isExe : Bool} {image : PeImage} {contents : ByteMemory}
    (done : (fillImage fuel file isExe (ntHeaders file) (sectionTable file) (sizeOfImage file)
      (ntField file offsetofImageBase 8) prior).value = some (image, contents)) :
    image = imageOf file isExe ∧ contents = copiedImage file prior := by
  unfold fillImage at done
  simp only [bind_value, readFile_ntHeaders, rtlZeroMemory_value, rtlCopyMemory_value] at done
  cases relocated : (applyRelocations fuel file (ntHeaders file) (ntField file offsetofImageBase 8)
      (copiedImage file prior)).value with
  | none =>
    unfold copiedImage at relocated
    rw [relocated] at done
    simp only [pure_value, reduceCtorEq] at done
  | some after =>
    have same := applyRelocations_value relocated
    unfold copiedImage at relocated
    rw [relocated] at done
    simp only [bind_value, readFile_ntHeaders, pure_value] at done
    obtain ⟨record, memory⟩ := Prod.mk.inj (Option.some.inj done)
    exact ⟨record.symm, memory.symm.trans same⟩

/-- A load that succeeds is of an accepted file, and it leaves the copied headers and sections. -/
theorem peLoadImage_value {fuel : Nat} {isExe : Bool} {pages : Nat → NtStatus} {image : PeImage}
    {contents : ByteMemory}
    (done : (peLoadImage fuel file fileSize isExe pages prior).value =
      some (statusSuccess, some (image, contents))) :
    image = imageOf file isExe ∧ contents = copiedImage file prior := by
  unfold peLoadImage at done
  rw [bind_value] at done
  split at done
  · simp only [pure_value, Option.some.injEq, Prod.mk.injEq, reduceCtorEq, and_false] at done
  simp only [bind_value, readFile_value file offsetofLfanew, signExtend_lfanew,
    readFile_ntHeaders, ntField_sizeOfImage, sectionTable_eq] at done
  split at done
  · simp only [pure_value, Option.some.injEq, Prod.mk.injEq, reduceCtorEq, and_false]
      at done
  · simp only [bind_value, pure_value, Option.map_eq_some_iff, Prod.mk.injEq,
      true_and, Option.some.injEq] at done
    obtain ⟨⟨found, memory⟩, filled, same⟩ := done
    obtain ⟨rfl, rfl⟩ := Prod.mk.inj same
    exact fillImage_value filled

/-- An accepted image without relocations is loaded. -/
theorem peLoadImage_success (accepted : (peValidateImage file fileSize).value = statusSuccess)
    {pages : Nat → NtStatus} (mapped : mapPages pages (sizeOfImage file) = none)
    (unrelocated : ntField file (offsetofDataDirectory imageDirectoryEntryBasereloc) 4 = 0)
    (fuel : Nat) (isExe : Bool) :
    (peLoadImage fuel file fileSize isExe pages prior).value =
      some (statusSuccess, some (imageOf file isExe, copiedImage file prior)) := by
  have relocated : ∀ memory, (applyRelocations fuel file (ntHeaders file)
      (ntField file offsetofImageBase 8) memory).value = some memory := by
    intro memory
    unfold applyRelocations
    simp only [bind_value, readFile_ntHeaders]
    rw [if_pos (Or.inl unrelocated), pure_value]
  have passed : ¬ ¬ ntSuccess statusSuccess := by decide
  unfold peLoadImage fillImage
  rw [bind_value, accepted, if_neg passed]
  simp only [bind_value, readFile_value file offsetofLfanew, signExtend_lfanew,
    readFile_ntHeaders, ntField_sizeOfImage, sectionTable_eq, mapped, rtlZeroMemory_value,
    rtlCopyMemory_value, relocated, pure_value, Option.map_some]
  rfl

end Values

end MinNT.Ke.Pe
