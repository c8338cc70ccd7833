import MinNT.Lib.ByteMemory
import MinNT.Lib.Traced
import MinNT.Lib.TwosComplement
import MinNT.NtStatus

/-! `PeLoadImage` of `ke/pe.c`. The file is a memory of its own, addressed from `FileBase`, and so
is the image, addressed from where it is mapped; a trace says what is touched of both. -/

namespace MinNT.Ke.Pe

open ByteMemory

inductive Region where
  | file
  | image
deriving DecidableEq, Repr

/-- Bytes that are read or written. -/
structure Access where
  region : Region
  write : Bool
  offset : Nat
  size : Nat
deriving DecidableEq, Repr

def imageDosSignature : Nat := 0x5A4D
def imageNtSignature : Nat := 0x00004550
def imageFileMachineAmd64 : Nat := 0x8664
def imageRelBasedDir64 : Nat := 10
def pageSize : Nat := 4096

def sizeofDosHeader : Nat := 64
def sizeofNtHeaders : Nat := 264
def sizeofFileHeader : Nat := 20
def sizeofSectionHeader : Nat := 40
def sizeofDataDirectory : Nat := 8
def sizeofBaseRelocation : Nat := 8

def offsetofLfanew : Nat := 60

/-! In `IMAGE_NT_HEADERS`. -/

def offsetofMachine : Nat := 4
def offsetofNumberOfSections : Nat := 6
def offsetofSizeOfOptionalHeader : Nat := 20
def offsetofMagic : Nat := 24
def offsetofAddressOfEntryPoint : Nat := 40
def offsetofImageBase : Nat := 48
def offsetofSizeOfImage : Nat := 80
def offsetofNumberOfRvaAndSizes : Nat := 132
def offsetofDataDirectory (entry : Nat) : Nat := 136 + entry * sizeofDataDirectory

/-! In `IMAGE_SECTION_HEADER`. -/

def offsetofVirtualSize : Nat := 8
def offsetofVirtualAddress : Nat := 12
def offsetofSizeOfRawData : Nat := 16
def offsetofPointerToRawData : Nat := 20

def imageDirectoryEntryExport : Nat := 0
def imageDirectoryEntryImport : Nat := 1
def imageDirectoryEntryBasereloc : Nat := 5

/-- A field of the file; the address wraps in 64 bits. -/
def field (file : ByteMemory) (offset width : Nat) : Nat := load file width (offset % 2 ^ 64)

def readFile (file : ByteMemory) (offset width : Nat) : Traced Access Nat :=
  Traced.touch ⟨.file, false, offset % 2 ^ 64, width⟩ (field file offset width)

def readImage (memory : ByteMemory) (offset width : Nat) : Traced Access Nat :=
  Traced.touch ⟨.image, false, offset, width⟩ (load memory width offset)

/-- The offset that a `LONG` adds to an address. -/
def signExtend (long : Nat) : Nat := TwosComplement.word 8 (TwosComplement.value 4 long)

/-- `DosHeader + DosHeader->e_lfanew`. -/
def ntHeaders (file : ByteMemory) : Nat := signExtend (field file offsetofLfanew 4)

/-- A field of the NT headers. -/
def ntField (file : ByteMemory) (offset width : Nat) : Nat :=
  field file (ntHeaders file + offset) width

def peValidateImage (file : ByteMemory) (fileSize : BitVec 32) : Traced Access NtStatus :=
  if fileSize.toNat < sizeofDosHeader then pure statusInvalidImageFormat
  else do
    let e_magic ← readFile file 0 2
    if e_magic ≠ imageDosSignature then return statusInvalidImageFormat
    let e_lfanew ← readFile file offsetofLfanew 4
    if e_lfanew + sizeofNtHeaders > fileSize.toNat then return statusInvalidImageFormat
    let ntHeaders := signExtend e_lfanew
    let signature ← readFile file ntHeaders 4
    if signature ≠ imageNtSignature then return statusInvalidImageFormat
    let machine ← readFile file (ntHeaders + offsetofMachine) 2
    if machine ≠ imageFileMachineAmd64 then return statusInvalidImageFormat
    let magic ← readFile file (ntHeaders + offsetofMagic) 2
    if magic ≠ 0x20B then return statusInvalidImageFormat
    return statusSuccess

structure PeImage where
  imageBase : Nat
  mappedBase : Nat
  entryPoint : Nat
  imageSize : Nat
  numberOfSections : Nat
  /-- The section headers, which are those of the file. -/
  sections : Nat
  imports : Option Nat
  isExe : Bool
deriving DecidableEq, Repr

/-- The first page that is not mapped ends the load with its status: `STATUS_NO_MEMORY` without a
physical page, and else that of `MmMapPage`. -/
def mapPages (pages : Nat → NtStatus) (imageSize : Nat) : Option NtStatus :=
  ((List.range ((imageSize + (pageSize - 1)) / pageSize)).map pages).find? fun status =>
    !ntSuccess status

def rtlZeroMemory (memory : ByteMemory) (length : Nat) : Traced Access ByteMemory :=
  Traced.touch ⟨.image, true, 0, length⟩ (write memory 0 (List.replicate length 0))

/-- `RtlCopyMemory` from the file to the image. -/
def rtlCopyMemory (file : ByteMemory) (source : Nat) (memory : ByteMemory) (target length : Nat) :
    Traced Access ByteMemory := do
  let bytes ← Traced.touch ⟨.file, false, source, length⟩ (read file source length)
  Traced.touch ⟨.image, true, target, length⟩ (write memory target bytes)

def copySection (file : ByteMemory) (sections : Nat) (memory : ByteMemory) (i : Nat) :
    Traced Access ByteMemory := do
  let header := sections + i * sizeofSectionHeader
  let sizeOfRawData ← readFile file (header + offsetofSizeOfRawData) 4
  if sizeOfRawData = 0 then return memory
  let pointerToRawData ← readFile file (header + offsetofPointerToRawData) 4
  if pointerToRawData = 0 then return memory
  let virtualSize ← readFile file (header + offsetofVirtualSize) 4
  let virtualAddress ← readFile file (header + offsetofVirtualAddress) 4
  rtlCopyMemory file pointerToRawData memory virtualAddress (min sizeOfRawData virtualSize)

/-- `SizeOfBlock - sizeof(IMAGE_BASE_RELOCATION)` is taken in 64 bits, the count in 32. -/
def entryCount (sizeOfBlock : Nat) : Nat :=
  (sizeOfBlock + (2 ^ 64 - sizeofBaseRelocation)) % 2 ^ 64 / 2 % 2 ^ 32

/-- One entry of the block that stands at `relocBase` in the image. -/
def relocEntry (delta relocBase : Nat) (memory : ByteMemory) (j : Nat) :
    Traced Access ByteMemory := do
  let entry ← readImage memory (relocBase + sizeofBaseRelocation + j * 2) 2
  if entry / 2 ^ 12 ≠ imageRelBasedDir64 then return memory
  let virtualAddress ← readImage memory relocBase 4
  let patch := virtualAddress + entry % 2 ^ 12
  let value ← readImage memory patch 8
  Traced.touch ⟨.image, true, patch, 8⟩ (store memory 8 patch (value + delta))

/-- The blocks from `relocBase` on, as many as the fuel is for; pointers are compared as 64-bit
addresses. -/
def relocBlocks (imageBase relocEnd delta : Nat) :
    Nat → Nat → ByteMemory → Traced Access (Option ByteMemory)
  | fuel, relocBase, memory =>
      if (imageBase + relocBase) % 2 ^ 64 < (imageBase + relocEnd) % 2 ^ 64 then
        match fuel with
        | 0 => pure none
        | fuel + 1 => do
            let sizeOfBlock ← readImage memory (relocBase + 4) 4
            let memory ← (List.range (entryCount sizeOfBlock)).foldlM (relocEntry delta relocBase)
              memory
            let sizeOfBlock ← readImage memory (relocBase + 4) 4
            relocBlocks imageBase relocEnd delta fuel (relocBase + sizeOfBlock) memory
      else pure (some memory)

def applyRelocations (fuel : Nat) (file : ByteMemory) (ntHeaders imageBase : Nat)
    (memory : ByteMemory) : Traced Access (Option ByteMemory) := do
  let directory := ntHeaders + offsetofDataDirectory imageDirectoryEntryBasereloc
  let relocRva ← readFile file directory 4
  let relocSize ← readFile file (directory + 4) 4
  if relocRva = 0 ∨ relocSize = 0 then return some memory
  let preferredBase ← readFile file (ntHeaders + offsetofImageBase) 8
  let delta := (imageBase + (2 ^ 64 - preferredBase)) % 2 ^ 64
  relocBlocks imageBase (relocRva + relocSize) delta fuel relocRva memory

/-- `PeLoadImage` from where the pages of the image are mapped on; `none` if the fuel does not last
for the relocations. -/
def fillImage (fuel : Nat) (file : ByteMemory) (isExe : Bool)
    (ntHeaders sections imageSize imageBase : Nat) (prior : ByteMemory) :
    Traced Access (Option (PeImage × ByteMemory)) := do
  let zeroed ← rtlZeroMemory prior imageSize
  let sizeOfOptionalHeader ← readFile file (ntHeaders + offsetofSizeOfOptionalHeader) 2
  let headed ← rtlCopyMemory file 0 zeroed 0 (sizeOfOptionalHeader + sizeofFileHeader + 4)
  let numberOfSections ← readFile file (ntHeaders + offsetofNumberOfSections) 2
  let copied ← (List.range numberOfSections).foldlM (copySection file sections) headed
  match ← applyRelocations fuel file ntHeaders imageBase copied with
  | none => return none
  | some relocated =>
      let addressOfEntryPoint ← readFile file (ntHeaders + offsetofAddressOfEntryPoint) 4
      let importRva ←
        readFile file (ntHeaders + offsetofDataDirectory imageDirectoryEntryImport) 4
      return some (
        { imageBase := imageBase
          mappedBase := imageBase
          entryPoint := (imageBase + addressOfEntryPoint) % 2 ^ 64
          imageSize := imageSize
          numberOfSections := numberOfSections
          sections := sections % 2 ^ 64
          imports := if importRva = 0 then none else some ((imageBase + importRva) % 2 ^ 64)
          isExe := isExe }, relocated)

/-- `PeLoadImage` with the pages that can be had and what the memory of the image holds before;
`none` if the fuel does not last. -/
def peLoadImage (fuel : Nat) (file : ByteMemory) (fileSize : BitVec 32) (isExe : Bool)
    (pages : Nat → NtStatus) (prior : ByteMemory) :
    Traced Access (Option (NtStatus × Option (PeImage × ByteMemory))) := do
  let status ← peValidateImage file fileSize
  if ¬ ntSuccess status then return some (status, none)
  let e_lfanew ← readFile file offsetofLfanew 4
  let ntHeaders := signExtend e_lfanew
  let numberOfRvaAndSizes ← readFile file (ntHeaders + offsetofNumberOfRvaAndSizes) 4
  let sections := ntHeaders + offsetofNumberOfRvaAndSizes +
    numberOfRvaAndSizes * sizeofDataDirectory
  let imageSize ← readFile file (ntHeaders + offsetofSizeOfImage) 4
  let imageBase ← readFile file (ntHeaders + offsetofImageBase) 8
  match mapPages pages imageSize with
  | some status => return some (status, none)
  | none =>
      let loaded ← fillImage fuel file isExe ntHeaders sections imageSize imageBase prior
      return loaded.map fun image => (statusSuccess, some image)

end MinNT.Ke.Pe
