import MinNT.Ke.PeLoad

/-! Exports, the module list and `PeResolveImports` of `ke/pe.c`, in the address space in which the
images are mapped. -/

namespace MinNT.Ke.Pe

open ByteMemory

def sizeofImportDescriptor : Nat := 20
def imageOrdinalFlag64 : Nat := 2 ^ 63
def imageScnCntCode : Nat := 0x00000020
def imageScnCntInitializedData : Nat := 0x00000040

/-! In `IMAGE_SECTION_HEADER`. -/

def offsetofCharacteristics : Nat := 36

/-! In `IMAGE_EXPORT_DIRECTORY`. -/

def offsetofBase : Nat := 16
def offsetofNumberOfFunctions : Nat := 20
def offsetofNumberOfNames : Nat := 24
def offsetofAddressOfFunctions : Nat := 28
def offsetofAddressOfNames : Nat := 32
def offsetofAddressOfNameOrdinals : Nat := 36

/-! In `IMAGE_IMPORT_DESCRIPTOR`. -/

def offsetofOriginalFirstThunk : Nat := 0
def offsetofName : Nat := 12
def offsetofFirstThunk : Nat := 16

/-- The `Name` of an `IMAGE_IMPORT_BY_NAME`. -/
def offsetofImportName : Nat := 2

def signedChar (c : UInt8) : Int := TwosComplement.value 1 c.toNat

def lowerByte (c : UInt8) : UInt8 := if 0x41 ≤ c ∧ c ≤ 0x5A then c + 32 else c

/-- `_stricmp`, as far as the fuel lasts. -/
def stricmp (memory : ByteMemory) : Nat → Nat → Nat → Option Int
  | 0, _, _ => none
  | fuel + 1, s1, s2 =>
      let a := memory (s1 % 2 ^ 64)
      let b := memory (s2 % 2 ^ 64)
      if a ≠ 0 ∧ b ≠ 0 then
        if lowerByte a ≠ lowerByte b then
          some (signedChar (lowerByte a) - signedChar (lowerByte b))
        else stricmp memory fuel (s1 + 1) (s2 + 1)
      else some (signedChar a - signedChar b)

/-- The string at an address, as `RtlStringLength` runs over it. -/
def stringAt (memory : ByteMemory) : Nat → Nat → Option (List UInt8)
  | 0, _ => none
  | fuel + 1, s =>
      if memory (s % 2 ^ 64) = 0 then some []
      else (stringAt memory fuel (s + 1)).map (memory (s % 2 ^ 64) :: ·)

/-- The NT headers of a mapped image are looked for behind the DOS header. -/
def mappedHeaders (image : PeImage) : Nat := image.mappedBase + sizeofDosHeader

def peGetExportDirectory (memory : ByteMemory) (image : PeImage) : Option Nat :=
  let directory := mappedHeaders image + offsetofDataDirectory imageDirectoryEntryExport
  let exportRva := field memory directory 4
  let exportSize := field memory (directory + 4) 4
  if exportRva = 0 ∨ exportSize = 0 then none else some (image.mappedBase + exportRva)

/-- The loop of `PeFindExportByName` over the names from `i` on. -/
def findName (fuel : Nat) (memory : ByteMemory) (image : PeImage) (expDir nameToFind : Nat) :
    Nat → Nat → Option Nat
  | 0, _ => some 0
  | remaining + 1, i =>
      let addressOfFunctions :=
        image.mappedBase + field memory (expDir + offsetofAddressOfFunctions) 4
      let addressOfNames := image.mappedBase + field memory (expDir + offsetofAddressOfNames) 4
      let addressOfNameOrdinals :=
        image.mappedBase + field memory (expDir + offsetofAddressOfNameOrdinals) 4
      let name := image.mappedBase + field memory (addressOfNames + i * 4) 4
      match stricmp memory fuel name nameToFind with
      | none => none
      | some difference =>
          let ordinal := field memory (addressOfNameOrdinals + i * 2) 2
          if difference = 0 ∧ ordinal < field memory (expDir + offsetofNumberOfFunctions) 4 ∧
              field memory (addressOfFunctions + ordinal * 4) 4 ≠ 0 then
            some ((field memory (expDir + offsetofBase) 4 + ordinal) % 2 ^ 32)
          else findName fuel memory image expDir nameToFind remaining (i + 1)

def peFindExportByName (fuel : Nat) (memory : ByteMemory) (image : PeImage) (nameToFind : Nat) :
    Option Nat :=
  match peGetExportDirectory memory image with
  | none => some 0
  | some expDir =>
      findName fuel memory image expDir nameToFind
        (field memory (expDir + offsetofNumberOfNames) 4) 0

def peFindExportByOrdinal (memory : ByteMemory) (image : PeImage) (ordinal : Nat) : Nat :=
  match peGetExportDirectory memory image with
  | none => 0
  | some expDir =>
      let base := field memory (expDir + offsetofBase) 4
      let targetOrdinal := (ordinal + (2 ^ 32 - base)) % 2 ^ 32
      if targetOrdinal ≥ field memory (expDir + offsetofNumberOfFunctions) 4 then 0
      else
        let addressOfFunctions :=
          image.mappedBase + field memory (expDir + offsetofAddressOfFunctions) 4
        if field memory (addressOfFunctions + targetOrdinal * 4) 4 = 0 then 0
        else (base + targetOrdinal) % 2 ^ 32

/-- A section of code or of initialized data has the address, or else the image has it by the low
32 bits of its base. -/
def resolvable (memory : ByteMemory) (image : PeImage) (exportRva : Nat) : Bool :=
  let headers := mappedHeaders image
  let sections := headers + offsetofNumberOfRvaAndSizes +
    field memory (headers + offsetofNumberOfRvaAndSizes) 4 * sizeofDataDirectory
  let inSection := fun i =>
    let header := sections + i * sizeofSectionHeader
    let sectionRva := field memory (header + offsetofVirtualAddress) 4
    let sectionSize := field memory (header + offsetofVirtualSize) 4
    let characteristics := field memory (header + offsetofCharacteristics) 4
    exportRva ≥ sectionRva && exportRva < (sectionRva + sectionSize) % 2 ^ 32 &&
      (characteristics &&& imageScnCntCode != 0 ||
        characteristics &&& imageScnCntInitializedData != 0)
  let low := image.mappedBase % 2 ^ 32
  (List.range (field memory (headers + offsetofNumberOfSections) 2)).any inSection ||
    (exportRva ≥ low && exportRva < (low + image.imageSize) % 2 ^ 32)

/-- `PeResolveExport`, 0 for `NULL`. -/
def peResolveExport (memory : ByteMemory) (image : PeImage) (exportRva : Nat) : Nat :=
  if resolvable memory image exportRva then (image.mappedBase + exportRva) % 2 ^ 64 else 0

/-- A `PE_MODULE`; a module without a name buffer has no name. -/
structure PeModule where
  name : Option (List UInt16)
  image : PeImage
deriving DecidableEq, Repr

/-- The `WCHAR` of a `CHAR`, which is signed. -/
def widen (c : UInt8) : UInt16 := if c < 0x80 then c.toUInt16 else 0xFF00 + c.toUInt16

def upcaseWide (c : UInt16) : UInt16 := if 0x61 ≤ c ∧ c ≤ 0x7A then c - 32 else c

/-- `PeFindModuleHandle`; the pool may refuse the wide copy of the name. -/
def peFindModuleHandle (allocates : Bool) (modules : List PeModule) (dllName : List UInt8) :
    Option PeImage :=
  (modules.find? fun loaded =>
    match loaded.name with
    | none => false
    | some name =>
        let length := dllName.length * 2 % 2 ^ 16
        name.length * 2 % 2 ^ 16 == length && allocates &&
          (name.take (length / 2)).map upcaseWide ==
            ((dllName.map widen).take (length / 2)).map upcaseWide).map PeModule.image

/-- What is stored in the slot of a thunk. -/
def importAddress (fuel : Nat) (memory : ByteMemory) (imageBase : Nat) (target : PeImage)
    (thunk : Nat) : Option Nat :=
  let resolve := fun exportRva =>
    if exportRva ≠ 0 then peResolveExport memory target exportRva else 0
  if thunk ≥ imageOrdinalFlag64 then
    some (resolve (peFindExportByOrdinal memory target (thunk % 2 ^ 16)))
  else (peFindExportByName fuel memory target (imageBase + thunk + offsetofImportName)).map resolve

/-- The loop over the thunks of a descriptor. -/
def bindThunks (imageBase : Nat) (target : PeImage) :
    Nat → ByteMemory → Nat → Nat → Option ByteMemory
  | 0, _, _, _ => none
  | fuel + 1, memory, origThunk, iatThunk =>
      let thunk := field memory origThunk 8
      if thunk = 0 then some memory
      else
        match importAddress fuel memory imageBase target thunk with
        | none => none
        | some address =>
            bindThunks imageBase target fuel (store memory 8 (iatThunk % 2 ^ 64) address)
              (origThunk + 8) (iatThunk + 8)

/-- The loop over the descriptors. -/
def bindDescriptors (allocates : Bool) (modules : List PeModule) (imageBase : Nat) :
    Nat → ByteMemory → Nat → Option ByteMemory
  | 0, _, _ => none
  | fuel + 1, memory, importDesc =>
      let name := field memory (importDesc + offsetofName) 4
      if name = 0 then some memory
      else
        match stringAt memory fuel (imageBase + name) with
        | none => none
        | some dllName =>
            match peFindModuleHandle allocates modules dllName with
            | none =>
                bindDescriptors allocates modules imageBase fuel memory
                  (importDesc + sizeofImportDescriptor)
            | some target =>
                let original := field memory (importDesc + offsetofOriginalFirstThunk) 4
                let first := field memory (importDesc + offsetofFirstThunk) 4
                let origThunk := imageBase + if original ≠ 0 then original else first
                match bindThunks imageBase target fuel memory origThunk (imageBase + first) with
                | none => none
                | some bound =>
                    bindDescriptors allocates modules imageBase fuel bound
                      (importDesc + sizeofImportDescriptor)

/-- `PeResolveImports`, which always succeeds; `none` if the fuel does not last. -/
def peResolveImports (fuel : Nat) (allocates : Bool) (modules : List PeModule)
    (memory : ByteMemory) (image : PeImage) : Option ByteMemory :=
  match image.imports with
  | none => some memory
  | some importDesc => bindDescriptors allocates modules image.mappedBase fuel memory importDesc

end MinNT.Ke.Pe
