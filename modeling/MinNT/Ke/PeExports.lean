import MinNT.Ke.PeImports
import MinNT.Ke.PeLoaded

/-! What the lookups of exports find in the export tables of a mapped image. -/

namespace MinNT.Ke.Pe

open List ByteMemory

/-- A string with its terminator. -/
def HoldsString (memory : ByteMemory) (address : Nat) (chars : List UInt8) : Prop :=
  read memory address (chars.length + 1) = chars ++ [0] ∧ 0 ∉ chars

instance (memory : ByteMemory) (address : Nat) (chars : List UInt8) :
    Decidable (HoldsString memory address chars) := inferInstanceAs (Decidable (_ ∧ _))

/-- Names that differ at most in case have the same. -/
def foldBytes (chars : List UInt8) : List UInt8 := chars.map lowerByte

section Strings

variable {memory : ByteMemory}

theorem HoldsString.nil {s : Nat} (held : HoldsString memory s []) : memory s = 0 :=
  (@read_eq_cons memory s 0 [] held.1).1

variable {chars : List UInt8}

theorem HoldsString.cons {s : Nat} {c : UInt8} (held : HoldsString memory s (c :: chars)) :
    memory s = c ∧ c ≠ 0 ∧ HoldsString memory (s + 1) chars := by
  have whole : read memory s (c :: (chars ++ [0])).length = c :: (chars ++ [0]) := by
    have bytes := held.1
    rwa [length_cons, length_append]
  obtain ⟨first, rest⟩ := read_eq_cons whole
  rw [length_append] at rest
  exact ⟨first, fun zero => held.2 (zero ▸ mem_cons_self),
    rest, fun member => held.2 (mem_cons_of_mem _ member)⟩

theorem HoldsString.congr {before after : ByteMemory} {s : Nat} (held : HoldsString before s chars)
    (same : SameInside before after s (s + chars.length + 1)) : HoldsString after s chars := by
  refine ⟨?_, held.2⟩
  rw [read_congr before after s (chars.length + 1) fun index first last =>
    same index first (by omega)]
  exact held.1

theorem stringAt_eq {s fuel : Nat} (held : HoldsString memory s chars)
    (inside : s + chars.length < 2 ^ 64) (enough : chars.length < fuel) :
    stringAt memory fuel s = some chars := by
  induction chars generalizing s fuel with
  | nil =>
    obtain ⟨fuel, rfl⟩ : ∃ less, fuel = less + 1 := ⟨fuel - 1, by omega⟩
    rw [length_nil, Nat.add_zero] at inside
    rw [stringAt, Nat.mod_eq_of_lt inside, if_pos held.nil]
  | cons c chars ih =>
    obtain ⟨fuel, rfl⟩ : ∃ less, fuel = less + 1 := ⟨fuel - 1, by omega⟩
    rw [length_cons] at inside enough
    obtain ⟨first, some, rest⟩ := held.cons
    have here : memory (s % 2 ^ 64) = c := by
      rw [Nat.mod_eq_of_lt (by omega), first]
    rw [stringAt, here, if_neg some, ih rest (by omega) (by omega)]
    rfl

theorem signedChar_sub_eq_zero (a b : UInt8) : signedChar a - signedChar b = 0 ↔ a = b := by
  have smallA := a.toNat_lt
  have smallB := b.toNat_lt
  rw [← UInt8.toNat_inj]
  unfold signedChar TwosComplement.value
  split <;> split <;> omega

/-- The comparison of two strings is that of their folded bytes. -/
theorem stricmp_eq {s1 s2 fuel : Nat} {a b : List UInt8} (left : HoldsString memory s1 a)
    (right : HoldsString memory s2 b) (leftInside : s1 + a.length < 2 ^ 64)
    (rightInside : s2 + b.length < 2 ^ 64) (enough : b.length < fuel) :
    ∃ difference, stricmp memory fuel s1 s2 = some difference ∧
      (difference = 0 ↔ foldBytes a = foldBytes b) := by
  induction b generalizing a s1 s2 fuel with
  | nil =>
    obtain ⟨fuel, rfl⟩ : ∃ less, fuel = less + 1 := ⟨fuel - 1, by omega⟩
    rw [length_nil, Nat.add_zero] at rightInside
    rw [stricmp, Nat.mod_eq_of_lt rightInside, right.nil, if_neg fun both => both.2 rfl]
    refine ⟨_, rfl, (signedChar_sub_eq_zero _ _).trans ?_⟩
    cases a with
    | nil =>
      rw [length_nil, Nat.add_zero] at leftInside
      rw [Nat.mod_eq_of_lt leftInside, left.nil]
      exact iff_of_true rfl rfl
    | cons c a =>
      obtain ⟨first, some, -⟩ := left.cons
      rw [length_cons] at leftInside
      rw [Nat.mod_eq_of_lt (by omega), first]
      exact iff_of_false some (cons_ne_nil _ _)
  | cons d b ih =>
    obtain ⟨fuel, rfl⟩ : ∃ less, fuel = less + 1 := ⟨fuel - 1, by omega⟩
    obtain ⟨second, secondSome, restB⟩ := right.cons
    rw [length_cons] at rightInside enough
    have here2 : memory (s2 % 2 ^ 64) = d := by
      rw [Nat.mod_eq_of_lt (by omega), second]
    rw [stricmp, here2]
    cases a with
    | nil =>
      rw [length_nil, Nat.add_zero] at leftInside
      rw [Nat.mod_eq_of_lt leftInside, left.nil, if_neg fun both => both.1 rfl]
      refine ⟨_, rfl, (signedChar_sub_eq_zero _ _).trans ?_⟩
      exact iff_of_false (Ne.symm secondSome) (Ne.symm (cons_ne_nil _ _))
    | cons c a =>
      obtain ⟨first, firstSome, restA⟩ := left.cons
      rw [length_cons] at leftInside
      have here1 : memory (s1 % 2 ^ 64) = c := by
        rw [Nat.mod_eq_of_lt (by omega), first]
      rw [here1, if_pos ⟨firstSome, secondSome⟩]
      by_cases same : lowerByte c = lowerByte d
      · rw [if_neg (not_not_intro same)]
        have enoughLeft : b.length < fuel := by omega
        obtain ⟨difference, found, zero⟩ :=
          ih restA restB (by omega) (by omega) enoughLeft
        refine ⟨difference, found, zero.trans ?_⟩
        unfold foldBytes
        rw [map_cons, map_cons, same, List.cons.injEq, and_iff_right rfl]
      · rw [if_pos same]
        refine ⟨_, rfl, (signedChar_sub_eq_zero _ _).trans ?_⟩
        exact iff_of_false same fun folded => same (List.cons.inj folded).1

end Strings

/-- What a thunk asks for. -/
inductive ImportRef where
  | name (chars : List UInt8)
  | ordinal (ordinal : Nat)
deriving DecidableEq, Repr

/-- The exports of an image: `AddressOfFunctions` from the ordinal `base` on, and the names with
their indices into it. -/
structure ExportTables where
  base : Nat
  functions : List Nat
  names : List (List UInt8 × Nat)

/-- The function that an import means, by its address in the image. -/
def ExportTables.lookup (tables : ExportTables) : ImportRef → Option Nat
  | .name chars =>
      (tables.names.find? fun entry => entry.1 == chars).bind fun entry =>
        tables.functions[entry.2]?
  | .ordinal ordinal =>
      if tables.base ≤ ordinal then
        (tables.functions[ordinal - tables.base]?).filter fun function => function != 0
      else none

theorem ExportTables.lookup_ordinal (tables : ExportTables) (ordinal : Nat) :
    tables.lookup (.ordinal ordinal) =
      if tables.base ≤ ordinal then
        (tables.functions[ordinal - tables.base]?).filter fun function => function != 0
      else none := rfl

/-- What the lookups return in place of the function: its ordinal, which is that of the first name
that differs at most in case. -/
def ExportTables.ordinalFound (tables : ExportTables) : ImportRef → Nat
  | .name chars =>
      match tables.names.find? fun entry => foldBytes entry.1 == foldBytes chars with
      | some entry => (tables.base + entry.2) % 2 ^ 32
      | none => 0
  | .ordinal ordinal =>
      match tables.lookup (.ordinal ordinal) with
      | some _ => ordinal
      | none => 0

/-- The tables stand in a mapped image behind the export directory at `rva`. -/
structure HoldsExports (memory : ByteMemory) (image : PeImage) (rva size : Nat)
    (tables : ExportTables) : Prop where
  fits : image.mappedBase + image.imageSize ≤ 2 ^ 64
  directory : rva + 40 ≤ image.imageSize
  base : load memory 4 (image.mappedBase + rva + offsetofBase) = tables.base
  numberOfFunctions :
    load memory 4 (image.mappedBase + rva + offsetofNumberOfFunctions) = tables.functions.length
  numberOfNames :
    load memory 4 (image.mappedBase + rva + offsetofNumberOfNames) = tables.names.length
  functionsInside :
    load memory 4 (image.mappedBase + rva + offsetofAddressOfFunctions) +
      tables.functions.length * 4 ≤ image.imageSize
  functions : ∀ n function, tables.functions[n]? = some function →
    load memory 4 (image.mappedBase +
      load memory 4 (image.mappedBase + rva + offsetofAddressOfFunctions) + n * 4) = function
  namesInside :
    load memory 4 (image.mappedBase + rva + offsetofAddressOfNames) + tables.names.length * 4 ≤
      image.imageSize
  nameStrings : ∀ i entry, tables.names[i]? = some entry →
    load memory 4 (image.mappedBase +
        load memory 4 (image.mappedBase + rva + offsetofAddressOfNames) + i * 4) +
      entry.1.length + 1 ≤ image.imageSize ∧
    HoldsString memory (image.mappedBase + load memory 4 (image.mappedBase +
      load memory 4 (image.mappedBase + rva + offsetofAddressOfNames) + i * 4)) entry.1
  ordinalsInside :
    load memory 4 (image.mappedBase + rva + offsetofAddressOfNameOrdinals) +
      tables.names.length * 2 ≤ image.imageSize
  nameOrdinals : ∀ i entry, tables.names[i]? = some entry →
    load memory 2 (image.mappedBase +
      load memory 4 (image.mappedBase + rva + offsetofAddressOfNameOrdinals) + i * 2) = entry.2
  named : ∀ entry ∈ tables.names, ∃ function, tables.functions[entry.2]? = some function ∧
    function ≠ 0
  ordinals : tables.base + tables.functions.length ≤ 2 ^ 32
  notForwarded : ∀ function ∈ tables.functions, function < image.imageSize ∧
    ¬ (rva ≤ function ∧ function < rva + size)

/-- Where the lookups read the headers of a mapped image there is its export directory, and the
section headers that follow are in the image. -/
structure HeadersFixed (memory : ByteMemory) (image : PeImage) (rva size : Nat) : Prop where
  headers : sizeofDosHeader + sizeofNtHeaders ≤ image.imageSize
  exportRva : load memory 4
    (mappedHeaders image + offsetofDataDirectory imageDirectoryEntryExport) = rva
  exportSize : load memory 4
    (mappedHeaders image + offsetofDataDirectory imageDirectoryEntryExport + 4) = size
  sections : sizeofDosHeader + offsetofNumberOfRvaAndSizes +
    load memory 4 (mappedHeaders image + offsetofNumberOfRvaAndSizes) * sizeofDataDirectory +
    load memory 2 (mappedHeaders image + offsetofNumberOfSections) * sizeofSectionHeader ≤
      image.imageSize

section Exports

variable {memory : ByteMemory} {image : PeImage} {rva size : Nat} {tables : ExportTables}

theorem field_of_lt {address width : Nat} (inside : address < 2 ^ 64) :
    field memory address width = load memory width address := by
  rw [field, Nat.mod_eq_of_lt inside]

theorem peGetExportDirectory_eq (fits : image.mappedBase + image.imageSize ≤ 2 ^ 64)
    (fixed : HeadersFixed memory image rva size) (rvaSome : rva ≠ 0) (sizeSome : size ≠ 0) :
    peGetExportDirectory memory image = some (image.mappedBase + rva) := by
  have headers := fixed.headers
  have exportRva := fixed.exportRva
  have exportSize := fixed.exportSize
  unfold mappedHeaders sizeofDosHeader sizeofNtHeaders offsetofDataDirectory
    imageDirectoryEntryExport sizeofDataDirectory at *
  unfold peGetExportDirectory
  dsimp only
  unfold mappedHeaders sizeofDosHeader offsetofDataDirectory imageDirectoryEntryExport
    sizeofDataDirectory
  rw [field_of_lt (by omega), field_of_lt (by omega), exportRva, exportSize,
    if_neg fun none => none.elim rvaSome sizeSome]

section Held

variable (held : HoldsExports memory image rva size tables)
include held

theorem HoldsExports.field_directory {offset : Nat} (inside : offset < 40) (width : Nat) :
    field memory (image.mappedBase + rva + offset) width =
      load memory width (image.mappedBase + rva + offset) := by
  have fits := held.fits
  have directory := held.directory
  exact field_of_lt (by omega)

theorem HoldsExports.field_function
    {n function : Nat} (listed : tables.functions[n]? = some function) :
    field memory (image.mappedBase + field memory (image.mappedBase + rva +
      offsetofAddressOfFunctions) 4 + n * 4) 4 = function := by
  have fits := held.fits
  have inside := held.functionsInside
  have index : n < tables.functions.length := (List.getElem?_eq_some_iff.mp listed).1
  rw [held.field_directory (by decide), field_of_lt (by omega), held.functions n function listed]

/-- The loop over the names returns the ordinal of the first name that differs at most in case. -/
theorem findName_eq {nameToFind fuel : Nat}
    {chars : List UInt8} (name : HoldsString memory nameToFind chars)
    (inside : nameToFind + chars.length < 2 ^ 64) (enough : chars.length < fuel) (i : Nat) :
    findName fuel memory image (image.mappedBase + rva) nameToFind (tables.names.length - i) i =
      some (match (tables.names.drop i).find? fun entry =>
          foldBytes entry.1 == foldBytes chars with
        | some entry => (tables.base + entry.2) % 2 ^ 32
        | none => 0) := by
  induction remaining : tables.names.length - i generalizing i with
  | zero =>
    rw [drop_eq_nil_of_le (by omega)]
    rfl
  | succ remaining ih =>
    have index : i < tables.names.length := by omega
    have listed : tables.names[i]? = some tables.names[i] := getElem?_eq_getElem index
    have fits := held.fits
    have namesInside := held.namesInside
    have ordinalsInside := held.ordinalsInside
    obtain ⟨within, string⟩ := held.nameStrings i _ listed
    obtain ⟨function, isFunction, functionSome⟩ := held.named _ (getElem_mem index)
    have small : tables.names[i].2 < tables.functions.length :=
      (List.getElem?_eq_some_iff.mp isFunction).1
    obtain ⟨difference, compared, zero⟩ :=
      stricmp_eq string name (by omega) inside enough
    have rest := ih (i + 1) (by omega)
    rw [drop_eq_getElem_cons index, findName]
    dsimp only
    rw [held.field_directory (show offsetofAddressOfNames < 40 by decide),
      field_of_lt (show image.mappedBase + load memory 4 (image.mappedBase + rva +
        offsetofAddressOfNames) + i * 4 < 2 ^ 64 by omega), compared,
      held.field_directory (show offsetofAddressOfNameOrdinals < 40 by decide),
      field_of_lt (show image.mappedBase + load memory 4 (image.mappedBase + rva +
        offsetofAddressOfNameOrdinals) + i * 2 < 2 ^ 64 by omega),
      held.nameOrdinals i _ listed, held.field_function isFunction,
      held.field_directory (show offsetofNumberOfFunctions < 40 by decide),
      held.numberOfFunctions, held.field_directory (show offsetofBase < 40 by decide), held.base]
    dsimp only
    by_cases same : foldBytes tables.names[i].1 = foldBytes chars
    · rw [if_pos ⟨zero.mpr same, small, functionSome⟩]
      simp only [find?_cons, beq_iff_eq.mpr same]
    · rw [if_neg fun all => same (zero.mp all.1), rest]
      simp only [find?_cons, beq_eq_false_iff_ne.mpr same]

theorem peFindExportByName_eq
    (fixed : HeadersFixed memory image rva size) (rvaSome : rva ≠ 0) (sizeSome : size ≠ 0)
    {nameToFind fuel : Nat} {chars : List UInt8} (name : HoldsString memory nameToFind chars)
    (inside : nameToFind + chars.length < 2 ^ 64) (enough : chars.length < fuel) :
    peFindExportByName fuel memory image nameToFind =
      some (tables.ordinalFound (.name chars)) := by
  have found := findName_eq held name inside enough 0
  rw [peFindExportByName, peGetExportDirectory_eq held.fits fixed rvaSome sizeSome]
  dsimp only
  rw [held.field_directory (show offsetofNumberOfNames < 40 by decide), held.numberOfNames]
  exact found

theorem peFindExportByOrdinal_eq (fixed : HeadersFixed memory image rva size) (rvaSome : rva ≠ 0)
    (sizeSome : size ≠ 0) {ordinal : Nat} (word : ordinal < 2 ^ 16) :
    peFindExportByOrdinal memory image ordinal = tables.ordinalFound (.ordinal ordinal) := by
  have ordinals := held.ordinals
  rw [peFindExportByOrdinal, peGetExportDirectory_eq held.fits fixed rvaSome sizeSome]
  dsimp only
  rw [held.field_directory (show offsetofBase < 40 by decide), held.base,
    held.field_directory (show offsetofNumberOfFunctions < 40 by decide), held.numberOfFunctions]
  unfold ExportTables.ordinalFound
  dsimp only
  by_cases above : tables.base ≤ ordinal
  · have target : (ordinal + (2 ^ 32 - tables.base)) % 2 ^ 32 = ordinal - tables.base := by omega
    rw [target, tables.lookup_ordinal, if_pos above]
    by_cases inTable : ordinal - tables.base < tables.functions.length
    · have listed := getElem?_eq_getElem inTable
      rw [if_neg (by omega), held.field_function listed, listed]
      by_cases zero : tables.functions[ordinal - tables.base] = 0
      · rw [if_pos zero, zero]
        rfl
      · rw [if_neg zero, Option.filter_some, if_pos (bne_iff_ne.mpr zero)]
        dsimp only
        omega
    · rw [if_pos (by omega), getElem?_eq_none (by omega)]
      rfl
  · have base := load_lt memory 4 (image.mappedBase + rva + offsetofBase)
    rw [held.base] at base
    rw [if_pos (by omega), tables.lookup_ordinal, if_neg above]

end Held

/-- What is stored for an import. -/
def slotValue (memory : ByteMemory) (image : PeImage) (tables : ExportTables) (ref : ImportRef) :
    Nat :=
  if tables.ordinalFound ref ≠ 0 then peResolveExport memory image (tables.ordinalFound ref) else 0

/-- A thunk asks for an import: by ordinal, or by a name in the image. -/
def ThunkAsks (memory : ByteMemory) (imageBase imageSize thunk : Nat) : ImportRef → Prop
  | .name chars =>
      thunk ≠ 0 ∧ thunk < imageOrdinalFlag64 ∧
        thunk + offsetofImportName + chars.length + 1 ≤ imageSize ∧
        HoldsString memory (imageBase + thunk + offsetofImportName) chars
  | .ordinal ordinal => imageOrdinalFlag64 ≤ thunk ∧ thunk % 2 ^ 16 = ordinal

/-- How long the name of an import is. -/
def ImportRef.length : ImportRef → Nat
  | .name chars => chars.length
  | .ordinal _ => 0

/-- A slot is right: it has the function that is meant, and it is 0 only without one. -/
def SlotRight (image : PeImage) (tables : ExportTables) (ref : ImportRef) (value : Nat) : Prop :=
  (∀ function, tables.lookup ref = some function → value = image.mappedBase + function) ∧
    (value = 0 → tables.lookup ref = none)

/-- The ordinal that is found in place of the function is the function's own address in the image,
and the image has the address. -/
def Bindable (memory : ByteMemory) (image : PeImage) (tables : ExportTables) (ref : ImportRef) :
    Prop :=
  ∀ function, tables.lookup ref = some function →
    tables.ordinalFound ref = function ∧ resolvable memory image function

section Held

variable (held : HoldsExports memory image rva size tables)
include held

theorem importAddress_eq (fixed : HeadersFixed memory image rva size) (rvaSome : rva ≠ 0)
    (sizeSome : size ≠ 0) {imageBase imageSize thunk fuel : Nat}
    (fits : imageBase + imageSize ≤ 2 ^ 64) {ref : ImportRef}
    (asks : ThunkAsks memory imageBase imageSize thunk ref) (enough : ref.length < fuel) :
    importAddress fuel memory imageBase image thunk =
      some (slotValue memory image tables ref) := by
  unfold importAddress slotValue
  dsimp only
  cases ref with
  | name chars =>
    obtain ⟨-, unflagged, inside, string⟩ := asks
    rw [if_neg (Nat.not_le_of_lt unflagged),
      peFindExportByName_eq held fixed rvaSome sizeSome string (by omega) enough]
    rfl
  | ordinal ordinal =>
    obtain ⟨flagged, rfl⟩ := asks
    rw [if_pos flagged,
      peFindExportByOrdinal_eq held fixed rvaSome sizeSome (Nat.mod_lt _ (by decide))]

theorem HoldsExports.lookup_inside {ref : ImportRef} {function : Nat}
    (meant : tables.lookup ref = some function) : function ≠ 0 ∧ function < image.imageSize := by
  cases ref with
  | name chars =>
    obtain ⟨entry, found, listed⟩ := Option.bind_eq_some_iff.mp meant
    obtain ⟨named, isFunction, some⟩ := held.named entry (mem_of_find?_eq_some found)
    rw [isFunction] at listed
    cases listed
    exact ⟨some, (held.notForwarded _ (mem_of_getElem? isFunction)).1⟩
  | ordinal ordinal =>
    rw [tables.lookup_ordinal] at meant
    split at meant
    · obtain ⟨listed, some⟩ := Option.filter_eq_some_iff.mp meant
      exact ⟨bne_iff_ne.mp some, (held.notForwarded _ (mem_of_getElem? listed)).1⟩
    · cases meant

theorem HoldsExports.ordinalFound_lt (ref : ImportRef) : tables.ordinalFound ref < 2 ^ 32 := by
  unfold ExportTables.ordinalFound
  cases ref with
  | name chars =>
    dsimp only
    split
    · exact Nat.mod_lt _ (by decide)
    · decide
  | ordinal ordinal =>
    dsimp only
    split
    · rename_i function meant
      rw [tables.lookup_ordinal] at meant
      split at meant
      · obtain ⟨listed, -⟩ := Option.filter_eq_some_iff.mp meant
        have index := (List.getElem?_eq_some_iff.mp listed).1
        have ordinals := held.ordinals
        omega
      · cases meant
    · decide

/-- A slot is right exactly if its import can be bound. -/
theorem slotRight_iff (ref : ImportRef) :
    SlotRight image tables ref (slotValue memory image tables ref) ↔
      Bindable memory image tables ref := by
  have fits := held.fits
  have word := held.ordinalFound_lt ref
  unfold SlotRight Bindable slotValue peResolveExport
  constructor
  · rintro ⟨right, -⟩ function meant
    obtain ⟨some, inside⟩ := held.lookup_inside meant
    have value := right function meant
    by_cases zero : tables.ordinalFound ref = 0
    · rw [if_neg (not_not_intro zero)] at value
      omega
    rw [if_pos zero] at value
    by_cases resolves : resolvable memory image (tables.ordinalFound ref) = true
    · rw [if_pos resolves] at value
      have same : tables.ordinalFound ref = function := by omega
      rw [same] at resolves
      exact ⟨same, resolves⟩
    · rw [if_neg resolves] at value
      omega
  · intro bindable
    constructor
    · intro function meant
      obtain ⟨some, inside⟩ := held.lookup_inside meant
      obtain ⟨same, resolves⟩ := bindable function meant
      rw [same, if_pos some, if_pos resolves]
      omega
    · intro zero
      by_contra meant
      obtain ⟨function, meant⟩ := Option.ne_none_iff_exists'.mp meant
      obtain ⟨some, inside⟩ := held.lookup_inside meant
      obtain ⟨same, resolves⟩ := bindable function meant
      rw [same, if_pos some, if_pos resolves] at zero
      omega

end Held

variable {after : ByteMemory}

/-- The export tables depend on the image alone. -/
theorem HoldsExports.congr (held : HoldsExports memory image rva size tables)
    (same : SameInside memory after image.mappedBase (image.mappedBase + image.imageSize)) :
    HoldsExports after image rva size tables := by
  have directory := held.directory
  have inDirectory : ∀ offset, offset + 4 ≤ 40 →
      load after 4 (image.mappedBase + rva + offset) =
        load memory 4 (image.mappedBase + rva + offset) :=
    fun offset inside => same.load_eq (by omega) (by omega)
  have functionsAt := inDirectory offsetofAddressOfFunctions (by decide)
  have namesAt := inDirectory offsetofAddressOfNames (by decide)
  have ordinalsAt := inDirectory offsetofAddressOfNameOrdinals (by decide)
  have functionsInside := held.functionsInside
  have namesInside := held.namesInside
  have ordinalsInside := held.ordinalsInside
  have index : ∀ {i entry}, tables.names[i]? = some entry → i < tables.names.length :=
    fun listed => (List.getElem?_eq_some_iff.mp listed).1
  constructor
  case fits => exact held.fits
  case directory => exact directory
  case base => rw [inDirectory _ (by decide), held.base]
  case numberOfFunctions => rw [inDirectory _ (by decide), held.numberOfFunctions]
  case numberOfNames => rw [inDirectory _ (by decide), held.numberOfNames]
  case functionsInside => rwa [functionsAt]
  case functions =>
    intro n function listed
    have less := (List.getElem?_eq_some_iff.mp listed).1
    rw [functionsAt, same.load_eq (by omega) (by omega), held.functions n function listed]
  case namesInside => rwa [namesAt]
  case nameStrings =>
    intro i entry listed
    have less := index listed
    obtain ⟨inside, string⟩ := held.nameStrings i entry listed
    rw [namesAt, same.load_eq (by omega) (by omega)]
    exact ⟨inside, string.congr fun at' first last => same at' (by omega) (by omega)⟩
  case ordinalsInside => rwa [ordinalsAt]
  case nameOrdinals =>
    intro i entry listed
    have less := index listed
    rw [ordinalsAt, same.load_eq (by omega) (by omega), held.nameOrdinals i entry listed]
  case named => exact held.named
  case ordinals => exact held.ordinals
  case notForwarded => exact held.notForwarded

theorem HeadersFixed.load_eq (fixed : HeadersFixed memory image rva size)
    (same : SameInside memory after image.mappedBase (image.mappedBase + image.imageSize))
    {offset width : Nat} (inside : offset + width ≤ sizeofNtHeaders) :
    load after width (mappedHeaders image + offset) =
      load memory width (mappedHeaders image + offset) := by
  have headers := fixed.headers
  unfold mappedHeaders
  exact same.load_eq (by omega) (by omega)

theorem HeadersFixed.congr (fixed : HeadersFixed memory image rva size)
    (same : SameInside memory after image.mappedBase (image.mappedBase + image.imageSize)) :
    HeadersFixed after image rva size where
  headers := fixed.headers
  exportRva := (fixed.load_eq same (by decide)).trans fixed.exportRva
  exportSize := by
    have inside : load after 4 (mappedHeaders image +
        (offsetofDataDirectory imageDirectoryEntryExport + 4)) = load memory 4
          (mappedHeaders image + (offsetofDataDirectory imageDirectoryEntryExport + 4)) :=
      fixed.load_eq same (by decide)
    rw [← Nat.add_assoc] at inside
    exact inside.trans fixed.exportSize
  sections := by
    have rvas : load after 4 (mappedHeaders image + offsetofNumberOfRvaAndSizes) =
        load memory 4 (mappedHeaders image + offsetofNumberOfRvaAndSizes) :=
      fixed.load_eq same (by decide)
    have count : load after 2 (mappedHeaders image + offsetofNumberOfSections) =
        load memory 2 (mappedHeaders image + offsetofNumberOfSections) :=
      fixed.load_eq same (by decide)
    rw [rvas, count]
    exact fixed.sections

/-- Whether an export resolves depends on the image alone. -/
theorem resolvable_congr (fits : image.mappedBase + image.imageSize ≤ 2 ^ 64)
    (fixed : HeadersFixed memory image rva size)
    (same : SameInside memory after image.mappedBase (image.mappedBase + image.imageSize))
    (exportRva : Nat) : resolvable after image exportRva = resolvable memory image exportRva := by
  have headers := fixed.headers
  have sections := fixed.sections
  have inImage : ∀ {address width : Nat}, image.mappedBase ≤ address →
      address + width ≤ image.mappedBase + image.imageSize → 0 < width →
        field after address width = field memory address width := by
    intro address width above inside some
    rw [field_of_lt (by omega), field_of_lt (by omega), same.load_eq above inside]
  have rvas : field after (mappedHeaders image + offsetofNumberOfRvaAndSizes) 4 =
      field memory (mappedHeaders image + offsetofNumberOfRvaAndSizes) 4 := by
    apply inImage <;> unfold mappedHeaders offsetofNumberOfRvaAndSizes sizeofNtHeaders at * <;>
      omega
  have count : field after (mappedHeaders image + offsetofNumberOfSections) 2 =
      field memory (mappedHeaders image + offsetofNumberOfSections) 2 := by
    apply inImage <;> unfold mappedHeaders offsetofNumberOfSections sizeofNtHeaders at * <;> omega
  rw [← field_of_lt (show mappedHeaders image + offsetofNumberOfRvaAndSizes < 2 ^ 64 by
      unfold mappedHeaders offsetofNumberOfRvaAndSizes sizeofNtHeaders at *; omega),
    ← field_of_lt (show mappedHeaders image + offsetofNumberOfSections < 2 ^ 64 by
      unfold mappedHeaders offsetofNumberOfSections sizeofNtHeaders at *; omega)] at sections
  unfold resolvable
  dsimp only
  rw [rvas, count]
  congr 1
  rw [Bool.eq_iff_iff, any_eq_true, any_eq_true]
  refine exists_congr fun i => and_congr_right fun member => ?_
  have less := mem_range.mp member
  have header : ∀ offset, offset + 4 ≤ sizeofSectionHeader →
      field after (mappedHeaders image + offsetofNumberOfRvaAndSizes +
        field memory (mappedHeaders image + offsetofNumberOfRvaAndSizes) 4 * sizeofDataDirectory +
          i * sizeofSectionHeader + offset) 4 =
      field memory (mappedHeaders image + offsetofNumberOfRvaAndSizes +
        field memory (mappedHeaders image + offsetofNumberOfRvaAndSizes) 4 * sizeofDataDirectory +
          i * sizeofSectionHeader + offset) 4 := by
    intro offset inside
    apply inImage <;> unfold sizeofSectionHeader at * <;> unfold mappedHeaders at * <;> omega
  rw [header offsetofVirtualAddress (by decide), header offsetofVirtualSize (by decide),
    header offsetofCharacteristics (by decide)]

end Exports

end MinNT.Ke.Pe
