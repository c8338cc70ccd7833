import MinNT.Ke.PeExports

/-! What `PeResolveImports` leaves in the import address tables of an image. -/

namespace MinNT.Ke.Pe

open List ByteMemory

/-- `PeLoadImage` has made the image from the file. -/
def LoadedFrom (file : ByteMemory) (image : PeImage) : Prop :=
  ∃ fuel fileSize isExe pages prior contents,
    (peLoadImage fuel file fileSize isExe pages prior).value =
      some (statusSuccess, some (image, contents))

structure Exporter where
  file : ByteMemory
  image : PeImage
  tables : ExportTables

/-- The export directory, as the headers of the file have it. -/
def Exporter.rva (exporter : Exporter) : Nat :=
  ntField exporter.file (offsetofDataDirectory imageDirectoryEntryExport) 4

def Exporter.size (exporter : Exporter) : Nat :=
  ntField exporter.file (offsetofDataDirectory imageDirectoryEntryExport + 4) 4

/-- An image with exports beside an image at `imageBase`. -/
structure Exporter.WellFormed (memory : ByteMemory) (imageBase imageSize : Nat)
    (exporter : Exporter) : Prop where
  loaded : LoadedFrom exporter.file exporter.image
  rvaSome : exporter.rva ≠ 0
  sizeSome : exporter.size ≠ 0
  held : HoldsExports memory exporter.image exporter.rva exporter.size exporter.tables
  apart : exporter.image.mappedBase + exporter.image.imageSize ≤ imageBase ∨
    imageBase + imageSize ≤ exporter.image.mappedBase

/-- The exports can be found: the lookups come upon the export directory. -/
def Exporter.Found (memory : ByteMemory) (exporter : Exporter) : Prop :=
  HeadersFixed memory exporter.image exporter.rva exporter.size

section Exporters

variable {memory after : ByteMemory} {imageBase imageSize : Nat} {exporter : Exporter}

theorem Exporter.WellFormed.sameInside (formed : exporter.WellFormed memory imageBase imageSize)
    (same : SameOutside memory after imageBase (imageBase + imageSize)) :
    SameInside memory after exporter.image.mappedBase
      (exporter.image.mappedBase + exporter.image.imageSize) :=
  same.sameInside formed.apart

theorem Exporter.WellFormed.congr (formed : exporter.WellFormed memory imageBase imageSize)
    (same : SameOutside memory after imageBase (imageBase + imageSize)) :
    exporter.WellFormed after imageBase imageSize where
  loaded := formed.loaded
  rvaSome := formed.rvaSome
  sizeSome := formed.sizeSome
  held := formed.held.congr (formed.sameInside same)
  apart := formed.apart

theorem Exporter.Found.congr (found : exporter.Found memory)
    (formed : exporter.WellFormed memory imageBase imageSize)
    (same : SameOutside memory after imageBase (imageBase + imageSize)) : exporter.Found after :=
  HeadersFixed.congr found (formed.sameInside same)

theorem Exporter.Found.slotValue_eq (found : exporter.Found memory)
    (formed : exporter.WellFormed memory imageBase imageSize)
    (same : SameOutside memory after imageBase (imageBase + imageSize)) (ref : ImportRef) :
    slotValue after exporter.image exporter.tables ref =
      slotValue memory exporter.image exporter.tables ref := by
  unfold slotValue peResolveExport
  rw [resolvable_congr formed.held.fits found (formed.sameInside same)]

end Exporters

theorem slotValue_lt (memory : ByteMemory) (image : PeImage) (tables : ExportTables)
    (ref : ImportRef) : slotValue memory image tables ref < 2 ^ 64 := by
  unfold slotValue peResolveExport
  split
  · split
    · exact Nat.mod_lt _ (by decide)
    · decide
  · decide

/-- The name that an import has behind its hint is not written. -/
def ImportRef.NameApart (written : Nat → Prop) (address : Nat) : ImportRef → Prop
  | .name chars => Apart written address (address + chars.length + 1)
  | .ordinal _ => True

/-- The thunks of the imports, with the terminator. -/
def HoldsThunks (memory : ByteMemory) (imageBase imageSize : Nat) (written : Nat → Prop) :
    Nat → List ImportRef → Prop
  | address, [] => load memory 8 address = 0
  | address, ref :: refs =>
      ThunkAsks memory imageBase imageSize (load memory 8 address) ref ∧
        ref.NameApart written (imageBase + load memory 8 address + offsetofImportName) ∧
        HoldsThunks memory imageBase imageSize written (address + 8) refs

section Thunks

variable {memory after : ByteMemory} {imageBase imageSize : Nat} {written : Nat → Prop}

theorem ThunkAsks.ne_zero {thunk : Nat} {ref : ImportRef}
    (asks : ThunkAsks memory imageBase imageSize thunk ref) : thunk ≠ 0 := by
  cases ref with
  | name chars => exact asks.1
  | ordinal ordinal =>
    have flagged := asks.1
    unfold imageOrdinalFlag64 at flagged
    omega

theorem ThunkAsks.congr {thunk : Nat} {ref : ImportRef}
    (asks : ThunkAsks memory imageBase imageSize thunk ref)
    (apart : ref.NameApart written (imageBase + thunk + offsetofImportName))
    (same : SameExcept written memory after) : ThunkAsks after imageBase imageSize thunk ref := by
  cases ref with
  | name chars =>
    obtain ⟨some, unflagged, inside, string⟩ := asks
    exact ⟨some, unflagged, inside, string.congr (same.sameInside apart)⟩
  | ordinal ordinal => exact asks

theorem HoldsThunks.congr {address : Nat} {refs : List ImportRef}
    (held : HoldsThunks memory imageBase imageSize written address refs)
    (same : SameExcept written memory after)
    (table : SameInside memory after address (address + 8 * (refs.length + 1))) :
    HoldsThunks after imageBase imageSize written address refs := by
  induction refs generalizing address with
  | nil => exact (table.load_eq (Nat.le_refl _) (by simp)).trans held
  | cons ref refs ih =>
    obtain ⟨asks, apart, rest⟩ := held
    rw [length_cons] at table
    have thunk : load after 8 address = load memory 8 address :=
      table.load_eq (Nat.le_refl _) (by omega)
    unfold HoldsThunks
    rw [thunk]
    exact ⟨asks.congr apart same, apart,
      ih rest fun index first last => table index (by omega) (by omega)⟩

/-- The loop over the thunks fills the slots. The table that is read is the table that is written,
or it is apart from it: a thunk is read before its own slot is written, and not after. -/
theorem bindThunks_eq {exporter : Exporter} (fits : imageBase + imageSize ≤ 2 ^ 64)
    (formed : exporter.WellFormed memory imageBase imageSize) (found : exporter.Found memory)
    {refs : List ImportRef} {orig iat : Nat}
    (held : HoldsThunks memory imageBase imageSize written orig refs)
    (origInside : orig + 8 * (refs.length + 1) ≤ 2 ^ 64)
    (iatAbove : imageBase ≤ iat) (iatInside : iat + 8 * refs.length ≤ imageBase + imageSize)
    (slots : ∀ index, iat ≤ index → index < iat + 8 * refs.length → written index)
    (own : orig = iat ∨ Apart (fun index => iat ≤ index ∧ index < iat + 8 * refs.length) orig
      (orig + 8 * (refs.length + 1))) :
    ∃ bound, (∃ least, ∀ fuel ≥ least,
        bindThunks imageBase exporter.image fuel memory orig iat = some bound) ∧
      SameOutside memory bound iat (iat + 8 * refs.length) ∧
      ∀ j ref, refs[j]? = some ref →
        load bound 8 (iat + 8 * j) = slotValue memory exporter.image exporter.tables ref := by
  induction refs generalizing memory orig iat with
  | nil =>
    refine ⟨memory, ⟨1, fun fuel enough => ?_⟩, fun index _ => rfl,
      fun j ref listed => nomatch listed⟩
    obtain ⟨fuel, rfl⟩ : ∃ less, fuel = less + 1 := ⟨fuel - 1, by omega⟩
    have zero : load memory 8 orig = 0 := held
    rw [length_nil] at origInside
    rw [bindThunks, field_of_lt (by omega), if_pos zero]
  | cons ref refs ih =>
    obtain ⟨asks, apart, rest⟩ := held
    rw [length_cons] at origInside iatInside slots own
    have small := slotValue_lt memory exporter.image exporter.tables ref
    have stored : SameOutside memory
        (store memory 8 iat (slotValue memory exporter.image exporter.tables ref)) iat (iat + 8) :=
      store_sameOutside memory 8 iat _ iat (iat + 8) (Nat.le_refl _) (Nat.le_refl _)
    have inImage := stored.mono iatAbove (show iat + 8 ≤ imageBase + imageSize by omega)
    have inSlots : SameExcept written memory
        (store memory 8 iat (slotValue memory exporter.image exporter.tables ref)) := by
      intro index unwritten
      apply stored
      by_contra slot
      exact unwritten (slots index (by omega) (by omega))
    have table : SameInside memory
        (store memory 8 iat (slotValue memory exporter.image exporter.tables ref)) (orig + 8)
          (orig + 8 + 8 * (refs.length + 1)) := by
      intro index first last
      apply stored
      obtain rfl | elsewhere := own
      · omega
      · have other := elsewhere index (by omega) (by omega)
        omega
    have ownRest : orig + 8 = iat + 8 ∨
        Apart (fun index => iat + 8 ≤ index ∧ index < iat + 8 + 8 * refs.length) (orig + 8)
          (orig + 8 + 8 * (refs.length + 1)) := by
      obtain rfl | elsewhere := own
      · exact .inl rfl
      · exact .inr fun index first last slot =>
          elsewhere index (by omega) (by omega) (by omega)
    obtain ⟨bound, ⟨least, runs⟩, same, values⟩ := ih (formed.congr inImage)
      (found.congr formed inImage) (rest.congr inSlots table) (by omega) (by omega) (by omega)
      (fun index first last => slots index (by omega) (by omega)) ownRest
    refine ⟨bound, ⟨max least (ref.length + 1) + 1, fun fuel enough => ?_⟩, ?_, ?_⟩
    · obtain ⟨fuel, rfl⟩ : ∃ less, fuel = less + 1 := ⟨fuel - 1, by omega⟩
      rw [bindThunks, field_of_lt (by omega), if_neg asks.ne_zero,
        importAddress_eq formed.held found formed.rvaSome formed.sizeSome fits asks (by omega)]
      dsimp only
      rw [Nat.mod_eq_of_lt (show iat < 2 ^ 64 by omega)]
      exact runs fuel (by omega)
    · rw [length_cons]
      exact (stored.mono (Nat.le_refl _) (by omega)).trans (same.mono (by omega) (by omega))
    · intro j asked listed
      cases j with
      | zero =>
        cases listed
        rw [Nat.mul_zero, Nat.add_zero, same.load_eq 8 iat (.inl (Nat.le_refl _)), load_store_same]
        exact Nat.mod_eq_of_lt small
      | succ j =>
        have value := values j asked listed
        rw [found.slotValue_eq formed inImage] at value
        rw [show iat + 8 * (j + 1) = iat + 8 + 8 * j by omega, value]

end Thunks

/-- What an image imports from one DLL, and the module that is registered under its name. -/
structure ImportedDll where
  name : List UInt8
  firstThunk : Nat
  refs : List ImportRef
  exporter : Option Exporter

/-- The import address table of a DLL, with its terminator. -/
def ImportedDll.Slots (imageBase : Nat) (dll : ImportedDll) (index : Nat) : Prop :=
  imageBase + dll.firstThunk ≤ index ∧
    index < imageBase + dll.firstThunk + 8 * (dll.refs.length + 1)

/-- Where the thunks of a descriptor stand. -/
def thunkTable (memory : ByteMemory) (address : Nat) : Nat :=
  if load memory 4 (address + offsetofOriginalFirstThunk) ≠ 0 then
    load memory 4 (address + offsetofOriginalFirstThunk)
  else load memory 4 (address + offsetofFirstThunk)

/-- A descriptor and what belongs to it; nothing of it is written but the slots. -/
structure HoldsDescriptor (memory : ByteMemory) (imageBase imageSize : Nat) (written : Nat → Prop)
    (address : Nat) (dll : ImportedDll) : Prop where
  inside : address + sizeofImportDescriptor ≤ imageBase + imageSize
  apart : Apart written address (address + sizeofImportDescriptor)
  nameSome : load memory 4 (address + offsetofName) ≠ 0
  nameInside : load memory 4 (address + offsetofName) + dll.name.length + 1 ≤ imageSize
  nameString : HoldsString memory (imageBase + load memory 4 (address + offsetofName)) dll.name
  nameApart : Apart written (imageBase + load memory 4 (address + offsetofName))
    (imageBase + load memory 4 (address + offsetofName) + dll.name.length + 1)
  firstThunk : load memory 4 (address + offsetofFirstThunk) = dll.firstThunk
  slotsInside : dll.firstThunk + 8 * (dll.refs.length + 1) ≤ imageSize
  thunksInside : thunkTable memory address + 8 * (dll.refs.length + 1) ≤ imageSize
  thunksApart : thunkTable memory address = dll.firstThunk ∨
    Apart written (imageBase + thunkTable memory address)
      (imageBase + thunkTable memory address + 8 * (dll.refs.length + 1))
  thunks : HoldsThunks memory imageBase imageSize written (imageBase + thunkTable memory address)
    dll.refs

/-- The descriptors of the DLLs, with the terminator. -/
def HoldsDescriptors (memory : ByteMemory) (imageBase imageSize : Nat) (written : Nat → Prop) :
    Nat → List ImportedDll → Prop
  | address, [] =>
      address + sizeofImportDescriptor ≤ imageBase + imageSize ∧
        Apart written address (address + sizeofImportDescriptor) ∧
        load memory 4 (address + offsetofName) = 0
  | address, dll :: dlls =>
      HoldsDescriptor memory imageBase imageSize written address dll ∧
        HoldsDescriptors memory imageBase imageSize written (address + sizeofImportDescriptor) dlls

section Descriptors

variable {memory after : ByteMemory} {imageBase imageSize : Nat} {written : Nat → Prop}

variable {address : Nat}

variable {dll : ImportedDll}

/-- A descriptor is not changed by stores into other tables. -/
theorem HoldsDescriptor.congr
    (held : HoldsDescriptor memory imageBase imageSize written address dll)
    (same : SameExcept (fun index => written index ∧ ¬ dll.Slots imageBase index) memory after) :
    HoldsDescriptor after imageBase imageSize written address dll := by
  have unwritten : SameExcept written memory after :=
    fun index kept => same index fun both => kept both.1
  have inDescriptor : ∀ offset, offset + 4 ≤ sizeofImportDescriptor →
      load after 4 (address + offset) = load memory 4 (address + offset) :=
    fun offset inside => (unwritten.sameInside held.apart).load_eq (by omega) (by omega)
  have name := inDescriptor offsetofName (by decide)
  have first := inDescriptor offsetofFirstThunk (by decide)
  have table : thunkTable after address = thunkTable memory address := by
    unfold thunkTable
    rw [first, inDescriptor offsetofOriginalFirstThunk (by decide)]
  constructor
  case inside => exact held.inside
  case apart => exact held.apart
  case nameSome => rw [name]; exact held.nameSome
  case nameInside => rw [name]; exact held.nameInside
  case nameString =>
    rw [name]
    exact held.nameString.congr (unwritten.sameInside held.nameApart)
  case nameApart => rw [name]; exact held.nameApart
  case firstThunk => rw [first, held.firstThunk]
  case slotsInside => exact held.slotsInside
  case thunksInside => rw [table]; exact held.thunksInside
  case thunksApart => rw [table]; exact held.thunksApart
  case thunks =>
    rw [table]
    refine held.thunks.congr unwritten ?_
    obtain own | apart := held.thunksApart
    · rw [own]
      exact fun index lower upper => same index fun both => both.2 ⟨lower, upper⟩
    · exact unwritten.sameInside apart

theorem HoldsDescriptors.congr {dlls : List ImportedDll}
    (held : HoldsDescriptors memory imageBase imageSize written address dlls)
    (same : SameExcept (fun index => written index ∧ ∀ dll ∈ dlls, ¬ dll.Slots imageBase index)
      memory after) : HoldsDescriptors after imageBase imageSize written address dlls := by
  induction dlls generalizing address with
  | nil =>
    obtain ⟨inside, apart, terminator⟩ := held
    have kept : SameInside memory after address (address + sizeofImportDescriptor) :=
      fun index lower upper => same index fun both => apart index lower upper both.1
    refine ⟨inside, apart, Eq.trans (kept.load_eq (by omega) ?_) terminator⟩
    unfold offsetofName sizeofImportDescriptor
    omega
  | cons dll dlls ih =>
    refine ⟨held.1.congr ?_, ih held.2 ?_⟩
    · intro index kept
      exact same index fun both => kept ⟨both.1, both.2 dll mem_cons_self⟩
    · intro index kept
      exact same index fun both =>
        kept ⟨both.1, fun other member => both.2 other (mem_cons_of_mem _ member)⟩

section Held

variable (held : HoldsDescriptor memory imageBase imageSize written address dll)
include held

theorem HoldsDescriptor.bindThunks_eq {exporter : Exporter} (fits : imageBase + imageSize ≤ 2 ^ 64)
    (formed : exporter.WellFormed memory imageBase imageSize) (found : exporter.Found memory)
    (slots : ∀ index, dll.Slots imageBase index → written index) :
    ∃ bound, (∃ least, ∀ fuel ≥ least,
        bindThunks imageBase exporter.image fuel memory (imageBase + thunkTable memory address)
          (imageBase + dll.firstThunk) = some bound) ∧
      SameExcept (dll.Slots imageBase) memory bound ∧
      ∀ j ref, dll.refs[j]? = some ref →
        load bound 8 (imageBase + dll.firstThunk + 8 * j) =
          slotValue memory exporter.image exporter.tables ref := by
  have thunksInside := held.thunksInside
  have slotsInside := held.slotsInside
  obtain ⟨bound, runs, same, values⟩ := Pe.bindThunks_eq fits formed found held.thunks (by omega)
    (show imageBase ≤ imageBase + dll.firstThunk by omega) (by omega)
    (fun index first last => slots index ⟨first, by omega⟩)
    (held.thunksApart.imp (congrArg (imageBase + ·)) fun apart index first last slot =>
      apart index first last (slots index ⟨slot.1, by omega⟩))
  refine ⟨bound, runs, fun index outside => same index ?_, values⟩
  by_contra slot
  exact outside ⟨by omega, by omega⟩

/-- One turn of the import loop. -/
theorem HoldsDescriptor.turn
    (fits : imageBase + imageSize ≤ 2 ^ 64) {allocates : Bool} {modules : List PeModule}
    (registered : peFindModuleHandle allocates modules dll.name = dll.exporter.map Exporter.image)
    (formed : ∀ exporter ∈ dll.exporter, exporter.WellFormed memory imageBase imageSize)
    (found : ∀ exporter ∈ dll.exporter, exporter.Found memory)
    (slots : ∀ index, dll.Slots imageBase index → written index) :
    ∃ bound, (∃ least, ∀ fuel ≥ least,
        bindDescriptors allocates modules imageBase (fuel + 1) memory address =
          bindDescriptors allocates modules imageBase fuel bound
            (address + sizeofImportDescriptor)) ∧
      SameExcept (dll.Slots imageBase) memory bound ∧
      ∀ exporter ∈ dll.exporter, ∀ j ref, dll.refs[j]? = some ref →
        load bound 8 (imageBase + dll.firstThunk + 8 * j) =
          slotValue memory exporter.image exporter.tables ref := by
  have inside := held.inside
  have nameInside := held.nameInside
  unfold sizeofImportDescriptor at inside
  have fields : ∀ offset < 20,
      field memory (address + offset) 4 = load memory 4 (address + offset) :=
    fun offset less => field_of_lt (by omega)
  have name : ∀ fuel ≥ dll.name.length + 1,
      stringAt memory fuel (imageBase + load memory 4 (address + offsetofName)) = some dll.name :=
    fun fuel enough => stringAt_eq held.nameString (by omega) enough
  have original := fields offsetofOriginalFirstThunk (by decide)
  have first := fields offsetofFirstThunk (by decide)
  cases isExporter : dll.exporter with
  | none =>
    rw [isExporter] at registered
    refine ⟨memory, ⟨dll.name.length + 1, fun fuel enough => ?_⟩, fun index _ => rfl,
      fun exporter none => nomatch none⟩
    rw [bindDescriptors, fields offsetofName (by decide), if_neg held.nameSome, name fuel enough]
    dsimp only
    rw [registered]
    rfl
  | some exporter =>
    rw [isExporter] at registered
    obtain ⟨bound, ⟨least, runs⟩, same, values⟩ := held.bindThunks_eq fits
      (formed exporter isExporter) (found exporter isExporter) slots
    refine ⟨bound, ⟨max least (dll.name.length + 1), fun fuel enough => ?_⟩, same, ?_⟩
    · have thunks := runs fuel (by omega)
      unfold thunkTable at thunks
      rw [bindDescriptors, fields offsetofName (by decide), if_neg held.nameSome,
        name fuel (by omega)]
      dsimp only
      rw [registered, original, first, held.firstThunk]
      rw [held.firstThunk] at thunks
      dsimp only [Option.map_some]
      rw [thunks]
    · intro other isOther
      cases isOther
      exact values

end Held

/-- The import loop binds every descriptor and writes nothing else. -/
theorem bindDescriptors_eq (fits : imageBase + imageSize ≤ 2 ^ 64) {allocates : Bool}
    {modules : List PeModule} {dlls : List ImportedDll}
    (held : HoldsDescriptors memory imageBase imageSize written address dlls)
    (separate : dlls.Pairwise fun dll other =>
      ∀ index, dll.Slots imageBase index → ¬ other.Slots imageBase index)
    (slots : ∀ dll ∈ dlls, ∀ index, dll.Slots imageBase index → written index)
    (registered : ∀ dll ∈ dlls,
      peFindModuleHandle allocates modules dll.name = dll.exporter.map Exporter.image)
    (formed : ∀ dll ∈ dlls, ∀ exporter ∈ dll.exporter,
      exporter.WellFormed memory imageBase imageSize)
    (found : ∀ dll ∈ dlls, ∀ exporter ∈ dll.exporter, exporter.Found memory) :
    ∃ bound, (∃ least, ∀ fuel ≥ least,
        bindDescriptors allocates modules imageBase fuel memory address = some bound) ∧
      SameExcept (fun index => ∃ dll ∈ dlls, dll.Slots imageBase index) memory bound ∧
      ∀ dll ∈ dlls, ∀ exporter ∈ dll.exporter, ∀ j ref, dll.refs[j]? = some ref →
        load bound 8 (imageBase + dll.firstThunk + 8 * j) =
          slotValue memory exporter.image exporter.tables ref := by
  induction dlls generalizing memory address with
  | nil =>
    obtain ⟨inside, -, terminator⟩ := held
    unfold sizeofImportDescriptor at inside
    refine ⟨memory, ⟨1, fun fuel enough => ?_⟩, fun index _ => rfl, fun dll none => nomatch none⟩
    obtain ⟨fuel, rfl⟩ : ∃ less, fuel = less + 1 := ⟨fuel - 1, by omega⟩
    have name : field memory (address + offsetofName) 4 = 0 :=
      (field_of_lt (by unfold offsetofName; omega)).trans terminator
    rw [bindDescriptors, if_pos name]
  | cons dll dlls ih =>
    obtain ⟨apart, separate⟩ := pairwise_cons.mp separate
    obtain ⟨slotsHere, slots⟩ := forall_mem_cons.mp slots
    obtain ⟨registeredHere, registered⟩ := forall_mem_cons.mp registered
    obtain ⟨formedHere, formed⟩ := forall_mem_cons.mp formed
    obtain ⟨foundHere, found⟩ := forall_mem_cons.mp found
    obtain ⟨middle, ⟨least, turn⟩, changed, values⟩ :=
      held.1.turn fits registeredHere formedHere foundHere slotsHere
    have slotsInside := held.1.slotsInside
    have inImage : SameOutside memory middle imageBase (imageBase + imageSize) :=
      fun index outside => changed index fun slot => by
        obtain ⟨first, last⟩ := slot
        omega
    have rest : HoldsDescriptors middle imageBase imageSize written
        (address + sizeofImportDescriptor) dlls := by
      refine held.2.congr fun index kept => changed index fun slot => ?_
      exact kept ⟨slotsHere index slot, fun other member => apart other member index slot⟩
    obtain ⟨bound, ⟨leastRest, runs⟩, same, valuesRest⟩ := ih rest separate slots registered
      (fun other member exporter isExporter =>
        (formed other member exporter isExporter).congr inImage)
      (fun other member exporter isExporter => (found other member exporter isExporter).congr
        (formed other member exporter isExporter) inImage)
    refine ⟨bound, ⟨max least leastRest + 1, fun fuel enough => ?_⟩, ?_, ?_⟩
    · obtain ⟨fuel, rfl⟩ : ∃ less, fuel = less + 1 := ⟨fuel - 1, by omega⟩
      rw [turn fuel (by omega), runs fuel (by omega)]
    · intro index kept
      rw [same index fun ⟨other, member, slot⟩ =>
          kept ⟨other, mem_cons_of_mem _ member, slot⟩,
        changed index fun slot => kept ⟨dll, mem_cons_self, slot⟩]
    · intro other member exporter isExporter j ref listed
      obtain rfl | member := mem_cons.mp member
      · have index := (List.getElem?_eq_some_iff.mp listed).1
        have unwritten : Apart (fun index => ∃ dll ∈ dlls, dll.Slots imageBase index)
            (imageBase + other.firstThunk + 8 * j) (imageBase + other.firstThunk + 8 * j + 8) := by
          rintro index first last ⟨written, member, slot⟩
          exact apart written member index ⟨by omega, by omega⟩ slot
        rw [(same.sameInside unwritten).load_eq (Nat.le_refl _) (Nat.le_refl _)]
        exact values exporter isExporter j ref listed
      · rw [valuesRest other member exporter isExporter j ref listed]
        exact (found other member exporter isExporter).slotValue_eq
          (formed other member exporter isExporter) inImage ref

end Descriptors

/-- The import directory, as the headers of the file have it. -/
def importRva (file : ByteMemory) : Nat :=
  ntField file (offsetofDataDirectory imageDirectoryEntryImport) 4

/-- An image that imports from the DLLs, behind the import directory of its file. -/
structure Imports (memory file : ByteMemory) (image : PeImage) (dlls : List ImportedDll) :
    Prop where
  loaded : LoadedFrom file image
  fits : image.mappedBase + image.imageSize ≤ 2 ^ 64
  descriptors :
    if importRva file = 0 then dlls = []
    else HoldsDescriptors memory image.mappedBase image.imageSize
      (fun index => ∃ dll ∈ dlls, dll.Slots image.mappedBase index)
      (image.mappedBase + importRva file) dlls
  separate : dlls.Pairwise fun dll other =>
    ∀ index, dll.Slots image.mappedBase index → ¬ other.Slots image.mappedBase index

theorem HoldsDescriptors.inside {memory : ByteMemory} {imageBase imageSize address : Nat}
    {written : Nat → Prop} {dlls : List ImportedDll}
    (held : HoldsDescriptors memory imageBase imageSize written address dlls) :
    address + sizeofImportDescriptor ≤ imageBase + imageSize := by
  cases dlls with
  | nil => exact held.1
  | cons dll dlls => exact held.1.inside

theorem LoadedFrom.imports_eq {file : ByteMemory} {image : PeImage}
    (loaded : LoadedFrom file image) :
    image.imports = if importRva file = 0 then none
      else some ((image.mappedBase + importRva file) % 2 ^ 64) := by
  obtain ⟨fuel, fileSize, isExe, pages, prior, contents, done⟩ := loaded
  rw [(peLoadImage_value done).1]
  unfold importRva imageOf
  dsimp only

/-- A file of an image of 512 bytes without sections, whose headers are all of it. -/
def headerFile (imageBase : Nat) (fields : List (Nat × Nat × Nat)) : ByteMemory :=
  ([(2, 0, imageDosSignature), (4, 60, 64), (4, 64, imageNtSignature),
    (2, 68, imageFileMachineAmd64), (2, 84, 488), (2, 88, 0x20B), (8, 112, imageBase),
    (4, 144, 512), (4, 196, 16)] ++ fields).foldl
    (fun memory (width, address, value) => store memory width address value) fun _ => 0

/-- It exports `F`, at 448 in the image, as its only function. -/
def exporterFile (base : Nat) : ByteMemory :=
  headerFile 0x200000000 [(4, 200, 328), (4, 204, 60), (4, 344, base), (4, 348, 1), (4, 352, 1),
    (4, 356, 368), (4, 360, 372), (4, 364, 376), (4, 368, 448), (4, 372, 380), (1, 380, 0x46)]

/-- It imports `F` from `d` by its name and by its ordinal. -/
def importerFile (ordinal : Nat) : ByteMemory :=
  headerFile 0x100000000 [(4, 208, 328), (4, 212, 40), (4, 328, 368), (4, 340, 424), (4, 344, 392),
    (8, 368, 416), (8, 376, 2 ^ 63 + ordinal), (8, 392, 416), (8, 400, 2 ^ 63 + ordinal),
    (1, 418, 0x46), (1, 424, 0x64)]

/-- Both images in memory. -/
def pairMemory (base : Nat) : ByteMemory := fun address =>
  if 0x200000000 ≤ address then exporterFile base (address - 0x200000000)
  else importerFile base (address - 0x100000000)

def exporterOf (base : Nat) : Exporter where
  file := exporterFile base
  image := imageOf (exporterFile base) false
  tables := { base := base, functions := [448], names := [([0x46], 0)] }

def importedFrom (base : Nat) : ImportedDll where
  name := [0x64]
  firstThunk := 392
  refs := [.name [0x46], .ordinal base]
  exporter := some (exporterOf base)

theorem apart_slots (base : Nat) {low high : Nat}
    (below : high ≤ 0x100000000 + 392 ∨ 0x100000000 + 416 ≤ low) :
    Apart (fun index => ∃ dll ∈ [importedFrom base], dll.Slots 0x100000000 index) low high := by
  rintro index first last ⟨dll, member, slot⟩
  obtain rfl := mem_singleton.mp member
  obtain ⟨lower, upper⟩ : 0x100000000 + 392 ≤ index ∧ index < 0x100000000 + 392 + 8 * 3 := slot
  omega

/-- Where the two images and their directories are. -/
def PairMapped (base : Nat) : Prop :=
  (exporterOf base).image.mappedBase = 0x200000000 ∧ (exporterOf base).image.imageSize = 512 ∧
    (exporterOf base).rva = 328 ∧ (exporterOf base).size = 60 ∧
    (imageOf (importerFile base) false).mappedBase = 0x100000000 ∧
    (imageOf (importerFile base) false).imageSize = 512 ∧ importRva (importerFile base) = 328

instance (base : Nat) : Decidable (PairMapped base) := inferInstanceAs (Decidable (_ ∧ _))

/-- `PeLoadImage` takes a file of 1024 bytes without relocations. -/
def TakenAsIs (file : ByteMemory) : Prop :=
  (peValidateImage file 1024).value = statusSuccess ∧
    mapPages (fun _ => statusSuccess) (sizeOfImage file) = none ∧
    ntField file (offsetofDataDirectory imageDirectoryEntryBasereloc) 4 = 0

instance (file : ByteMemory) : Decidable (TakenAsIs file) := inferInstanceAs (Decidable (_ ∧ _))

/-- The fields of the tables in memory: width, address and value. -/
def pairFields (base : Nat) : List (Nat × Nat × Nat) :=
  [(4, 0x200000000 + 328 + offsetofBase, base),
    (4, 0x200000000 + 328 + offsetofNumberOfFunctions, 1),
    (4, 0x200000000 + 328 + offsetofNumberOfNames, 1),
    (4, 0x200000000 + 328 + offsetofAddressOfFunctions, 368),
    (4, 0x200000000 + 328 + offsetofAddressOfNames, 372),
    (4, 0x200000000 + 328 + offsetofAddressOfNameOrdinals, 376),
    (4, 0x200000000 + 368 + 0 * 4, 448), (4, 0x200000000 + 372 + 0 * 4, 380),
    (2, 0x200000000 + 376 + 0 * 2, 0), (4, 0x100000000 + 328 + offsetofOriginalFirstThunk, 368),
    (4, 0x100000000 + 328 + offsetofName, 424), (4, 0x100000000 + 328 + offsetofFirstThunk, 392),
    (8, 0x100000000 + 368, 416), (8, 0x100000000 + 368 + 8, 2 ^ 63 + base),
    (8, 0x100000000 + 368 + 8 + 8, 0),
    (4, 0x100000000 + 328 + sizeofImportDescriptor + offsetofName, 0)]

/-- The strings in memory, and the headers as the lookups read them. -/
def PairStrings (base : Nat) : Prop :=
  (HoldsString (pairMemory base) (0x200000000 + 380) [0x46] ∧
    HoldsString (pairMemory base) (0x100000000 + 416 + offsetofImportName) [0x46] ∧
    HoldsString (pairMemory base) (0x100000000 + 424) [0x64]) ∧
  sizeofDosHeader + sizeofNtHeaders ≤ (exporterOf base).image.imageSize ∧
    load (pairMemory base) 4 (mappedHeaders (exporterOf base).image +
      offsetofDataDirectory imageDirectoryEntryExport) = (exporterOf base).rva ∧
    load (pairMemory base) 4 (mappedHeaders (exporterOf base).image +
      offsetofDataDirectory imageDirectoryEntryExport + 4) = (exporterOf base).size ∧
    sizeofDosHeader + offsetofNumberOfRvaAndSizes +
      load (pairMemory base) 4 (mappedHeaders (exporterOf base).image +
        offsetofNumberOfRvaAndSizes) * sizeofDataDirectory +
      load (pairMemory base) 2 (mappedHeaders (exporterOf base).image +
        offsetofNumberOfSections) * sizeofSectionHeader ≤ (exporterOf base).image.imageSize

instance (base : Nat) : Decidable (PairStrings base) := inferInstanceAs (Decidable (_ ∧ _))

section Pair

variable {base : Nat} (one : base = 448 ∨ base = 1)

include one

theorem pair_evaluated :
    PairMapped base ∧ TakenAsIs (exporterFile base) ∧ TakenAsIs (importerFile base) ∧
      PairStrings base ∧ ∀ field ∈ pairFields base,
        load (pairMemory base) field.1 field.2.1 = field.2.2 := by
  rcases one with rfl | rfl <;> decide +kernel

theorem pair_field {width address value : Nat}
    (listed : (width, address, value) ∈ pairFields base) :
    load (pairMemory base) width address = value :=
  (pair_evaluated one).2.2.2.2 _ listed

theorem loadedFrom_headerFile (file : ByteMemory)
    (isPair : file = exporterFile base ∨ file = importerFile base) :
    LoadedFrom file (imageOf file false) := by
  obtain ⟨_, exporter, importer, _⟩ := pair_evaluated one
  have taken : TakenAsIs file := by
    rcases isPair with rfl | rfl
    · exact exporter
    · exact importer
  exact ⟨0, 1024, false, fun _ => statusSuccess, fun _ => 0, copiedImage file fun _ => 0,
    peLoadImage_success taken.1 taken.2.1 taken.2.2 0 false⟩

/-- The exporting image of the example has its tables. -/
theorem exporterOf_holdsExports :
    HoldsExports (pairMemory base) (exporterOf base).image (exporterOf base).rva
      (exporterOf base).size (exporterOf base).tables := by
  obtain ⟨⟨mapped, imageSize, rva, size, _⟩, _, _, ⟨⟨exported, _⟩, _⟩, _⟩ := pair_evaluated one
  have functions := @pair_field base one 4 (0x200000000 + 328 + offsetofAddressOfFunctions) 368
    (by simp [pairFields])
  have names := @pair_field base one 4 (0x200000000 + 328 + offsetofAddressOfNames) 372
    (by simp [pairFields])
  have ordinals := @pair_field base one 4 (0x200000000 + 328 + offsetofAddressOfNameOrdinals) 376
    (by simp [pairFields])
  have string := @pair_field base one 4 (0x200000000 + 372 + 0 * 4) 380 (by simp [pairFields])
  constructor
  case fits => rw [mapped, imageSize]; decide
  case directory => rw [imageSize, rva]; decide
  case base => rw [mapped, rva]; exact pair_field one (by simp [pairFields, exporterOf])
  case numberOfFunctions =>
    rw [mapped, rva]
    exact pair_field one (by simp [pairFields, exporterOf])
  case numberOfNames => rw [mapped, rva]; exact pair_field one (by simp [pairFields, exporterOf])
  case functionsInside =>
    rw [mapped, imageSize, rva, functions]
    exact (by decide : 368 + 1 * 4 ≤ 512)
  case functions =>
    intro n function listed
    obtain ⟨rfl, rfl⟩ : n = 0 ∧ function = 448 := by
      cases n with
      | zero => exact ⟨rfl, (Option.some.inj listed).symm⟩
      | succ n => cases listed
    rw [mapped, rva, functions]
    exact pair_field one (by simp [pairFields])
  case namesInside =>
    rw [mapped, imageSize, rva, names]
    exact (by decide : 372 + 1 * 4 ≤ 512)
  case nameStrings =>
    intro i entry listed
    obtain ⟨rfl, rfl⟩ : i = 0 ∧ entry = ([0x46], 0) := by
      cases i with
      | zero => exact ⟨rfl, (Option.some.inj listed).symm⟩
      | succ i => cases listed
    rw [mapped, imageSize, rva, names, string]
    exact ⟨by decide, exported⟩
  case ordinalsInside =>
    rw [mapped, imageSize, rva, ordinals]
    exact (by decide : 376 + 1 * 2 ≤ 512)
  case nameOrdinals =>
    intro i entry listed
    obtain ⟨rfl, rfl⟩ : i = 0 ∧ entry = ([0x46], 0) := by
      cases i with
      | zero => exact ⟨rfl, (Option.some.inj listed).symm⟩
      | succ i => cases listed
    rw [mapped, rva, ordinals]
    exact pair_field one (by simp [pairFields])
  case named =>
    intro entry member
    obtain rfl := mem_singleton.mp member
    exact ⟨448, rfl, by decide⟩
  case ordinals => rcases one with rfl | rfl <;> decide
  case notForwarded =>
    intro function member
    obtain rfl := mem_singleton.mp member
    rw [imageSize, rva, size]
    decide

theorem exporterOf_wellFormed : (exporterOf base).WellFormed (pairMemory base) 0x100000000 512 := by
  obtain ⟨⟨mapped, _, rva, size, _⟩, _⟩ := pair_evaluated one
  constructor
  case loaded => exact loadedFrom_headerFile one _ (.inl rfl)
  case rvaSome => rw [rva]; decide
  case sizeSome => rw [size]; decide
  case held => exact exporterOf_holdsExports one
  case apart => rw [mapped]; exact .inr (by decide)

theorem exporterOf_found : (exporterOf base).Found (pairMemory base) := by
  obtain ⟨_, _, _, ⟨_, headers, exportRva, exportSize, sections⟩, _⟩ := pair_evaluated one
  exact ⟨headers, exportRva, exportSize, sections⟩

theorem importedFrom_holdsDescriptor :
    HoldsDescriptor (pairMemory base) 0x100000000 512
      (fun index => ∃ dll ∈ [importedFrom base], dll.Slots 0x100000000 index) (0x100000000 + 328)
      (importedFrom base) := by
  obtain ⟨_, _, _, ⟨⟨_, asked, dllName⟩, _⟩, _⟩ := pair_evaluated one
  have original := @pair_field base one 4 (0x100000000 + 328 + offsetofOriginalFirstThunk) 368
    (by simp [pairFields])
  have table : thunkTable (pairMemory base) (0x100000000 + 328) = 368 := by
    rw [thunkTable, original, if_pos (by decide)]
  have name := @pair_field base one 4 (0x100000000 + 328 + offsetofName) 424 (by simp [pairFields])
  have first := @pair_field base one 8 (0x100000000 + 368) 416 (by simp [pairFields])
  have second := @pair_field base one 8 (0x100000000 + 368 + 8) (2 ^ 63 + base)
    (by simp [pairFields])
  constructor
  case inside => decide
  case apart => exact apart_slots base (by decide)
  case nameSome => rw [name]; decide
  case nameInside => rw [name]; exact (by decide : 424 + 1 + 1 ≤ 512)
  case nameString => rw [name]; exact dllName
  case nameApart => rw [name]; exact apart_slots base (.inr (by decide))
  case firstThunk => exact pair_field one (by simp [pairFields, importedFrom])
  case slotsInside => exact (by decide : 392 + 8 * (2 + 1) ≤ 512)
  case thunksInside => rw [table]; exact (by decide : 368 + 8 * (2 + 1) ≤ 512)
  case thunksApart =>
    rw [table]
    exact .inr (apart_slots base (.inl (show 0x100000000 + 368 + 8 * (2 + 1) ≤ _ by decide)))
  case thunks =>
    rw [table]
    refine ⟨?_, ?_, ?_, trivial, ?_⟩
    · rw [first]
      exact ⟨by decide, by decide, by decide, asked⟩
    · rw [first]
      exact apart_slots base (by decide)
    · rw [second]
      rcases one with rfl | rfl <;> exact ⟨by decide, by decide⟩
    · exact pair_field one (by simp [pairFields])

theorem importerFile_imports :
    Imports (pairMemory base) (importerFile base) (imageOf (importerFile base) false)
      [importedFrom base] := by
  obtain ⟨⟨_, _, _, _, mapped, size, directory⟩, _⟩ := pair_evaluated one
  constructor
  case loaded => exact loadedFrom_headerFile one _ (.inr rfl)
  case fits => rw [mapped, size]; decide
  case descriptors =>
    rw [directory, if_neg (by decide), mapped, size]
    exact ⟨importedFrom_holdsDescriptor one, by decide, apart_slots base (by decide),
      pair_field one (by simp [pairFields])⟩
  case separate => exact pairwise_singleton _ _

end Pair

end MinNT.Ke.Pe
