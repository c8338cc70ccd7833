import Mathlib.Logic.Function.Basic
import MinNT.Mm.TableGrowth

open ByteMemory

/-! MMIO mappings: `MmMapIoSpace` and `MmUnmapIoSpace`. -/

namespace MinNT.Mm

open Function

def mmioMappingMax : Nat := 128

/-- Where `MmIoVaCursor` starts. -/
def mmIoHighest : Nat := 0xFFFFF80000000000

/-- The boundary that `MmMapIoSpace` does not go below. -/
def mmIoLowest : Nat := 0xFFFFF70000000000

/-- `PTE_PRESENT | PTE_WRITE | PTE_PCD | PTE_PWT | PTE_PAT`. -/
def mmioPteFlags : Nat := 0x9B

structure MmioMapping where
  virtualAddress : Nat
  length : Nat
  physicalAddress : Nat
  referenceCount : Nat
  active : Bool
deriving DecidableEq, Repr

/-- `MmIoMappingTable`, `MmIoMappingCount`, `MmIoVaCursor`, and the memory below them. -/
structure IoState where
  mm : MmState
  table : Nat → MmioMapping
  mappingCount : Nat
  vaCursor : Nat

/-- `numPages` of `MmMapIoSpace`: the length from the start of the first page on, rounded up. -/
def ioPages (startPa length : Nat) : Nat :=
  let endPa := pageAlign (add64 (add64 startPa length) (pageSize - 1))
  subtract64 endPa startPa / pageSize % 2 ^ 32

/-- `start + (i * PAGE_SIZE)`, with the product in 32 bits. -/
def ioPage (start i : Nat) : Nat := add64 start (i * pageSize % 2 ^ 32)

/-- The entry that maps a page. -/
def ioEntry (pa : Nat) : Nat := pa / 2 ^ 12 * 2 ^ 12 ||| mmioPteFlags

/-- The loop that maps pages, from page `i` on; the result is the page it failed at. -/
def mapIoPages (cr3 startVa startPa : Nat) : Nat → Nat → MmState → Option Nat × MmState
  | 0, _, mm => (none, mm)
  | remaining + 1, i, mm =>
      match mmpWalkToPte mm (ioPage startVa i) cr3 with
      | (none, mm) => (some i, mm)
      | (some pte, mm) =>
          mapIoPages cr3 startVa startPa remaining (i + 1)
            (writeLeaf mm pte (ioEntry (ioPage startPa i)))

/-- `MmpRollbackMapping`, and the same loop of `MmUnmapIoSpace`, from page `i` on. -/
def mmpRollbackMapping (cr3 startVa : Nat) : Nat → Nat → MmState → MmState
  | 0, _, mm => mm
  | remaining + 1, i, mm =>
      match mmpWalkToPte mm (ioPage startVa i) cr3 with
      | (none, mm) => mmpRollbackMapping cr3 startVa remaining (i + 1) mm
      | (some pte, mm) => mmpRollbackMapping cr3 startVa remaining (i + 1) (writeLeaf mm pte 0)

/-- The virtual address that `MmMapIoSpace` tries. -/
def ioStartVa (vaCursor numPages : Nat) : Nat :=
  subtract64 (pageAlign vaCursor) (numPages * pageSize % 2 ^ 32)

def mmMapIoSpace (io : IoState) (cr3 physicalAddress length : Nat) : Option Nat × IoState :=
  if length = 0 then (none, io)
  else if io.mappingCount ≥ mmioMappingMax then (none, io)
  else
    let startPa := pageAlign physicalAddress
    let numPages := ioPages startPa length
    let entryIndex := io.mappingCount
    let startVa := ioStartVa io.vaCursor numPages
    if startVa < mmIoLowest then (none, { io with vaCursor := pageAlign io.vaCursor })
    else
      let mapping : MmioMapping := ⟨startVa, length, physicalAddress, 1, true⟩
      match mapIoPages cr3 startVa startPa numPages 0 io.mm with
      | (some i, mm) =>
          (none,
            { mm := mmpRollbackMapping cr3 startVa i 0 mm
              table := update io.table entryIndex
                { mapping with active := false, referenceCount := 0 }
              mappingCount := io.mappingCount
              vaCursor := startVa })
      | (none, mm) =>
          (some startVa,
            { mm := mm
              table := update io.table entryIndex mapping
              mappingCount := io.mappingCount + 1
              vaCursor := startVa })

/-- The active mapping that starts at an address. -/
def findMapping (io : IoState) (virtualAddress : Nat) : Option Nat :=
  (List.range io.mappingCount).find? fun i =>
    (io.table i).active && (io.table i).virtualAddress == virtualAddress

def mmUnmapIoSpace (io : IoState) (cr3 virtualAddress : Nat) : IoState :=
  if virtualAddress = 0 then io
  else
    match findMapping io virtualAddress with
    | none => io
    | some i =>
        let mapping := io.table i
        let referenceCount := subtract32 mapping.referenceCount 1
        if referenceCount > 0 then
          { io with table := update io.table i { mapping with referenceCount } }
        else
          let numPages := add64 mapping.length (pageSize - 1) / pageSize % 2 ^ 32
          { io with
            mm := mmpRollbackMapping cr3 mapping.virtualAddress numPages 0 io.mm
            table := update io.table i
              { mapping with active := false, referenceCount := 0 } }

/-- The physical address behind an address, under the leaf that its walk ends in. -/
def Leaf.physicalAddress (leaf : Leaf) (va : Nat) : Nat :=
  frameOf leaf.entry / 2 ^ (12 + 9 * leaf.level) * 2 ^ (12 + 9 * leaf.level) +
    va % 2 ^ (12 + 9 * leaf.level)

/-- The processor translates the address to the physical address. -/
def TranslatesTo (memory : ByteMemory) (cr3 va pa : Nat) : Prop :=
  ∃ leaf, translate memory cr3 va = some leaf ∧ leaf.physicalAddress va = pa

theorem ioPages_eq {startPa length : Nat} (aligned : startPa % pageSize = 0)
    (word : startPa < 2 ^ 64) (lengthWord : length < 2 ^ 32) :
    ioPages startPa length = (length + (pageSize - 1)) / pageSize := by
  unfold ioPages subtract64 pageAlign add64 pageSize at *
  dsimp only
  split <;> omega

theorem pageAlign_lt {va : Nat} (word : va < 2 ^ 64) : pageAlign va < 2 ^ 64 :=
  Nat.lt_of_le_of_lt (pageAlign_le va) word

theorem pageAlign_page (va : Nat) : pageAlign va % pageSize = 0 :=
  Nat.mul_mod_left _ _

theorem ioStartVa_page (vaCursor numPages : Nat) : ioStartVa vaCursor numPages % pageSize = 0 := by
  have cursor := pageAlign_page vaCursor
  unfold ioStartVa subtract64
  generalize pageAlign vaCursor = aligned at *
  unfold pageSize at *
  split <;> omega

/-- The pages of a mapping follow one another, as long as they do not come to the end of the
address space. -/
theorem ioPage_eq {start i : Nat} (few : i < 2 ^ 20) (inside : start + i * pageSize < 2 ^ 64) :
    ioPage start i = start + i * pageSize := by
  unfold ioPage add64 pageSize at *
  omega

theorem ioEntry_eq (pa : Nat) : ioEntry pa = pa / 2 ^ 12 * 2 ^ 12 + mmioPteFlags := by
  unfold ioEntry
  rw [Nat.mul_comm, ← Nat.two_pow_add_eq_or_of_lt (by decide)]

theorem ioEntry_present (pa : Nat) : HasBit (ioEntry pa) ptePresent := by
  rw [ioEntry_eq]
  unfold HasBit ptePresent mmioPteFlags
  omega

theorem ioEntry_lt {pa : Nat} (word : pa < 2 ^ 64) : ioEntry pa < 2 ^ 64 := by
  rw [ioEntry_eq]
  unfold mmioPteFlags
  omega

theorem frameOf_ioEntry (pa : Nat) : frameOf (ioEntry pa) = pa / 2 ^ 12 % 2 ^ 40 * 2 ^ 12 := by
  rw [ioEntry_eq]
  unfold frameOf mmioPteFlags
  omega

theorem ioPage_lt (start i : Nat) : ioPage start i < 2 ^ 64 := Nat.mod_lt _ (by decide)

theorem translate_page {memory : ByteMemory} {cr3 va va' : Nat} (same : pageOf va' = pageOf va) :
    translate memory cr3 va' = translate memory cr3 va := by
  have canonical : Canonical va' ↔ Canonical va := by
    unfold pageOf at same
    unfold Canonical
    omega
  have below : SameBelow 4 va va' := by
    unfold SameBelow
    rw [same]
  obtain ⟨index, rest⟩ := (sameBelow_succ 3 va va').mp below
  unfold translate
  by_cases here : Canonical va
  · rw [if_pos here, if_pos (canonical.mpr here), hardwareWalk_sameBelow rest, slotOf, slotOf,
      index]
  · rw [if_neg here, if_neg fun there => here (canonical.mp there)]

/-- The first pages of a mapping have their entries, and the tables are in order for all of
them. -/
structure MappedPages (cr3 startVa startPa total count : Nat) (mm : MmState) : Prop where
  hierarchy : Hierarchy mm cr3
  owned : ∀ j < total, Owned mm.memory cr3 (ioPage startVa j)
  leaves : ∀ j < count, ∃ pte, Visits mm.memory cr3 (ioPage startVa j) 0 pte ∧
    entryAt mm.memory pte = ioEntry (ioPage startPa j)

section Loop

variable {cr3 startVa startPa total : Nat}
  (apart : ∀ j < total, ∀ k < total, pageOf (ioPage startVa j) = pageOf (ioPage startVa k) → j = k)

include apart

/-- One more page of a mapping. -/
theorem MappedPages.step {mm middle : MmState} {i pte : Nat}
    (mapped : MappedPages cr3 startVa startPa total i mm) (inside : i < total)
    (walked : mmpWalkToPte mm (ioPage startVa i) cr3 = (some pte, middle)) :
    MappedPages cr3 startVa startPa total (i + 1)
      (writeLeaf middle pte (ioEntry (ioPage startPa i))) := by
  have own := mapped.owned i inside
  obtain ⟨grown, found⟩ := mmpWalkToPte_grown mapped.hierarchy own walked
  have visits := found pte rfl
  have reached := fun va level slot => @visits_writeLeaf middle cr3 (ioPage startVa i) pte
    (ioEntry (ioPage startPa i)) grown.hierarchy visits va level slot
  constructor
  · exact writeLeaf_hierarchy grown.hierarchy visits
  · intro j bound
    exact writeLeaf_owned grown.hierarchy visits (grown.owned _ (mapped.owned j bound))
  · intro j bound
    by_cases last : j = i
    · subst last
      refine ⟨pte, (reached _ _ _).mpr visits, ?_⟩
      exact entryAt_store_same _ _ (ioEntry_lt (ioPage_lt startPa j))
    · obtain ⟨slot, there, entry⟩ := mapped.leaves j (by omega)
      have still := grown.visits _ _ _ there
      refine ⟨slot, (reached _ _ _).mpr still, ?_⟩
      have earlier : j < total := by omega
      rw [writeLeaf_other visits (grown.owned _ own) (mapped.owned j earlier).canonical still
        fun same => last (apart j earlier i inside same), grown.leaves _ _ there, entry]

theorem MappedPages.loop {remaining i : Nat} {mm after : MmState}
    (mapped : MappedPages cr3 startVa startPa total i mm) (whole : i + remaining = total)
    (done : mapIoPages cr3 startVa startPa remaining i mm = (none, after)) :
    MappedPages cr3 startVa startPa total total after := by
  induction remaining generalizing i mm with
  | zero =>
    rw [mapIoPages] at done
    cases done
    rw [Nat.add_zero] at whole
    exact whole ▸ mapped
  | succ remaining ih =>
    rw [mapIoPages] at done
    cases walked : mmpWalkToPte mm (ioPage startVa i) cr3 with
    | mk result middle =>
    rw [walked] at done
    cases result with
    | none => cases done
    | some pte => exact ih (mapped.step apart (by omega) walked) (by omega) done

end Loop

/-- What the pages of a mapping translate to. -/
theorem MappedPages.translatesTo {cr3 startVa startPa total : Nat} {mm : MmState}
    (mapped : MappedPages cr3 startVa startPa total total mm) {j va pa : Nat} (inside : j < total)
    (page : pageOf va = pageOf (ioPage startVa j)) :
    TranslatesTo mm.memory cr3 va pa ↔
      pa = ioPage startPa j / 2 ^ 12 % 2 ^ 40 * 2 ^ 12 + va % 2 ^ 12 := by
  obtain ⟨pte, visits, entry⟩ := mapped.leaves j inside
  have walk := translate_leaf (mapped.owned j inside).canonical visits
    (entry ▸ ioEntry_present (ioPage startPa j))
  rw [← translate_page page, entry] at walk
  have address : Leaf.physicalAddress ⟨0, ioEntry (ioPage startPa j)⟩ va =
      ioPage startPa j / 2 ^ 12 % 2 ^ 40 * 2 ^ 12 + va % 2 ^ 12 := by
    unfold Leaf.physicalAddress
    rw [frameOf_ioEntry, Nat.mul_zero, Nat.add_zero, Nat.mul_div_cancel _ (by decide)]
  unfold TranslatesTo
  rw [walk, ← address]
  constructor
  · rintro ⟨leaf, found, same⟩
    cases found
    exact same.symm
  · rintro rfl
    exact ⟨_, rfl, rfl⟩

theorem mmMapIoSpace_some {io after : IoState} {cr3 physicalAddress length va : Nat}
    (returned : mmMapIoSpace io cr3 physicalAddress length = (some va, after)) :
    length ≠ 0 ∧ va = ioStartVa io.vaCursor (ioPages (pageAlign physicalAddress) length) ∧
      mapIoPages cr3 va (pageAlign physicalAddress)
        (ioPages (pageAlign physicalAddress) length) 0 io.mm = (none, after.mm) := by
  unfold mmMapIoSpace at returned
  split at returned
  · cases returned
  rename_i positive
  split at returned
  · cases returned
  dsimp only at returned
  split at returned
  · cases returned
  split at returned
  · cases returned
  · rename_i done
    cases returned
    exact ⟨positive, rfl, done⟩

/-- A mapping is exact for a range that starts at a page and ends within the addresses that an entry
has room for. -/
theorem mmMapIoSpace_exact_iff {io after : IoState} {cr3 physicalAddress length va : Nat}
    (hierarchy : Hierarchy io.mm cr3) (word : physicalAddress < 2 ^ 64)
    (lengthWord : length < 2 ^ 32)
    (returned : mmMapIoSpace io cr3 physicalAddress length = (some va, after))
    (owned : ∀ i < length, Owned io.mm.memory cr3 (va + i)) :
    (∀ i < length, TranslatesTo after.mm.memory cr3 (va + i) (physicalAddress + i)) ↔
      physicalAddress % pageSize = 0 ∧ physicalAddress + length ≤ 2 ^ 52 := by
  obtain ⟨positive, start, done⟩ := mmMapIoSpace_some returned
  have page : va % pageSize = 0 := by
    rw [start]
    exact ioStartVa_page _ _
  have startPage := pageAlign_page physicalAddress
  rw [ioPages_eq startPage (pageAlign_lt word) lengthWord] at done
  -- every page has an address of the range, so the pages do not wrap
  have inside : ∀ j < (length + (pageSize - 1)) / pageSize,
      j * pageSize < length ∧ ioPage va j = va + j * pageSize := by
    intro j bound
    have first : j * pageSize < length := by
      unfold pageSize at *
      omega
    refine ⟨first, ioPage_eq (by unfold pageSize at first; omega) ?_⟩
    have canonical := (owned _ first).canonical
    unfold Canonical at canonical
    omega
  have apart : ∀ j < (length + (pageSize - 1)) / pageSize,
      ∀ k < (length + (pageSize - 1)) / pageSize,
        pageOf (ioPage va j) = pageOf (ioPage va k) → j = k := by
    intro j bound k bound' same
    rw [(inside j bound).2, (inside k bound').2] at same
    unfold pageOf pageSize at *
    omega
  have initial : MappedPages cr3 va (pageAlign physicalAddress)
      ((length + (pageSize - 1)) / pageSize) 0 io.mm := by
    constructor
    · exact hierarchy
    · intro j bound
      rw [(inside j bound).2]
      exact owned _ (inside j bound).1
    · exact fun j none => absurd none (Nat.not_lt_zero j)
  have mapped := initial.loop apart (Nat.zero_add _) done
  have translation : ∀ i < length, TranslatesTo after.mm.memory cr3 (va + i) (physicalAddress + i) ↔
      physicalAddress + i =
        (pageAlign physicalAddress + i / pageSize * pageSize) % 2 ^ 64 / 2 ^ 12 % 2 ^ 40 * 2 ^ 12 +
          i % pageSize := by
    intro i bound
    have few : i / pageSize < (length + (pageSize - 1)) / pageSize := by
      unfold pageSize
      omega
    have samePage : pageOf (va + i) = pageOf (ioPage va (i / pageSize)) := by
      rw [(inside _ few).2]
      unfold pageOf pageSize at *
      omega
    have offset : (va + i) % 2 ^ 12 = i % pageSize := by
      unfold pageSize at *
      omega
    have product : i / pageSize * pageSize % 2 ^ 32 = i / pageSize * pageSize := by
      unfold pageSize
      omega
    rw [mapped.translatesTo few samePage, offset, ioPage, product, add64]
  constructor
  · intro exact
    have last := (translation (length - 1) (by omega)).mp (exact (length - 1) (by omega))
    generalize pageAlign physicalAddress = startPa at *
    unfold pageSize at *
    omega
  · rintro ⟨aligned, bounded⟩ i bound
    rw [translation i bound]
    unfold pageAlign pageSize at *
    omega

/-- The machine with three free pages, and no mapping. -/
def threePageIo : IoState := ⟨threePageMm, fun _ => ⟨0, 0, 0, 0, false⟩, 0, mmIoHighest⟩

/-- A range of a device at an address. -/
def deviceRange (physicalAddress : Nat) : Option Nat × IoState :=
  mmMapIoSpace threePageIo 0x1000 physicalAddress 4

theorem deviceRange_eq {physicalAddress va : Nat}
    (address : (deviceRange physicalAddress).1 = some va) :
    mmMapIoSpace threePageIo 0x1000 physicalAddress 4 =
      (some va, (deviceRange physicalAddress).2) := by
  rw [← address]
  rfl

theorem threePageIo_owned {va : Nat} (canonical : Canonical va) :
    Owned threePageIo.mm.memory 0x1000 va := by
  apply Owned.of_absent canonical
  have entry : entryAt threePageIo.mm.memory (slotOf (frameOf 0x1000) va 3) = 0 :=
    zeroMemory_entry _
  rw [entry]
  decide

/-- That machine once the page of the device is mapped. -/
def devicePageMapped : MmState :=
  writeLeaf (threePageTables 0xFFFFF7FFFFFFF000) (slotOf 0x102000 0xFFFFF7FFFFFFF000 0) 0xFEE0009B

theorem devicePage_mapped : mapIoPages 0x1000 0xFFFFF7FFFFFFF000 0xFEE00000 1 0 threePageMm =
    (none, devicePageMapped) := by
  have first : ioPage 0xFFFFF7FFFFFFF000 0 = 0xFFFFF7FFFFFFF000 := by decide
  have entry : ioEntry (ioPage 0xFEE00000 0) = 0xFEE0009B := by decide
  rw [mapIoPages, first, threePageMm_walk]
  dsimp only
  rw [mapIoPages, entry, devicePageMapped]

theorem deviceRange_page {physicalAddress : Nat} (page : pageAlign physicalAddress = 0xFEE00000) :
    deviceRange physicalAddress = (some 0xFFFFF7FFFFFFF000,
      { mm := devicePageMapped
        table := update threePageIo.table 0
          ⟨0xFFFFF7FFFFFFF000, 4, physicalAddress, 1, true⟩
        mappingCount := 1
        vaCursor := 0xFFFFF7FFFFFFF000 }) := by
  have one : ioPages 0xFEE00000 4 = 1 := by decide
  have start : ioStartVa threePageIo.vaCursor 1 = 0xFFFFF7FFFFFFF000 := by decide
  have mapped : mapIoPages 0x1000 0xFFFFF7FFFFFFF000 0xFEE00000 1 0 threePageIo.mm =
      (none, devicePageMapped) := devicePage_mapped
  have empty : ¬ threePageIo.mappingCount ≥ mmioMappingMax := by decide
  have room : ¬ 0xFFFFF7FFFFFFF000 < mmIoLowest := by decide
  have some : ¬ 4 = 0 := by decide
  simp only [deviceRange, mmMapIoSpace, page, one, start, mapped, empty, room, some, if_false]
  rfl

theorem devicePageMapped_translate :
    translate devicePageMapped.memory 0x1000 0xFFFFF7FFFFFFF000 = some ⟨0, 0xFEE0009B⟩ := by
  decide +kernel

/-- Four bytes of the local APIC. -/
theorem deviceRange_exact :
    (∀ i < 4, TranslatesTo (deviceRange 0xFEE00000).2.mm.memory 0x1000 (0xFFFFF7FFFFFFF000 + i)
      (0xFEE00000 + i)) ↔ 0xFEE00000 % pageSize = 0 ∧ 0xFEE00000 + 4 ≤ 2 ^ 52 :=
  mmMapIoSpace_exact_iff threePageMm_hierarchy (by decide) (by decide)
    (deviceRange_eq (congrArg Prod.fst (deviceRange_page (by decide))))
    fun i bound => threePageIo_owned (.inr (by omega))

/-- A register that does not lie at the start of a page is not at the address returned. -/
theorem deviceRange_inexact : ¬ ∀ (io after : IoState) (cr3 physicalAddress length va : Nat),
    Hierarchy io.mm cr3 → physicalAddress < 2 ^ 64 → length < 2 ^ 32 →
    mmMapIoSpace io cr3 physicalAddress length = (some va, after) →
    (∀ i < length, Owned io.mm.memory cr3 (va + i)) →
    ∀ i < length, TranslatesTo after.mm.memory cr3 (va + i) (physicalAddress + i) := by
  intro exact
  have page : pageAlign 0xFEE00010 = 0xFEE00000 := by decide
  have address := congrArg Prod.fst (deviceRange_page page)
  obtain ⟨leaf, found, physical⟩ := exact threePageIo (deviceRange 0xFEE00010).2 0x1000 0xFEE00010 4
    0xFFFFF7FFFFFFF000 threePageMm_hierarchy (by decide) (by decide) (deviceRange_eq address)
    (fun i bound => threePageIo_owned (.inr (by omega))) 0 (by decide)
  have walk : translate (deviceRange 0xFEE00010).2.mm.memory 0x1000 (0xFFFFF7FFFFFFF000 + 0) =
      some ⟨0, 0xFEE0009B⟩ := by
    rw [deviceRange_page page]
    exact devicePageMapped_translate
  rw [walk] at found
  cases found
  exact absurd physical (by decide)

end MinNT.Mm
