import Mathlib.Data.Finset.Card
import Mathlib.Data.Finset.Prod
import MinNT.Lib.Transition
import MinNT.Mm.FreeFrames
import MinNT.Mm.IoSpace

/-! The windows of MMIO mappings over whole runs of `MmMapIoSpace` and `MmUnmapIoSpace`. -/

namespace MinNT.Mm

open Function Transition

/-- The tables that are missing on the ways to some pages, each with its level and the part of the
address space it is for. -/
noncomputable def missingTables (memory : ByteMemory) (cr3 : Nat) (pages : Finset Nat) :
    Finset (Nat × Nat) :=
  (@Finset.filter (Nat × Nat) (fun way => ¬ ∃ slot, Visits memory cr3 way.1 way.2 slot)
    (Classical.decPred _) (pages ×ˢ Finset.range 3)).image
    fun way => (way.2, pageOf way.1 / 512 ^ (way.2 + 1))

/-- The tables of the pages are in order, with no large page and no entry without a table on the
ways there, and the allocator has a page for every table that is missing. -/
structure WalksReady (cr3 : Nat) (pages : Finset Nat) (mm : MmState) : Prop where
  hierarchy : Hierarchy mm cr3
  owned : ∀ va ∈ pages, Owned mm.memory cr3 va
  linked : ∀ va ∈ pages, ∀ level slot, Visits mm.memory cr3 va (level + 1) slot →
    HasBit (entryAt mm.memory slot) ptePresent → frameOf (entryAt mm.memory slot) ≠ 0
  hintAbove : 0 < mm.hintPfn
  enough : (missingTables mm.memory cr3 pages).card ≤ (freeFrames mm).length

section Walks

variable {mm : MmState} {cr3 va level slot : Nat} {pages : Finset Nat}

theorem mem_missingTables {memory : ByteMemory} {table : Nat × Nat} :
    table ∈ missingTables memory cr3 pages ↔
      ∃ va ∈ pages, table.1 < 3 ∧ (¬ ∃ slot, Visits memory cr3 va table.1 slot) ∧
        table.2 = pageOf va / 512 ^ (table.1 + 1) := by
  simp only [missingTables, Finset.mem_image, Finset.mem_filter, Finset.mem_product,
    Finset.mem_range]
  constructor
  · rintro ⟨⟨va, level⟩, ⟨⟨member, low⟩, missing⟩, rfl⟩
    exact ⟨va, member, low, missing, rfl⟩
  · rintro ⟨va, member, low, missing, part⟩
    exact ⟨(va, table.1), ⟨⟨member, low⟩, missing⟩, Prod.ext rfl part.symm⟩

theorem missingTables_card_le (memory : ByteMemory) (cr3 va : Nat) :
    (missingTables memory cr3 {va}).card ≤ 3 := by
  refine Nat.le_trans Finset.card_image_le
    (Nat.le_trans (@Finset.card_filter_le _ _ _ (Classical.decPred _)) ?_)
  rw [Finset.card_product, Finset.card_singleton, Finset.card_range]

theorem Visits.unique {memory : ByteMemory} {other : Nat} (visits : Visits memory cr3 va level slot)
    (visits' : Visits memory cr3 va level other) : other = slot := by
  induction visits generalizing other with
  | top => exact visits'.slot_top
  | next above _ _ ih =>
    cases visits' with
    | top =>
      have bound := above.level_le
      omega
    | next above' _ _ => rw [ih above']

/-- Pages of the same part of the address space have the same way down to the table for it. -/
theorem Visits.of_samePart {memory : ByteMemory} {va' : Nat}
    (visits : Visits memory cr3 va level slot)
    (same : pageOf va' / 512 ^ level = pageOf va / 512 ^ level) :
    Visits memory cr3 va' level slot := by
  induction visits with
  | top =>
    have index : slotOf (frameOf cr3) va' 3 = slotOf (frameOf cr3) va 3 := by
      rw [slotOf, slotOf, indexAt_eq, indexAt_eq, same]
    exact index ▸ .top
  | @next level slot _ present small ih =>
    have above : pageOf va' / 512 ^ (level + 1) = pageOf va / 512 ^ (level + 1) := by
      rw [Nat.pow_succ, ← Nat.div_div_eq_div_mul, ← Nat.div_div_eq_div_mul, same]
    have index : slotOf (frameOf (entryAt memory slot)) va' level =
        slotOf (frameOf (entryAt memory slot)) va level := by
      rw [slotOf, slotOf, indexAt_eq, indexAt_eq, same]
    exact index ▸ .next (ih above) present small

theorem missing_of_absent {memory : ByteMemory} (page : va ∈ pages)
    (visits : Visits memory cr3 va (level + 1) slot)
    (absent : ¬ HasBit (entryAt memory slot) ptePresent) :
    (level, pageOf va / 512 ^ (level + 1)) ∈ missingTables memory cr3 pages := by
  have low : level < 3 := visits.level_le
  have none : ¬ ∃ visited, Visits memory cr3 va level visited := by
    rintro ⟨visited, there⟩
    cases there with
    | top => exact absurd low (Nat.lt_irrefl 3)
    | next above present _ => exact absent (visits.unique above ▸ present)
  exact mem_missingTables.mpr ⟨va, page, low, none, rfl⟩

section Ready

variable (ready : WalksReady cr3 pages mm)
include ready

/-- A table that is linked in is missing no more, and takes one page. -/
theorem WalksReady.link (page : va ∈ pages) (visits : Visits mm.memory cr3 va (level + 1) slot)
    (absent : ¬ HasBit (entryAt mm.memory slot) ptePresent) {pfn : Nat} (positive : 0 < pfn)
    (free : mm.pfnDatabase.Free pfn)
    (order : freeFrames mm = pfn :: freeFrames (linkTable mm slot pfn)) :
    WalksReady cr3 pages (linkTable mm slot pfn) where
  hierarchy := linkTable_hierarchy ready.hierarchy visits absent free
  owned := fun other member =>
    linkTable_owned ready.hierarchy visits absent free (ready.owned other member)
  linked := by
    intro other member lower visited there present
    rcases visits_of_linkTable ready.hierarchy visits absent free there with old | ⟨_, rfl, _⟩
    · by_cases same : visited = slot
      · rw [same, linkTable_slot free.small, frameOf_tableEntry free.small]
        exact Nat.mul_ne_zero (Nat.pos_iff_ne_zero.mp positive) (by decide)
      · rw [linkTable_visited ready.hierarchy visits free old same] at present ⊢
        exact ready.linked other member lower visited old present
    · rw [linkTable_empty ready.hierarchy visits free other] at present
      exact absurd present (by decide)
  hintAbove := Nat.succ_pos pfn
  enough := by
    have kept := fun {other lower visited : Nat} =>
      @visits_linkTable mm cr3 va level slot pfn ready.hierarchy visits absent free other lower
        visited
    have fewer : missingTables (linkTable mm slot pfn).memory cr3 pages ⊂
        missingTables mm.memory cr3 pages := by
      refine (Finset.ssubset_iff_of_subset ?_).mpr ⟨_, missing_of_absent page visits absent, ?_⟩
      · intro table missing
        obtain ⟨other, member, below, none, part⟩ := mem_missingTables.mp missing
        exact mem_missingTables.mpr
          ⟨other, member, below, fun ⟨visited, there⟩ => none ⟨visited, kept there⟩, part⟩
      · intro missing
        obtain ⟨other, _, _, none, part⟩ := mem_missingTables.mp missing
        have entry := @linkTable_slot mm slot pfn free.small
        exact none ⟨_, .next (kept (visits.of_samePart part.symm))
          (entry.symm ▸ tableEntry_present pfn) (entry.symm ▸ tableEntry_small pfn)⟩
    have before := ready.enough
    have less := Finset.card_lt_card fewer
    rw [order, List.length_cons] at before
    omega

/-- One level of a walk is found, or made from a free page. -/
theorem WalksReady.nextTable (page : va ∈ pages)
    (visits : Visits mm.memory cr3 va (level + 1) slot) :
    ∃ next after, mmpNextTable mm slot = (some next, after) ∧ WalksReady cr3 pages after ∧
      Visits after.memory cr3 va level (slotOf next va level) := by
  have found : ∃ next after, mmpNextTable mm slot = (some next, after) ∧
      WalksReady cr3 pages after := by
    by_cases present : HasBit (entryAt mm.memory slot) ptePresent
    · refine ⟨frameOf (entryAt mm.memory slot), mm, ?_, ready⟩
      rw [mmpNextTable, if_pos present, nonNull,
        if_neg (ready.linked va page level slot visits present)]
    · rcases mmAllocatePhysicalPage_cases mm ready.hintAbove with
        ⟨_, none⟩ | ⟨pfn, lower, free, first, allocated⟩
      · -- The table this page is for is missing, so a page is free.
        have missing := missing_of_absent page visits present
        have some := Nat.lt_of_lt_of_le (Finset.card_pos.mpr ⟨_, missing⟩) ready.enough
        obtain ⟨pfn, member⟩ := List.exists_mem_of_length_pos some
        obtain ⟨lower, free⟩ := mem_freeFrames.mp member
        exact absurd free (none pfn lower)
      · have positive : 0 < pfn := Nat.lt_of_lt_of_le ready.hintAbove lower
        have frame : pfn * pageSize ≠ 0 :=
          Nat.mul_ne_zero (Nat.pos_iff_ne_zero.mp positive) (by decide)
        refine ⟨pfn * pageSize, linkTable mm slot pfn, ?_, ready.link page visits present positive
          free ?_⟩
        · simp only [mmpNextTable, present, allocated, frame, tableEntry_eq, ↓reduceIte,
            entryAt_store_same _ slot (tableEntry_lt free.small), frameOf_tableEntry free.small,
            nonNull, linkTable]
        · rcases mmAllocatePhysicalPage_took ready.hintAbove with
            ⟨_, result⟩ | ⟨pfn', after, _, result, took⟩
          · rw [result] at allocated
            exact absurd (congrArg Prod.fst allocated).symm frame
          · rw [result] at allocated
            obtain ⟨number, rfl⟩ := Prod.mk.inj allocated
            obtain rfl := Nat.eq_of_mul_eq_mul_right (by decide) number
            exact took.order
  obtain ⟨next, after, opened, still⟩ := found
  have onward := (mmpNextTable_grown ready.hierarchy (ready.owned va page) visits opened).2
  exact ⟨next, after, opened, still, (onward next rfl).2⟩

theorem WalksReady.descend {table : Nat} (page : va ∈ pages)
    (visits : Visits mm.memory cr3 va level (slotOf table va level)) :
    ∃ pte after, mmpDescend va level table mm = (some pte, after) ∧ WalksReady cr3 pages after ∧
      Visits after.memory cr3 va 0 pte := by
  induction level generalizing table mm with
  | zero => exact ⟨_, _, rfl, ready, visits⟩
  | succ level ih =>
    obtain ⟨next, middle, opened, still, onward⟩ := ready.nextTable page visits
    rw [mmpDescend, opened]
    exact ih still onward

theorem WalksReady.writeLeaf {pte entry : Nat}
    (visits : Visits mm.memory cr3 va 0 pte) : WalksReady cr3 pages (writeLeaf mm pte entry) where
  hierarchy := writeLeaf_hierarchy ready.hierarchy visits
  owned := fun other member => writeLeaf_owned ready.hierarchy visits (ready.owned other member)
  linked := by
    intro other member lower visited there
    rw [visits_writeLeaf ready.hierarchy visits] at there
    rw [writeLeaf_above ready.hierarchy visits there]
    exact ready.linked other member lower visited there
  hintAbove := ready.hintAbove
  enough := by
    have same : missingTables (Mm.writeLeaf mm pte entry).memory cr3 pages =
        missingTables mm.memory cr3 pages := by
      ext table
      simp only [mem_missingTables, visits_writeLeaf ready.hierarchy visits]
    rw [same]
    exact ready.enough

end Ready

theorem WalksReady.mapIoPages {startVa startPa remaining i : Nat} (ready : WalksReady cr3 pages mm)
    (inside : ∀ j < i + remaining, ioPage startVa j ∈ pages) :
    (mapIoPages cr3 startVa startPa remaining i mm).1 = none := by
  induction remaining generalizing i mm with
  | zero => rfl
  | succ remaining ih =>
    obtain ⟨pte, after, walked, still, visits⟩ :=
      ready.descend (inside i (by omega)) (.top : Visits mm.memory cr3 _ 3 _)
    rw [Mm.mapIoPages, mmpWalkToPte_eq, walked]
    exact ih (still.writeLeaf visits) (fun j bound => inside j (by omega))

end Walks

/-- The end of the pages of a mapping. -/
def MmioMapping.endVa (mapping : MmioMapping) : Nat :=
  mapping.virtualAddress + (mapping.length + (pageSize - 1)) / pageSize * pageSize

/-- Two mappings have no page in common. -/
def MmioMapping.Apart (left right : MmioMapping) : Prop :=
  left.endVa ≤ right.virtualAddress ∨ right.endVa ≤ left.virtualAddress

/-- The entries of `MmIoMappingTable` that are active. -/
def IoState.activeMappings (io : IoState) : Finset Nat :=
  (Finset.range mmioMappingMax).filter fun i => (io.table i).active = true

/-- The active mappings lie inside of the window for them, apart from one another. -/
def IoState.WindowsApart (io : IoState) : Prop :=
  (∀ i ∈ io.activeMappings, mmIoLowest ≤ (io.table i).virtualAddress ∧
    (io.table i).endVa ≤ mmIoHighest) ∧
  ∀ i ∈ io.activeMappings, ∀ j ∈ io.activeMappings, i ≠ j → (io.table i).Apart (io.table j)

/-- The state, with how many mappings have been made and how many have been unmapped again. -/
structure IoHistory where
  io : IoState
  made : Nat
  unmapped : Nat

/-- Before the first call, over any memory. -/
def IoHistory.start (mm : MmState) : IoHistory :=
  ⟨⟨mm, fun _ => ⟨0, 0, 0, 0, false⟩, 0, mmIoHighest⟩, 0, 0⟩

inductive IoCall where
  | map (cr3 : Nat) (physicalAddress : Fin (2 ^ 64)) (length : Fin (2 ^ 32))
  | unmap (cr3 : Nat) (virtualAddress : Fin (2 ^ 64))

def IoCall.run (history : IoHistory) : IoCall → IoHistory
  | .map cr3 physicalAddress length =>
      let answer := mmMapIoSpace history.io cr3 physicalAddress length
      ⟨answer.2, history.made + if answer.1.isSome then 1 else 0, history.unmapped⟩
  | .unmap cr3 virtualAddress =>
      let io := mmUnmapIoSpace history.io cr3 virtualAddress
      ⟨io, history.made,
        history.unmapped + (history.io.activeMappings.card - io.activeMappings.card)⟩

/-- A call that returns `NULL` changes neither the table nor the cursor. -/
def IoCall.FailsCleanly (history : IoHistory) : IoCall → Prop
  | .map cr3 physicalAddress length =>
      (mmMapIoSpace history.io cr3 physicalAddress length).1 = none →
        (mmMapIoSpace history.io cr3 physicalAddress length).2.table = history.io.table ∧
        (mmMapIoSpace history.io cr3 physicalAddress length).2.mappingCount =
          history.io.mappingCount ∧
        (mmMapIoSpace history.io cr3 physicalAddress length).2.vaCursor = history.io.vaCursor
  | .unmap _ _ => True

/-- A call that finds the table full finds as many active mappings. -/
def IoCall.FindsSlot (history : IoHistory) : IoCall → Prop
  | .map _ _ length =>
      length.val ≠ 0 → mmioMappingMax ≤ history.io.mappingCount →
        mmioMappingMax ≤ history.io.activeMappings.card
  | .unmap _ _ => True

/-- The pages of the mapping come to less than 4 GB, or the 4 GB above the cursor, where they go if
they come to 4 GB, are not in use. -/
def IoState.ProductFits (io : IoState) (length : Nat) : Prop :=
  length ≤ 0xFFFFF000 ∨
    io.vaCursor + 2 ^ 32 ≤ mmIoHighest ∧
      ∀ i ∈ io.activeMappings, io.vaCursor + 2 ^ 32 ≤ (io.table i).virtualAddress

/-- The pages that a call tries to map. -/
def IoState.newPages (io : IoState) (physicalAddress length : Nat) : Finset Nat :=
  (Finset.range (ioPages (pageAlign physicalAddress) length)).image
    (ioPage (ioStartVa io.vaCursor (ioPages (pageAlign physicalAddress) length)))

/-- What a call has to respect: the table has not been filled by mappings that are gone, and if
there are an entry and a window for the mapping, there is a page for each table that is missing, and
the product of the pages and their size is the extent of the window. -/
def IoCall.Respects (history : IoHistory) : IoCall → Prop
  | .map cr3 physicalAddress length =>
      length.val ≠ 0 →
        (history.made < mmioMappingMax ∨ history.unmapped = 0) ∧
        (history.io.mappingCount < mmioMappingMax →
          mmIoLowest ≤ ioStartVa history.io.vaCursor (ioPages (pageAlign physicalAddress) length) →
          WalksReady cr3 (history.io.newPages physicalAddress length) history.io.mm ∧
          history.io.ProductFits length)
  | .unmap _ _ => True

/-- The cursor is below all the active mappings, and the entries used are those made so far. -/
structure IoHistory.Sound (history : IoHistory) : Prop where
  count : history.io.mappingCount = history.made ∧ history.made ≤ mmioMappingMax
  active : history.io.activeMappings.card + history.unmapped = history.made
  cursor : history.io.vaCursor % pageSize = 0 ∧ mmIoLowest ≤ history.io.vaCursor ∧
    history.io.vaCursor ≤ mmIoHighest
  used : ∀ i, (history.io.table i).active = true → i < history.io.mappingCount
  windows : ∀ i, (history.io.table i).active = true →
    history.io.vaCursor ≤ (history.io.table i).virtualAddress ∧
    (history.io.table i).endVa ≤ mmIoHighest ∧ (history.io.table i).referenceCount = 1
  apart : ∀ i j, i ≠ j → (history.io.table i).active = true → (history.io.table j).active = true →
    (history.io.table i).Apart (history.io.table j)

theorem findMapping_active {io : IoState} {virtualAddress i : Nat}
    (found : findMapping io virtualAddress = some i) : (io.table i).active = true := by
  have here := List.find?_some found
  rw [Bool.and_eq_true] at here
  exact here.1

theorem mem_activeMappings {io : IoState} {i : Nat} :
    i ∈ io.activeMappings ↔ i < mmioMappingMax ∧ (io.table i).active = true := by
  unfold IoState.activeMappings
  rw [Finset.mem_filter, Finset.mem_range]

theorem activeMappings_insert {io after : IoState} {i : Nat} {mapping : MmioMapping}
    (inside : i < mmioMappingMax) (active : mapping.active = true)
    (table : after.table = update io.table i mapping) :
    after.activeMappings = insert i io.activeMappings := by
  ext j
  rw [Finset.mem_insert, mem_activeMappings, mem_activeMappings, table]
  by_cases here : j = i
  · subst here
    rw [update_self]
    exact iff_of_true ⟨inside, active⟩ (.inl rfl)
  · rw [update_of_ne here]
    exact ⟨.inr, fun either => either.resolve_left here⟩

theorem activeMappings_erase {io after : IoState} {i : Nat} {mapping : MmioMapping}
    (inactive : mapping.active = false) (table : after.table = update io.table i mapping) :
    after.activeMappings = io.activeMappings.erase i := by
  ext j
  rw [Finset.mem_erase, mem_activeMappings, mem_activeMappings, table]
  by_cases here : j = i
  · subst here
    rw [update_self, inactive]
    exact iff_of_false (fun both => Bool.false_ne_true both.2) (fun both => both.1 rfl)
  · rw [update_of_ne here]
    exact ⟨fun both => ⟨here, both⟩, fun both => both.2⟩

theorem IoHistory.start_sound (mm : MmState) : (IoHistory.start mm).Sound where
  count := ⟨rfl, Nat.zero_le _⟩
  active := rfl
  cursor := by
    refine ⟨?_, ?_, Nat.le_refl _⟩
    · exact show mmIoHighest % pageSize = 0 by decide
    · exact show mmIoLowest ≤ mmIoHighest by decide
  used := fun _ active => absurd active Bool.false_ne_true
  windows := fun _ active => absurd active Bool.false_ne_true
  apart := fun _ _ _ active => absurd active Bool.false_ne_true

section Calls

variable {history : IoHistory} (sound : history.Sound)

include sound

theorem IoHistory.Sound.pageAlign_cursor : pageAlign history.io.vaCursor = history.io.vaCursor := by
  have aligned := sound.cursor.1
  unfold pageAlign
  exact Nat.div_mul_cancel (Nat.dvd_of_mod_eq_zero aligned)

/-- A new window is below the cursor and apart from the active ones. -/
theorem IoHistory.Sound.newWindow {physicalAddress length : Nat} (word : physicalAddress < 2 ^ 64)
    (lengthWord : length < 2 ^ 32) (fits : history.io.ProductFits length) :
    ioStartVa history.io.vaCursor (ioPages (pageAlign physicalAddress) length) ≤
        history.io.vaCursor ∧
      ioStartVa history.io.vaCursor (ioPages (pageAlign physicalAddress) length) +
        (length + (pageSize - 1)) / pageSize * pageSize ≤ mmIoHighest ∧
      ∀ i ∈ history.io.activeMappings,
        ioStartVa history.io.vaCursor (ioPages (pageAlign physicalAddress) length) +
          (length + (pageSize - 1)) / pageSize * pageSize ≤
            (history.io.table i).virtualAddress := by
  have bounds := sound.cursor
  rw [ioPages_eq (pageAlign_page _) (pageAlign_lt word) lengthWord]
  unfold ioStartVa subtract64
  rw [sound.pageAlign_cursor]
  by_cases short : length ≤ 0xFFFFF000
  · have product : (length + (pageSize - 1)) / pageSize * pageSize % 2 ^ 32 =
        (length + (pageSize - 1)) / pageSize * pageSize := by
      unfold pageSize
      omega
    unfold mmIoLowest at bounds
    rw [product, if_pos (by omega)]
    refine ⟨by omega, by omega, fun i member => ?_⟩
    have above := (sound.windows i (mem_activeMappings.mp member).2).1
    omega
  · have whole : (length + (pageSize - 1)) / pageSize * pageSize = 2 ^ 32 := by
      unfold pageSize
      omega
    rw [whole, Nat.mod_self, if_pos (Nat.zero_le _), Nat.sub_zero]
    rcases fits with short' | ⟨below, apart⟩
    · exact absurd short' short
    · exact ⟨Nat.le_refl _, below, apart⟩

/-- A call that respects the state returns `NULL` and changes nothing, or puts its mapping into the
next entry of the table. -/
theorem IoHistory.Sound.map_cases {cr3 : Nat} {physicalAddress : Fin (2 ^ 64)}
    {length : Fin (2 ^ 32)} (respects : (IoCall.map cr3 physicalAddress length).Respects history) :
    mmMapIoSpace history.io cr3 physicalAddress length = (none, history.io) ∨
      ∃ mm, history.io.mappingCount < mmioMappingMax ∧
        mmIoLowest ≤ ioStartVa history.io.vaCursor (ioPages (pageAlign physicalAddress) length) ∧
        history.io.ProductFits length ∧
        mmMapIoSpace history.io cr3 physicalAddress length =
          (some (ioStartVa history.io.vaCursor (ioPages (pageAlign physicalAddress) length)),
            ⟨mm, update history.io.table history.io.mappingCount
                ⟨ioStartVa history.io.vaCursor (ioPages (pageAlign physicalAddress) length),
                  length, physicalAddress, 1, true⟩,
              history.io.mappingCount + 1,
              ioStartVa history.io.vaCursor (ioPages (pageAlign physicalAddress) length)⟩) := by
  unfold mmMapIoSpace
  by_cases empty : length.val = 0
  · rw [if_pos empty]
    exact .inl rfl
  rw [if_neg empty]
  by_cases full : history.io.mappingCount ≥ mmioMappingMax
  · rw [if_pos full]
    exact .inl rfl
  rw [if_neg full]
  dsimp only
  by_cases low : ioStartVa history.io.vaCursor (ioPages (pageAlign physicalAddress) length) <
      mmIoLowest
  · rw [if_pos low, sound.pageAlign_cursor]
    exact .inl rfl
  rw [if_neg low]
  obtain ⟨ready, fits⟩ := (respects empty).2 (by omega) (by omega)
  have walks : (mapIoPages cr3 _ (pageAlign physicalAddress) _ 0 history.io.mm).1 = none :=
    ready.mapIoPages fun j (bound : j < 0 + ioPages (pageAlign physicalAddress) length) =>
      Finset.mem_image_of_mem _ (Finset.mem_range.mpr (by omega))
  apply Or.inr
  generalize ioStartVa history.io.vaCursor (ioPages (pageAlign physicalAddress) length) = startVa
    at *
  cases done : mapIoPages cr3 startVa (pageAlign physicalAddress)
      (ioPages (pageAlign physicalAddress) length) 0 history.io.mm with
  | mk failed mm =>
    rw [done] at walks
    obtain rfl : failed = none := walks
    exact ⟨mm, by omega, by omega, fits, rfl⟩

theorem IoHistory.Sound.failsCleanly {call : IoCall} (respects : call.Respects history) :
    call.FailsCleanly history := by
  cases call with
  | unmap => trivial
  | map cr3 physicalAddress length =>
    intro failed
    rcases sound.map_cases respects with same | ⟨_, _, _, _, mapped⟩
    · rw [same]
      exact ⟨rfl, rfl, rfl⟩
    · rw [mapped] at failed
      cases failed

theorem IoHistory.Sound.findsSlot {call : IoCall} (respects : call.Respects history) :
    call.FindsSlot history := by
  cases call with
  | unmap => trivial
  | map cr3 physicalAddress length =>
    intro positive full
    have made := sound.count
    have active := sound.active
    rcases (respects positive).1 with few | none
    · omega
    · omega

theorem IoHistory.Sound.windowsApart : history.io.WindowsApart := by
  constructor
  · intro i member
    obtain ⟨above, below, -⟩ := sound.windows i (mem_activeMappings.mp member).2
    exact ⟨Nat.le_trans sound.cursor.2.1 above, below⟩
  · intro i member j member' different
    exact sound.apart i j different (mem_activeMappings.mp member).2
      (mem_activeMappings.mp member').2

/-- A mapping that respects the windows keeps them sound. -/
theorem IoHistory.Sound.map {cr3 : Nat} {physicalAddress : Fin (2 ^ 64)} {length : Fin (2 ^ 32)}
    (respects : (IoCall.map cr3 physicalAddress length).Respects history) :
    ((IoCall.map cr3 physicalAddress length).run history).Sound := by
  rw [IoCall.run]
  rcases sound.map_cases respects with same | ⟨mm, slot, low, fits, mapped⟩
  · rw [same]
    exact sound
  rw [mapped]
  obtain ⟨down, below, apart⟩ := sound.newWindow physicalAddress.isLt length.isLt fits
  have page := ioStartVa_page history.io.vaCursor (ioPages (pageAlign physicalAddress) length)
  generalize ioStartVa history.io.vaCursor (ioPages (pageAlign physicalAddress) length) = startVa
    at *
  have fresh : history.io.mappingCount ∉ history.io.activeMappings := by
    intro member
    exact absurd (sound.used _ (mem_activeMappings.mp member).2) (Nat.lt_irrefl _)
  have member : ∀ i, (history.io.table i).active = true → i ∈ history.io.activeMappings := by
    intro i active
    have used := sound.used i active
    exact mem_activeMappings.mpr ⟨by omega, active⟩
  constructor
  · have count := sound.count
    exact ⟨congrArg (· + 1) count.1, show history.made + 1 ≤ mmioMappingMax by omega⟩
  · have active := sound.active
    dsimp only
    rw [activeMappings_insert slot rfl rfl, Finset.card_insert_of_notMem fresh]
    exact (Nat.add_right_comm _ _ _).trans (congrArg (· + 1) active)
  · exact ⟨page, low, Nat.le_trans down sound.cursor.2.2⟩
  · intro i active
    dsimp only at active ⊢
    by_cases here : i = history.io.mappingCount
    · omega
    · rw [update_of_ne here] at active
      have used := sound.used i active
      omega
  · intro i active
    dsimp only at active ⊢
    by_cases here : i = history.io.mappingCount
    · rw [here, update_self]
      exact ⟨Nat.le_refl _, below, rfl⟩
    · rw [update_of_ne here] at active ⊢
      obtain ⟨above, window⟩ := sound.windows i active
      exact ⟨Nat.le_trans down above, window⟩
  · intro i j different active active'
    dsimp only at active active' ⊢
    by_cases first : i = history.io.mappingCount
    · have second : j ≠ history.io.mappingCount := fun same => different (first.trans same.symm)
      rw [update_of_ne second] at active' ⊢
      rw [first, update_self]
      exact .inl (apart j (member j active'))
    · rw [update_of_ne first] at active ⊢
      by_cases second : j = history.io.mappingCount
      · rw [second, update_self]
        exact .inr (apart i (member i active))
      · rw [update_of_ne second] at active' ⊢
        exact sound.apart i j different active active'

theorem IoHistory.Sound.unmap {cr3 : Nat} {virtualAddress : Fin (2 ^ 64)} :
    ((IoCall.unmap cr3 virtualAddress).run history).Sound := by
  have unchanged : (IoHistory.mk history.io history.made (history.unmapped +
      (history.io.activeMappings.card - history.io.activeMappings.card))).Sound := by
    rw [Nat.sub_self]
    exact sound
  rw [IoCall.run]
  unfold mmUnmapIoSpace
  by_cases zero : virtualAddress.val = 0
  · rw [if_pos zero]
    exact unchanged
  rw [if_neg zero]
  cases found : findMapping history.io virtualAddress with
  | none => exact unchanged
  | some i =>
    have active := findMapping_active found
    have used := sound.used i active
    have count := sound.count
    have member : i ∈ history.io.activeMappings :=
      mem_activeMappings.mpr ⟨by omega, active⟩
    have single := (sound.windows i active).2.2
    dsimp only
    rw [single, if_neg (by decide)]
    have others : ∀ j, (update history.io.table i
        { history.io.table i with active := false, referenceCount := 0 } j).active = true →
        j ≠ i := by
      intro j still here
      rw [here, update_self] at still
      cases still
    constructor
    · exact sound.count
    · have card := sound.active
      dsimp only
      rw [activeMappings_erase rfl rfl, Finset.card_erase_of_mem member]
      omega
    · exact sound.cursor
    · intro j still
      dsimp only at still
      have other := others j still
      rw [update_of_ne other] at still
      exact sound.used j still
    · intro j still
      dsimp only at still ⊢
      have other := others j still
      rw [update_of_ne other] at still ⊢
      exact sound.windows j still
    · intro j k different still still'
      dsimp only at still still' ⊢
      have other := others j still
      have other' := others k still'
      rw [update_of_ne other] at still ⊢
      rw [update_of_ne other'] at still' ⊢
      exact sound.apart j k different still still'

theorem IoHistory.Sound.run {call : IoCall} (respects : call.Respects history) :
    (call.run history).Sound := by
  cases call with
  | map => exact sound.map respects
  | unmap => exact sound.unmap

end Calls

/-- In every run whose calls respect the state, the windows of the active mappings are inside of the
window for them and apart, a call that fails changes nothing, and a full table is full of active
mappings. -/
theorem ioWindows_kept (mm : MmState) {history : IoHistory}
    (run : Reaches (fun history call => some (IoCall.run history call))
      (fun history call => call.Respects history) (IoHistory.start mm) history) :
    history.io.WindowsApart ∧
      ∀ call : IoCall, call.Respects history →
        call.FailsCleanly history ∧ call.FindsSlot history := by
  have sound : history.Sound := by
    apply run.invariant (IoHistory.start_sound mm)
    intro history call next sound respects done
    cases done
    exact sound.run respects
  exact ⟨sound.windowsApart,
    fun _ respects => ⟨sound.failsCleanly respects, sound.findsSlot respects⟩⟩

/-- A device is mapped and unmapped. -/
def mapAndUnmap : IoHistory :=
  IoCall.run (IoCall.run (IoHistory.start threePageMm) (.map 0x1000 0xFEE00000 4))
    (.unmap 0x1000 0xFFFFF7FFFFFFF000)

theorem mapAndUnmap_kept : mapAndUnmap.io.WindowsApart ∧
    ∀ call : IoCall, call.Respects mapAndUnmap →
      call.FailsCleanly mapAndUnmap ∧ call.FindsSlot mapAndUnmap := by
  apply ioWindows_kept threePageMm
  have first : (IoCall.map 0x1000 0xFEE00000 4).Respects (IoHistory.start threePageMm) := by
    have pages : (IoHistory.start threePageMm).io.newPages (0xFEE00000 : Fin (2 ^ 64)).val
        (4 : Fin (2 ^ 32)).val = {0xFFFFF7FFFFFFF000} := by decide +kernel
    have absent : ∀ va slot level, ¬ Visits threePageMm.memory 0x1000 va (level + 1) slot ∨
        ¬ HasBit (entryAt threePageMm.memory slot) ptePresent := by
      intro va slot level
      rw [threePageMm, zeroMemory_entry]
      exact .inr (by decide)
    intro _
    refine ⟨.inl (by decide), fun _ _ => ⟨?_, .inl (by decide)⟩⟩
    rw [pages]
    refine ⟨threePageMm_hierarchy, ?_, ?_, by decide, ?_⟩
    · intro va member
      exact threePageIo_owned (Finset.mem_singleton.mp member ▸ by decide)
    · intro va _ level slot visits present
      rcases absent va slot level with none | none
      · exact absurd visits none
      · exact absurd present none
    · have three : (freeFrames threePageMm).length = 3 := by decide +kernel
      exact Nat.le_trans (missingTables_card_le _ _ _) (Nat.le_of_eq three.symm)
  have second : (IoCall.unmap 0x1000 0xFFFFF7FFFFFFF000).Respects
      (IoCall.run (IoHistory.start threePageMm) (.map 0x1000 0xFEE00000 4)) := trivial
  exact (Reaches.start.step first rfl).step second rfl

theorem noPages_bounded : ([] : List Mmpfn).length ≤ toPfn mmBootMappedLimit := Nat.zero_le _

/-- A machine without a free page. -/
def noPageMm : MmState := ⟨⟨[], noPages_bounded⟩, 0, 0, fun _ => 0⟩

/-- A call that finds no page for a table has moved the cursor. -/
theorem noPage_notKept : ¬ ∀ (mm : MmState) (history : IoHistory),
    Reaches (fun history call => some (IoCall.run history call)) (fun _ _ => True)
      (IoHistory.start mm) history →
    history.io.WindowsApart ∧
      ∀ call : IoCall, call.FailsCleanly history ∧ call.FindsSlot history := by
  intro kept
  have clean := ((kept noPageMm _ Reaches.start).2 (.map 0x1000 0xFEE00000 4)).1
  have moved := (clean (by decide +kernel)).2.2
  exact absurd moved (by decide +kernel)

end MinNT.Mm
