import MinNT.Mm.IoWindows

/-! The page tables over whole runs: what `mmMapIoSpace_exact_iff` needs of them is kept by mapping
and unmapping. -/

namespace MinNT.Mm

open Function Transition

/-- The tables are a hierarchy in which some pages own their ways. -/
structure TablesFor (cr3 : Nat) (pages : Nat → Prop) (mm : MmState) : Prop where
  hierarchy : Hierarchy mm cr3
  owned : ∀ va, pages va → Owned mm.memory cr3 va

section Loops

variable {cr3 startVa : Nat} {pages : Nat → Prop}

theorem TablesFor.walk {mm after : MmState} (tables : TablesFor cr3 pages mm) {va : Nat}
    (page : pages va) {result : Option Nat} (walked : mmpWalkToPte mm va cr3 = (result, after)) :
    TablesFor cr3 pages after ∧
      ∀ pte ∈ result, ∀ entry, TablesFor cr3 pages (writeLeaf after pte entry) := by
  obtain ⟨grown, found⟩ := mmpWalkToPte_grown tables.hierarchy (tables.owned va page) walked
  have owned : ∀ other, pages other → Owned after.memory cr3 other :=
    fun other inside => grown.owned other (tables.owned other inside)
  refine ⟨⟨grown.hierarchy, owned⟩, fun pte reached entry => ?_⟩
  have visits := found pte reached
  constructor
  · exact writeLeaf_hierarchy grown.hierarchy visits
  · exact fun other inside => writeLeaf_owned grown.hierarchy visits (owned other inside)

theorem TablesFor.mapIoPages {startPa remaining i : Nat} {mm : MmState}
    (tables : TablesFor cr3 pages mm) (inside : ∀ j < i + remaining, pages (ioPage startVa j)) :
    TablesFor cr3 pages (mapIoPages cr3 startVa startPa remaining i mm).2 := by
  induction remaining generalizing i mm with
  | zero => exact tables
  | succ remaining ih =>
    rw [Mm.mapIoPages]
    cases walked : mmpWalkToPte mm (ioPage startVa i) cr3 with
    | mk result middle =>
    obtain ⟨kept, written⟩ := tables.walk (inside i (by omega)) walked
    cases result with
    | none => exact kept
    | some pte =>
      apply ih (written pte rfl _)
      exact fun j bound => inside j (by omega)

theorem mapIoPages_failed {startPa remaining i failed : Nat} {mm after : MmState}
    (stopped : mapIoPages cr3 startVa startPa remaining i mm = (some failed, after)) :
    failed < i + remaining := by
  induction remaining generalizing i mm with
  | zero => cases stopped
  | succ remaining ih =>
    rw [mapIoPages] at stopped
    cases walked : mmpWalkToPte mm (ioPage startVa i) cr3 with
    | mk result middle =>
    rw [walked] at stopped
    cases result with
    | none =>
      cases stopped
      omega
    | some pte =>
      have later := ih stopped
      omega

theorem TablesFor.mmpRollbackMapping {remaining i : Nat} {mm : MmState}
    (tables : TablesFor cr3 pages mm) (inside : ∀ j < i + remaining, pages (ioPage startVa j)) :
    TablesFor cr3 pages (mmpRollbackMapping cr3 startVa remaining i mm) := by
  induction remaining generalizing i mm with
  | zero => exact tables
  | succ remaining ih =>
    rw [Mm.mmpRollbackMapping]
    have rest : ∀ j < i + 1 + remaining, pages (ioPage startVa j) :=
      fun j bound => inside j (by omega)
    cases walked : mmpWalkToPte mm (ioPage startVa i) cr3 with
    | mk result middle =>
    obtain ⟨kept, written⟩ := tables.walk (inside i (by omega)) walked
    cases result with
    | none => exact ih kept rest
    | some pte => exact ih (written pte rfl 0) rest

end Loops

/-- The pages that a mapping can have: those of the window, and of the 4 GB above it. -/
def IoPage (va : Nat) : Prop := mmIoLowest ≤ va ∧ va < mmIoHighest + 2 ^ 32

theorem ioPage_of_window {startVa j : Nat} (low : mmIoLowest ≤ startVa)
    (high : startVa ≤ mmIoHighest) (few : j < 2 ^ 20) : IoPage (ioPage startVa j) := by
  unfold mmIoHighest at high
  rw [ioPage_eq few (by unfold pageSize; omega)]
  unfold IoPage mmIoHighest pageSize
  omega

/-- The cursor and the active mappings start in the window, and the tables are in order for what can
be mapped there. -/
structure IoState.InOrder (cr3 : Nat) (io : IoState) : Prop where
  tables : TablesFor cr3 IoPage io.mm
  cursor : mmIoLowest ≤ io.vaCursor ∧ io.vaCursor ≤ mmIoHighest
  windows : ∀ i, (io.table i).active = true → mmIoLowest ≤ (io.table i).virtualAddress ∧
    (io.table i).virtualAddress ≤ mmIoHighest ∧ (io.table i).length < 2 ^ 32

section Calls

variable {cr3 : Nat} {io : IoState} (inOrder : io.InOrder cr3)

include inOrder

theorem IoState.InOrder.startVa_le (numPages : Nat) :
    ioStartVa io.vaCursor numPages ≤ mmIoHighest := by
  have cursor := inOrder.cursor
  unfold ioStartVa subtract64 pageAlign pageSize
  unfold mmIoLowest at cursor
  split <;> omega

theorem IoState.InOrder.windows_update (slot : Nat) {mapping : MmioMapping}
    (fits : mapping.active = true → mmIoLowest ≤ mapping.virtualAddress ∧
      mapping.virtualAddress ≤ mmIoHighest ∧ mapping.length < 2 ^ 32) :
    ∀ i, (update io.table slot mapping i).active = true →
      mmIoLowest ≤ (update io.table slot mapping i).virtualAddress ∧
        (update io.table slot mapping i).virtualAddress ≤ mmIoHighest ∧
        (update io.table slot mapping i).length < 2 ^ 32 :=
  (Function.forall_update_iff io.table fun _ (mapping : MmioMapping) => mapping.active = true →
    mmIoLowest ≤ mapping.virtualAddress ∧ mapping.virtualAddress ≤ mmIoHighest ∧
      mapping.length < 2 ^ 32).mpr ⟨fits, fun i _ => inOrder.windows i⟩

/-- Every mapping keeps the tables in order, also a failed one. -/
theorem IoState.InOrder.map {physicalAddress length : Nat} (word : physicalAddress < 2 ^ 64)
    (lengthWord : length < 2 ^ 32) :
    (mmMapIoSpace io cr3 physicalAddress length).2.InOrder cr3 := by
  unfold mmMapIoSpace
  by_cases empty : length = 0
  · rw [if_pos empty]
    exact inOrder
  rw [if_neg empty]
  by_cases full : io.mappingCount ≥ mmioMappingMax
  · rw [if_pos full]
    exact inOrder
  rw [if_neg full]
  dsimp only
  have numPages := ioPages_eq (pageAlign_page physicalAddress) (pageAlign_lt word) lengthWord
  have few : ioPages (pageAlign physicalAddress) length ≤ 2 ^ 20 := by
    rw [numPages]
    unfold pageSize
    omega
  have high := inOrder.startVa_le (ioPages (pageAlign physicalAddress) length)
  generalize ioPages (pageAlign physicalAddress) length = count at *
  generalize ioStartVa io.vaCursor count = startVa at *
  by_cases low : startVa < mmIoLowest
  · rw [if_pos low]
    have cursor := inOrder.cursor
    have down := pageAlign_le io.vaCursor
    have above : mmIoLowest ≤ pageAlign io.vaCursor := by
      unfold pageAlign pageSize mmIoLowest at *
      omega
    exact ⟨inOrder.tables, ⟨above, Nat.le_trans down cursor.2⟩, inOrder.windows⟩
  rw [if_neg low]
  have inside : ∀ j < 0 + count, IoPage (ioPage startVa j) :=
    fun j bound => ioPage_of_window (by omega) high (by omega)
  have mapped := @TablesFor.mapIoPages _ _ _ (pageAlign physicalAddress) _ _ _ inOrder.tables inside
  cases done : mapIoPages cr3 startVa (pageAlign physicalAddress) count 0 io.mm with
  | mk failed mm =>
  rw [done] at mapped
  cases failed with
  | none =>
    exact ⟨mapped, ⟨by dsimp only; omega, high⟩,
      inOrder.windows_update _ fun _ => ⟨by dsimp only; omega, high, lengthWord⟩⟩
  | some i =>
    have earlier := mapIoPages_failed done
    have rolledBack := mapped.mmpRollbackMapping fun j (bound : j < 0 + i) => inside j (by omega)
    exact ⟨rolledBack, ⟨by dsimp only; omega, high⟩,
      inOrder.windows_update _ fun _ => ⟨by dsimp only; omega, high, lengthWord⟩⟩

theorem IoState.InOrder.unmap {virtualAddress : Nat} :
    (mmUnmapIoSpace io cr3 virtualAddress).InOrder cr3 := by
  unfold mmUnmapIoSpace
  by_cases zero : virtualAddress = 0
  · rw [if_pos zero]
    exact inOrder
  rw [if_neg zero]
  cases found : findMapping io virtualAddress with
  | none => exact inOrder
  | some i =>
    have active := findMapping_active found
    obtain ⟨low, high, short⟩ := inOrder.windows i active
    dsimp only
    by_cases shared : subtract32 (io.table i).referenceCount 1 > 0
    · rw [if_pos shared]
      exact ⟨inOrder.tables, inOrder.cursor, inOrder.windows_update i fun _ => ⟨low, high, short⟩⟩
    rw [if_neg shared]
    refine ⟨?_, inOrder.cursor,
      inOrder.windows_update i fun inactive => absurd inactive Bool.false_ne_true⟩
    apply inOrder.tables.mmpRollbackMapping
    intro j bound
    apply ioPage_of_window low high
    unfold add64 pageSize at bound
    omega

end Calls

/-- The page tables that a call walks. -/
def IoCall.cr3 : IoCall → Nat
  | .map cr3 _ _ => cr3
  | .unmap cr3 _ => cr3

/-- From tables whose PML4 has no entries for the window, all runs in them keep what an exact
mapping needs. -/
theorem ioTables_kept {cr3 : Nat} {mm : MmState} (hierarchy : Hierarchy mm cr3)
    (absent : ∀ va, IoPage va → ¬ HasBit (entryAt mm.memory (slotOf (frameOf cr3) va 3)) ptePresent)
    {history : IoHistory}
    (run : Reaches (fun history call => some (IoCall.run history call))
      (fun _ call => call.cr3 = cr3) (IoHistory.start mm) history) :
    TablesFor cr3 IoPage history.io.mm := by
  have canonical : ∀ va, IoPage va → Canonical va := by
    intro va page
    unfold IoPage mmIoLowest mmIoHighest at page
    exact Or.inr (by omega)
  have initial : (IoHistory.start mm).io.InOrder cr3 := by
    constructor
    · exact ⟨hierarchy, fun va page => Owned.of_absent (canonical va page) (absent va page)⟩
    · exact ⟨show mmIoLowest ≤ mmIoHighest by decide, Nat.le_refl _⟩
    · exact fun _ active => absurd active Bool.false_ne_true
  have inOrder : history.io.InOrder cr3 := by
    apply @Reaches.invariant _ _ _ _ _ (fun history => history.io.InOrder cr3) initial _ _ run
    intro history call next inOrder own done
    cases done
    cases call with
    | map cr3' physicalAddress length =>
      obtain rfl : cr3' = cr3 := own
      exact inOrder.map physicalAddress.isLt length.isLt
    | unmap cr3' virtualAddress =>
      obtain rfl : cr3' = cr3 := own
      exact inOrder.unmap
  exact inOrder.tables

theorem mapAndUnmap_tables : TablesFor 0x1000 IoPage mapAndUnmap.io.mm := by
  apply ioTables_kept threePageMm_hierarchy
  · intro va _
    rw [threePageMm, zeroMemory_entry]
    decide
  · exact .step (.step .start rfl rfl) rfl rfl

end MinNT.Mm
