import MinNT.Mm.PhysicalPage

namespace MinNT.Mm

open ByteMemory List

def ptePresent : Nat := 1
def pteWrite : Nat := 2
def pteUser : Nat := 4
/-- `PTE_LARGE`, and `PTE_PAT` in the entry of a 4 KB page. -/
def pteLarge : Nat := 0x80

/-- `Entry & Bit`, for a single bit. -/
def HasBit (entry bit : Nat) : Prop := entry / bit % 2 = 1

instance (entry bit : Nat) : Decidable (HasBit entry bit) := inferInstanceAs (Decidable (_ = _))

/-- `Entry & 0x000FFFFFFFFFF000`. -/
def frameOf (entry : Nat) : Nat := entry / 2 ^ 12 % 2 ^ 40 * 2 ^ 12

/-- The bits of an entry outside the frame. -/
def flagsOf (entry : Nat) : Nat := entry % 2 ^ 12 + entry / 2 ^ 52 * 2 ^ 52

/-- The index of an address in a table of the level: 3 for the PML4, 0 for the
page table. -/
def indexAt (va level : Nat) : Nat := va / 2 ^ (12 + 9 * level) % 512

/-- `&Table[(Va >> (12 + 9 * Level)) & 0x1FF]`. -/
def slotOf (table va level : Nat) : Nat := table + 8 * indexAt va level

/-- The 64-bit entry in a slot. -/
def entryAt (memory : ByteMemory) (slot : Nat) : Nat := load memory 8 slot

/-- A table pointer, which the code tests against `NULL`. -/
def nonNull (table : Nat) : Option Nat := if table = 0 then none else some table

/-- One level of `MmpWalkToPte`: the table behind the slot, allocated when the
entry is not present. -/
def mmpNextTable (mm : MmState) (slot : Nat) : Option Nat × MmState :=
  if HasBit (entryAt mm.memory slot) ptePresent then
    (nonNull (frameOf (entryAt mm.memory slot)), mm)
  else
    let allocated := mmAllocatePhysicalPage mm
    if allocated.1 = 0 then (none, allocated.2)
    else
      let linked :=
        { allocated.2 with
          memory := store allocated.2.memory 8 slot (allocated.1 ||| ptePresent ||| pteWrite) }
      (nonNull (frameOf (entryAt linked.memory slot)), linked)

/-- `MmpWalkToPte`: the address of the page table entry. -/
def mmpWalkToPte (mm : MmState) (va pml4Base : Nat) : Option Nat × MmState :=
  let pml4 := frameOf pml4Base
  match mmpNextTable mm (slotOf pml4 va 3) with
  | (none, mm) => (none, mm)
  | (some pdpt, mm) =>
      match mmpNextTable mm (slotOf pdpt va 2) with
      | (none, mm) => (none, mm)
      | (some pd, mm) =>
          match mmpNextTable mm (slotOf pd va 1) with
          | (none, mm) => (none, mm)
          | (some pt, mm) => (some (slotOf pt va 0), mm)

/-- `MmMapPage`, in the hierarchy `CR3` points to. -/
def mmMapPage (mm : MmState) (cr3 va pa flags : Nat) : NtStatus × MmState :=
  match mmpWalkToPte mm va cr3 with
  | (none, mm) => (statusNoMemory, mm)
  | (some pte, mm) =>
      (statusSuccess, { mm with memory := store mm.memory 8 pte (pa / 2 ^ 12 * 2 ^ 12 ||| flags) })

/-- Bits 48 to 63 of an address repeat bit 47. -/
def Canonical (va : Nat) : Prop := va < 2 ^ 47 ∨ 2 ^ 64 - 2 ^ 47 ≤ va ∧ va < 2 ^ 64

instance (va : Nat) : Decidable (Canonical va) := inferInstanceAs (Decidable (_ ∨ _))

/-- What a walk ends in: an entry, and the level of its table, which gives the
size of the page. -/
structure Leaf where
  level : Nat
  entry : Nat
deriving DecidableEq, Repr

/-- The processor's walk from a slot on. An entry with bit 7 ends it above the
page table; in a PML4 entry that bit is reserved. -/
def hardwareWalk (memory : ByteMemory) (va : Nat) : Nat → Nat → Option Leaf
  | 0, slot =>
      if HasBit (entryAt memory slot) ptePresent then some ⟨0, entryAt memory slot⟩ else none
  | level + 1, slot =>
      if ¬ HasBit (entryAt memory slot) ptePresent then none
      else if HasBit (entryAt memory slot) pteLarge then
        if level = 2 then none else some ⟨level + 1, entryAt memory slot⟩
      else hardwareWalk memory va level (slotOf (frameOf (entryAt memory slot)) va level)

/-- The translation of a virtual address. -/
def translate (memory : ByteMemory) (cr3 va : Nat) : Option Leaf :=
  if Canonical va then hardwareWalk memory va 3 (slotOf (frameOf cr3) va 3) else none

/-- The processor, translating the address, comes to the slot in a table of the
level. -/
inductive Visits (memory : ByteMemory) (cr3 va : Nat) : Nat → Nat → Prop
  | top : Visits memory cr3 va 3 (slotOf (frameOf cr3) va 3)
  | next {level slot : Nat} (above : Visits memory cr3 va (level + 1) slot)
      (present : HasBit (entryAt memory slot) ptePresent)
      (small : ¬ HasBit (entryAt memory slot) pteLarge) :
      Visits memory cr3 va level (slotOf (frameOf (entryAt memory slot)) va level)

theorem frameOf_mod (entry : Nat) : frameOf entry % pageSize = 0 := by
  simp only [frameOf, pageSize]
  omega

theorem indexAt_lt (va level : Nat) : indexAt va level < 512 :=
  Nat.mod_lt _ (by decide)

theorem slotOf_page {table : Nat} (aligned : table % pageSize = 0) (va level : Nat) :
    toPfn (slotOf table va level) = toPfn table := by
  have bound := indexAt_lt va level
  simp only [toPfn, slotOf, pageSize] at *
  omega

theorem slotOf_mod {table : Nat} (aligned : table % pageSize = 0) (va level : Nat) :
    slotOf table va level % 8 = 0 := by
  simp only [slotOf, pageSize] at *
  omega

theorem slotOf_inj {table va va' level : Nat}
    (same : slotOf table va level = slotOf table va' level) :
    indexAt va level = indexAt va' level := by
  unfold slotOf at same
  omega

/-- The number of the page an address lies in. -/
def pageOf (va : Nat) : Nat := va / 2 ^ 12

theorem indexAt_eq (va level : Nat) : indexAt va level = pageOf va / 512 ^ level % 512 := by
  unfold indexAt pageOf
  have base : (2 : Nat) ^ 9 = 512 := by decide
  rw [Nat.pow_add, Nat.pow_mul, Nat.div_div_eq_div_mul, base]

/-- Two addresses have the same indices below the level. -/
def SameBelow (level va va' : Nat) : Prop := pageOf va % 512 ^ level = pageOf va' % 512 ^ level

theorem sameBelow_zero (va va' : Nat) : SameBelow 0 va va' := by
  simp [SameBelow, Nat.mod_one]

theorem sameBelow_succ (level va va' : Nat) :
    SameBelow (level + 1) va va' ↔
      indexAt va level = indexAt va' level ∧ SameBelow level va va' := by
  have positive : 0 < 512 ^ level := Nat.pow_pos (by decide)
  unfold SameBelow
  rw [indexAt_eq, indexAt_eq, Nat.pow_succ, Nat.mod_mul, Nat.mod_mul]
  have left := Nat.mod_lt (pageOf va) positive
  have right := Nat.mod_lt (pageOf va') positive
  constructor
  · intro same
    have remainders := congrArg (fun value => value % 512 ^ level) same
    simp only [Nat.add_mul_mod_self_left, Nat.mod_eq_of_lt left,
      Nat.mod_eq_of_lt right] at remainders
    rw [remainders, Nat.add_left_cancel_iff] at same
    exact ⟨Nat.eq_of_mul_eq_mul_left positive same, remainders⟩
  · intro parts
    rw [parts.1, parts.2]

theorem pageOf_eq_of_sameBelow {va va' : Nat} (canonical : Canonical va)
    (canonical' : Canonical va') (same : SameBelow 4 va va') : pageOf va = pageOf va' := by
  unfold SameBelow pageOf at *
  unfold Canonical at canonical canonical'
  omega

section Walk

variable {memory after : ByteMemory} {cr3 va : Nat}

variable {level slot : Nat}

theorem Visits.slot_mod (visits : Visits memory cr3 va level slot) : slot % 8 = 0 := by
  cases visits with
  | top => exact slotOf_mod (frameOf_mod _) va 3
  | next _ _ _ => exact slotOf_mod (frameOf_mod _) va level

theorem Visits.hardwareWalk_eq (visits : Visits memory cr3 va level slot) :
    hardwareWalk memory va 3 (slotOf (frameOf cr3) va 3) = hardwareWalk memory va level slot := by
  induction visits with
  | top => rfl
  | next above present small ih =>
    rw [ih]
    simp only [hardwareWalk, present, small, not_true_eq_false, ↓reduceIte]

/-- Memory that holds the same entries in the slots above a level is walked the
same way down to it. -/
theorem Visits.transfer (visits : Visits memory cr3 va level slot)
    (same : ∀ higher other, level < higher → Visits memory cr3 va higher other →
      entryAt after other = entryAt memory other) : Visits after cr3 va level slot := by
  induction visits with
  | top => exact .top
  | @next level slot above present small ih =>
    have here := same (level + 1) slot (by omega) above
    have upper := ih (fun higher other lower => same higher other (by omega))
    rw [← here] at present small ⊢
    exact .next upper present small

theorem hardwareWalk_congr (visits : Visits memory cr3 va level slot)
    (same : ∀ lower other, Visits memory cr3 va lower other →
      entryAt after other = entryAt memory other) :
    hardwareWalk after va level slot = hardwareWalk memory va level slot := by
  induction level generalizing slot with
  | zero => simp only [hardwareWalk, same 0 slot visits]
  | succ level ih =>
    simp only [hardwareWalk, same (level + 1) slot visits]
    by_cases present : HasBit (entryAt memory slot) ptePresent
    · by_cases large : HasBit (entryAt memory slot) pteLarge
      · simp only [present, large, not_true_eq_false, ↓reduceIte]
      · simp only [present, large, not_true_eq_false, ↓reduceIte]
        exact ih (.next visits present large)
    · simp only [present, not_false_eq_true, ↓reduceIte]

theorem hardwareWalk_sameBelow {va' level slot : Nat} (same : SameBelow level va va') :
    hardwareWalk memory va' level slot = hardwareWalk memory va level slot := by
  induction level generalizing slot with
  | zero => rfl
  | succ level ih =>
    obtain ⟨index, below⟩ := (sameBelow_succ level va va').mp same
    simp only [hardwareWalk, slotOf, index, ih below]

end Walk

/-- The descent of `MmpWalkToPte` from a table of any level. -/
def mmpDescend (va : Nat) : Nat → Nat → MmState → Option Nat × MmState
  | 0, table, mm => (some (slotOf table va 0), mm)
  | level + 1, table, mm =>
      match mmpNextTable mm (slotOf table va (level + 1)) with
      | (none, mm) => (none, mm)
      | (some next, mm) => mmpDescend va level next mm

theorem mmpWalkToPte_eq (mm : MmState) (va pml4Base : Nat) :
    mmpWalkToPte mm va pml4Base = mmpDescend va 3 (frameOf pml4Base) mm := by
  simp only [mmpWalkToPte, mmpDescend]

theorem PfnDatabase.Free.small {database : PfnDatabase} {pfn : Nat} (free : database.Free pfn) :
    pfn < 2 ^ 24 :=
  Nat.lt_of_lt_of_le free.lt database.highestPfn_le

theorem mmAllocatePhysicalPage_taken {mm : MmState} (taken : (mmAllocatePhysicalPage mm).1 ≠ 0) :
    ∃ pfn, 0 < pfn ∧ mm.pfnDatabase.Free pfn ∧
      mmAllocatePhysicalPage mm = (pfn * pageSize,
        { pfnDatabase := mm.pfnDatabase.set pfn ⟨.pfnActive, 1⟩
          freePages := decrement64 mm.freePages
          hintPfn := pfn + 1
          memory := mm.memory.write (pfn * pageSize) (replicate pageSize 0) }) := by
  unfold mmAllocatePhysicalPage at taken ⊢
  split at taken
  · exact absurd rfl taken
  rename_i pfn found
  have free := (searchFree_some found).1
  have address := pageAddress_eq free.small
  dsimp only at taken
  rw [address] at taken
  have positive : pfn ≠ 0 := by
    rintro rfl
    exact taken (Nat.zero_mul _)
  refine ⟨pfn, Nat.pos_of_ne_zero positive, free, ?_⟩
  simp only [address, taken, ↓reduceIte]

theorem tableEntry_eq (pfn : Nat) :
    pfn * pageSize ||| ptePresent ||| pteWrite = pfn * pageSize + 3 := by
  have bits : ptePresent ||| pteWrite = 3 := by decide
  rw [Nat.or_assoc, bits, show pageSize = 2 ^ 12 by decide, Nat.mul_comm,
    ← Nat.two_pow_add_eq_or_of_lt (by decide)]

theorem frameOf_tableEntry {pfn : Nat} (small : pfn < 2 ^ 24) :
    frameOf (pfn * pageSize + 3) = pfn * pageSize := by
  simp only [frameOf, pageSize]
  omega

theorem tableEntry_lt {pfn : Nat} (small : pfn < 2 ^ 24) : pfn * pageSize + 3 < 2 ^ 64 := by
  simp only [pageSize]
  omega

theorem entryAt_store_same (memory : ByteMemory) (slot : Nat) {entry : Nat}
    (word : entry < 2 ^ 64) : entryAt (store memory 8 slot entry) slot = entry := by
  rw [entryAt, load_store_same]
  exact Nat.mod_eq_of_lt word

theorem entryAt_store_other (memory : ByteMemory) {slot other : Nat} (entry : Nat)
    (aligned : slot % 8 = 0) (aligned' : other % 8 = 0) (different : other ≠ slot) :
    entryAt (store memory 8 slot entry) other = entryAt memory other := by
  apply load_store_disjoint
  omega

theorem entryAt_zeroPage_inside (memory : ByteMemory) {slot pfn : Nat} (aligned : slot % 8 = 0)
    (inside : toPfn slot = pfn) :
    entryAt (memory.write (pfn * pageSize) (replicate pageSize 0)) slot = 0 := by
  apply load_eq_zero
  intro index lower upper
  simp only [toPfn, pageSize] at inside
  rw [write_inside _ _ _ _ (by simp only [pageSize]; omega)
    (by simp only [length_replicate, pageSize]; omega)]
  simp only [getD_eq_getElem?_getD, getElem?_replicate]
  split <;> rfl

theorem entryAt_zeroPage_outside (memory : ByteMemory) {slot pfn : Nat} (aligned : slot % 8 = 0)
    (outside : toPfn slot ≠ pfn) :
    entryAt (memory.write (pfn * pageSize) (replicate pageSize 0)) slot =
      entryAt memory slot := by
  apply SameOutside.load_eq (write_sameOutside memory _ _ (pfn * pageSize)
    (pfn * pageSize + pageSize) (Nat.le_refl _) (by simp))
  simp only [toPfn, pageSize] at outside ⊢
  omega

/-- The state after a new table has been linked into a slot. -/
def linkTable (mm : MmState) (slot pfn : Nat) : MmState :=
  { pfnDatabase := mm.pfnDatabase.set pfn ⟨.pfnActive, 1⟩
    freePages := decrement64 mm.freePages
    hintPfn := pfn + 1
    memory := store (mm.memory.write (pfn * pageSize) (replicate pageSize 0)) 8 slot
      (pfn * pageSize + 3) }

theorem mmpNextTable_cases {mm after : MmState} {slot next : Nat}
    (found : mmpNextTable mm slot = (some next, after)) :
    (HasBit (entryAt mm.memory slot) ptePresent ∧ next = frameOf (entryAt mm.memory slot) ∧
        after = mm) ∨
      ¬ HasBit (entryAt mm.memory slot) ptePresent ∧
        ∃ pfn, 0 < pfn ∧ mm.pfnDatabase.Free pfn ∧ next = pfn * pageSize ∧
          after = linkTable mm slot pfn := by
  unfold mmpNextTable at found
  split at found
  · rename_i present
    left
    simp only [nonNull, Prod.mk.injEq] at found
    obtain ⟨table, same⟩ := found
    split at table
    · cases table
    · exact ⟨present, (Option.some.inj table).symm, same.symm⟩
  · rename_i absent
    right
    refine ⟨absent, ?_⟩
    dsimp only at found
    split at found
    · simp at found
    rename_i taken
    obtain ⟨pfn, positive, free, allocated⟩ := mmAllocatePhysicalPage_taken taken
    simp only [allocated, tableEntry_eq, entryAt_store_same _ slot (tableEntry_lt free.small),
      frameOf_tableEntry free.small, nonNull, Prod.mk.injEq] at found
    obtain ⟨table, same⟩ := found
    split at table
    · cases table
    · exact ⟨pfn, positive, free, (Option.some.inj table).symm, same.symm⟩

theorem zeroMemory_entry (slot : Nat) : entryAt (fun _ => 0) slot = 0 :=
  load_eq_zero _ 8 slot (fun _ _ _ => rfl)

theorem write_zeroPage {memory : ByteMemory} {pfn : Nat}
    (zero : ∀ index, toPfn index = pfn → memory index = 0) :
    write memory (pfn * pageSize) (replicate pageSize 0) = memory := by
  funext index
  by_cases inside : toPfn index = pfn
  · rw [zero index inside]
    unfold toPfn at inside
    have positive : 0 < pageSize := by decide
    rw [write_inside _ _ _ _ (by rw [← inside]; exact Nat.div_mul_le_self index pageSize)
      (by rw [length_replicate, ← inside]; exact Nat.lt_div_mul_add positive),
      getD_eq_getElem?_getD, getElem?_replicate]
    split <;> rfl
  · apply write_outside
    rw [length_replicate]
    unfold toPfn pageSize at *
    omega

theorem store_page {memory : ByteMemory} {slot entry pfn : Nat} (aligned : slot % 8 = 0)
    (outside : toPfn slot ≠ pfn) (zero : ∀ index, toPfn index = pfn → memory index = 0) :
    ∀ index, toPfn index = pfn → store memory 8 slot entry index = 0 := by
  intro index inside
  rw [store, write_outside _ _ _ _ (by
    rw [encodeLE_length]
    unfold toPfn pageSize at *
    omega)]
  exact zero index inside

theorem mmAllocatePhysicalPage_zero {mm : MmState} {pfn : Nat}
    (first : searchFree mm.pfnDatabase (mm.pfnDatabase.highestPfn - mm.hintPfn) mm.hintPfn =
      some pfn) (positive : 0 < pfn) (zero : ∀ index, toPfn index = pfn → mm.memory index = 0) :
    mmAllocatePhysicalPage mm = (pfn * pageSize,
      { pfnDatabase := mm.pfnDatabase.set pfn ⟨.pfnActive, 1⟩
        freePages := decrement64 mm.freePages
        hintPfn := pfn + 1
        memory := mm.memory }) := by
  have small := (searchFree_some first).1.small
  have address : pfn * pageSize % 2 ^ 64 = pfn * pageSize := by
    unfold pageSize
    omega
  have nonzero : pfn * pageSize ≠ 0 := by
    unfold pageSize
    omega
  simp only [mmAllocatePhysicalPage, first, address, nonzero, if_false, write_zeroPage zero]

theorem mmpNextTable_zero {mm : MmState} {slot pfn : Nat} (empty : entryAt mm.memory slot = 0)
    (first : searchFree mm.pfnDatabase (mm.pfnDatabase.highestPfn - mm.hintPfn) mm.hintPfn =
      some pfn) (positive : 0 < pfn) (zero : ∀ index, toPfn index = pfn → mm.memory index = 0) :
    mmpNextTable mm slot = (some (pfn * pageSize),
      { pfnDatabase := mm.pfnDatabase.set pfn ⟨.pfnActive, 1⟩
        freePages := decrement64 mm.freePages
        hintPfn := pfn + 1
        memory := store mm.memory 8 slot (pfn * pageSize + 3) }) := by
  have small := (searchFree_some first).1.small
  have nonzero : pfn * pageSize ≠ 0 := by
    unfold pageSize
    omega
  have absent : ¬ HasBit 0 ptePresent := by decide
  simp only [mmpNextTable, empty, absent, if_false, mmAllocatePhysicalPage_zero first positive zero,
    nonzero, tableEntry_eq, entryAt_store_same _ slot (tableEntry_lt small),
    frameOf_tableEntry small, nonNull]

/-- The tables that lead to the page table entry of an address, in pages of their own. -/
def zeroTables (pml4 va pdpt pd pt : Nat) : ByteMemory :=
  store (store (store (fun _ => 0) 8 (slotOf pml4 va 3) (pdpt * pageSize + 3)) 8
    (slotOf (pdpt * pageSize) va 2) (pd * pageSize + 3)) 8 (slotOf (pd * pageSize) va 1)
    (pt * pageSize + 3)

/-- A walk from an empty root takes three pages for its tables. -/
theorem mmpWalkToPte_zero {mm : MmState} (zero : mm.memory = fun _ => 0) {cr3 va pdpt pd pt : Nat}
    (first : searchFree mm.pfnDatabase (mm.pfnDatabase.highestPfn - mm.hintPfn) mm.hintPfn =
      some pdpt)
    (second : searchFree (mm.pfnDatabase.set pdpt ⟨.pfnActive, 1⟩)
      (mm.pfnDatabase.highestPfn - (pdpt + 1)) (pdpt + 1) = some pd)
    (third : searchFree ((mm.pfnDatabase.set pdpt ⟨.pfnActive, 1⟩).set pd ⟨.pfnActive, 1⟩)
      (mm.pfnDatabase.highestPfn - (pd + 1)) (pd + 1) = some pt)
    (above : toPfn (frameOf cr3) < pdpt) :
    mmpWalkToPte mm va cr3 = (some (slotOf (pt * pageSize) va 0),
      { pfnDatabase := ((mm.pfnDatabase.set pdpt ⟨.pfnActive, 1⟩).set pd ⟨.pfnActive, 1⟩).set pt
          ⟨.pfnActive, 1⟩
        freePages := decrement64 (decrement64 (decrement64 mm.freePages))
        hintPfn := pt + 1
        memory := zeroTables (frameOf cr3) va pdpt pd pt }) := by
  obtain ⟨-, pdAbove, -, -⟩ := searchFree_some second
  obtain ⟨-, ptAbove, -, -⟩ := searchFree_some third
  have page : ∀ pfn, pfn * pageSize % pageSize = 0 := fun pfn => Nat.mul_mod_left pfn pageSize
  have number : ∀ pfn, toPfn (pfn * pageSize) = pfn := fun pfn => Nat.mul_div_cancel pfn (by decide)
  have inPml4 := slotOf_page (frameOf_mod cr3) va 3
  have inPdpt := slotOf_page (page pdpt) va 2
  have inPd := slotOf_page (page pd) va 1
  rw [number] at inPdpt inPd
  have inPml4Mod := slotOf_mod (frameOf_mod cr3) va 3
  have inPdptMod := slotOf_mod (page pdpt) va 2
  have inPdMod := slotOf_mod (page pd) va 1
  have apart : ∀ {slot other : Nat}, toPfn other ≠ toPfn slot → other ≠ slot :=
    fun different same => different (congrArg toPfn same)
  have zeroPages : ∀ pfn index, toPfn index = pfn → (fun _ => 0 : ByteMemory) index = 0 :=
    fun _ _ _ => rfl
  have top := @mmpNextTable_zero mm (slotOf (frameOf cr3) va 3) pdpt
    (by rw [zero, zeroMemory_entry]) first (by omega) (zero ▸ zeroPages pdpt)
  rw [zero] at top
  have pdZero := @store_page _ _ (pdpt * pageSize + 3) _ inPml4Mod
    (show toPfn (slotOf (frameOf cr3) va 3) ≠ pd by omega) (zeroPages pd)
  have middle := @mmpNextTable_zero
    { pfnDatabase := mm.pfnDatabase.set pdpt ⟨.pfnActive, 1⟩
      freePages := decrement64 mm.freePages
      hintPfn := pdpt + 1
      memory := store (fun _ => 0) 8 (slotOf (frameOf cr3) va 3) (pdpt * pageSize + 3) }
    (slotOf (pdpt * pageSize) va 2) pd
    (by rw [entryAt_store_other _ _ inPml4Mod inPdptMod (apart (by omega)), zeroMemory_entry])
    (by rw [PfnDatabase.set_highestPfn]; exact second) (by omega) pdZero
  have ptZero := @store_page _ _ (pd * pageSize + 3) _ inPdptMod
    (show toPfn (slotOf (pdpt * pageSize) va 2) ≠ pt by omega)
    (@store_page _ _ (pdpt * pageSize + 3) _ inPml4Mod
      (show toPfn (slotOf (frameOf cr3) va 3) ≠ pt by omega) (zeroPages pt))
  have bottom := @mmpNextTable_zero
    { pfnDatabase := (mm.pfnDatabase.set pdpt ⟨.pfnActive, 1⟩).set pd ⟨.pfnActive, 1⟩
      freePages := decrement64 (decrement64 mm.freePages)
      hintPfn := pd + 1
      memory := store (store (fun _ => 0) 8 (slotOf (frameOf cr3) va 3) (pdpt * pageSize + 3)) 8
        (slotOf (pdpt * pageSize) va 2) (pd * pageSize + 3) }
    (slotOf (pd * pageSize) va 1) pt
    (by rw [entryAt_store_other _ _ inPdptMod inPdMod (apart (by omega)),
      entryAt_store_other _ _ inPml4Mod inPdMod (apart (by omega)), zeroMemory_entry])
    (by rw [PfnDatabase.set_highestPfn, PfnDatabase.set_highestPfn]; exact third) (by omega) ptZero
  simp only [mmpWalkToPte_eq, mmpDescend, top, middle, bottom, zeroTables]

end MinNT.Mm
