import MinNT.Mm.PageTable
import MinNT.Mm.VirtualMemory

open ByteMemory

namespace MinNT.Mm

def mmAccessFault (mm : MmState) (cr3 faultAddress : Nat) :
    Except BugCheck (NtStatus × MmState) :=
  if faultAddress < mmUserBase ∨ faultAddress > mmUserMax then .ok (statusUnsuccessful, mm)
  else
    let allocated := mmAllocatePhysicalPage mm
    if allocated.1 = 0 then .ok (statusNoMemory, allocated.2)
    else
      let mapped := mmMapPage allocated.2 cr3 (pageAlign faultAddress) allocated.1
        (pteUser ||| pteWrite)
      if ntSuccess mapped.1 then .ok (statusSuccess, mapped.2)
      else (mmFreePhysicalPage mapped.2 allocated.1).map (fun freed => (mapped.1, freed))

/-- The walk from a slot on goes through all the levels below, and every entry
is present, writable and open to user mode. -/
def UserWalk (memory : ByteMemory) (va : Nat) : Nat → Nat → Prop
  | 0, slot =>
      HasBit (entryAt memory slot) ptePresent ∧ HasBit (entryAt memory slot) pteWrite ∧
        HasBit (entryAt memory slot) pteUser
  | level + 1, slot =>
      HasBit (entryAt memory slot) ptePresent ∧ HasBit (entryAt memory slot) pteWrite ∧
        HasBit (entryAt memory slot) pteUser ∧ ¬ HasBit (entryAt memory slot) pteLarge ∧
        UserWalk memory va level (slotOf (frameOf (entryAt memory slot)) va level)

/-- The physical address a leaf gives to a virtual one. -/
def Leaf.physical (leaf : Leaf) (va : Nat) : Nat :=
  frameOf leaf.entry / 2 ^ (12 + 9 * leaf.level) * 2 ^ (12 + 9 * leaf.level) +
    va % 2 ^ (12 + 9 * leaf.level)

/-- The faulting instruction can go on: user mode may write through all four
levels, to a page of zeros that is mapped nowhere else. -/
structure Resolved (memory : ByteMemory) (cr3 va : Nat) : Prop where
  canonical : Canonical va
  access : UserWalk memory va 3 (slotOf (frameOf cr3) va 3)
  zeroed : ∀ leaf, translate memory cr3 va = some leaf →
    ∀ offset, offset < pageSize → memory (frameOf leaf.entry + offset) = 0
  alone : ∀ leaf, translate memory cr3 va = some leaf →
    ∀ other, other < 2 ^ 64 → pageOf other ≠ pageOf va →
      ∀ otherLeaf, translate memory cr3 other = some otherLeaf →
        pageOf (otherLeaf.physical other) ≠ pageOf (leaf.physical va)

instance decideUserWalk (memory : ByteMemory) (va : Nat) :
    (level slot : Nat) → Decidable (UserWalk memory va level slot)
  | 0, _ => inferInstanceAs (Decidable (_ ∧ _ ∧ _))
  | level + 1, slot =>
      have := decideUserWalk memory va level (slotOf (frameOf (entryAt memory slot)) va level)
      inferInstanceAs (Decidable (_ ∧ _ ∧ _ ∧ _ ∧ UserWalk memory va level
        (slotOf (frameOf (entryAt memory slot)) va level)))

/-- Present and open to user mode. -/
def UserEntry (entry : Nat) : Prop := HasBit entry ptePresent ∧ HasBit entry pteUser

/-- Every entry of `after` that is open to user mode was there before. -/
def KeepsUserEntries (before after : ByteMemory) : Prop :=
  ∀ slot, slot % 8 = 0 → UserEntry (entryAt after slot) →
    entryAt before slot = entryAt after slot

theorem KeepsUserEntries.refl (memory : ByteMemory) : KeepsUserEntries memory memory :=
  fun _ _ _ => rfl

theorem KeepsUserEntries.trans {first second third : ByteMemory}
    (left : KeepsUserEntries first second) (right : KeepsUserEntries second third) :
    KeepsUserEntries first third := by
  intro slot aligned user
  have same := right slot aligned user
  rw [← same] at user ⊢
  exact left slot aligned user

theorem keepsUserEntries_zeroPage (memory : ByteMemory) (pfn : Nat) :
    KeepsUserEntries memory (memory.write (pfn * pageSize) (List.replicate pageSize 0)) := by
  intro slot aligned user
  by_cases inside : toPfn slot = pfn
  · rw [entryAt_zeroPage_inside memory aligned inside] at user
    exact absurd user.1 (by decide)
  · exact (entryAt_zeroPage_outside memory aligned inside).symm

theorem keepsUserEntries_store (memory : ByteMemory) {slot entry : Nat} (aligned : slot % 8 = 0)
    (word : entry < 2 ^ 64) (closed : ¬ UserEntry entry) :
    KeepsUserEntries memory (store memory 8 slot entry) := by
  intro other otherAligned user
  by_cases same : other = slot
  · subst other
    rw [entryAt_store_same memory slot word] at user
    exact absurd user closed
  · exact (entryAt_store_other memory entry aligned otherAligned same).symm

theorem tableEntry_closed (pfn : Nat) : ¬ UserEntry (pfn * pageSize + 3) := by
  intro user
  have open' := user.2
  simp only [HasBit, pteUser, pageSize] at open'
  omega

theorem linkTable_keepsUserEntries (mm : MmState) {slot pfn : Nat} (aligned : slot % 8 = 0)
    (small : pfn < 2 ^ 24) : KeepsUserEntries mm.memory (linkTable mm slot pfn).memory := by
  apply (keepsUserEntries_zeroPage mm.memory pfn).trans
  exact keepsUserEntries_store _ aligned (tableEntry_lt small) (tableEntry_closed pfn)

variable {mm after : MmState}

theorem mmpDescend_keepsUserEntries {va level table slot : Nat} (aligned : table % pageSize = 0)
    (found : mmpDescend va level table mm = (some slot, after)) :
    KeepsUserEntries mm.memory after.memory ∧ slot % 8 = 0 := by
  induction level generalizing table mm with
  | zero =>
    simp only [mmpDescend, Prod.mk.injEq, Option.some.injEq] at found
    obtain ⟨rfl, rfl⟩ := found
    exact ⟨.refl _, slotOf_mod aligned va 0⟩
  | succ level ih =>
    simp only [mmpDescend] at found
    split at found
    · cases found
    · rename_i next middle opened
      have slotAligned := slotOf_mod aligned va (level + 1)
      rcases mmpNextTable_cases opened with
        ⟨_, rfl, rfl⟩ | ⟨_, pfn, _, free, rfl, rfl⟩
      · exact ih (frameOf_mod _) found
      · obtain ⟨kept, slotEnd⟩ := ih (Nat.mul_mod_left _ _) found
        exact ⟨(linkTable_keepsUserEntries mm slotAligned free.small).trans kept, slotEnd⟩

/-- Where user mode can pass through all the levels in the end, the code has
come to the same page table entry. -/
theorem mmpDescend_of_userWalk {va level table slot : Nat} {memory : ByteMemory}
    (aligned : table % pageSize = 0) (found : mmpDescend va level table mm = (some slot, after))
    (kept : KeepsUserEntries after.memory memory)
    (walk : UserWalk memory va level (slotOf table va level)) :
    UserEntry (entryAt memory slot) := by
  induction level generalizing table mm with
  | zero =>
    simp only [mmpDescend, Prod.mk.injEq, Option.some.injEq] at found
    obtain ⟨rfl, rfl⟩ := found
    exact ⟨walk.1, walk.2.2⟩
  | succ level ih =>
    obtain ⟨present, _, user, _, rest⟩ := walk
    have slotAligned := slotOf_mod aligned va (level + 1)
    have whole := (mmpDescend_keepsUserEntries aligned found).1.trans kept
    have here := whole _ slotAligned ⟨present, user⟩
    simp only [mmpDescend] at found
    split at found
    · cases found
    · rename_i next middle opened
      rcases mmpNextTable_cases opened with
        ⟨_, rfl, rfl⟩ | ⟨absent, _⟩
      · rw [here] at found
        exact ih (frameOf_mod _) found rest
      · rw [here] at absent
        exact absurd present absent

theorem faultEntry_closed (pa : Nat) :
    ¬ UserEntry (pa / 2 ^ 12 * 2 ^ 12 ||| (pteUser ||| pteWrite)) := by
  intro user
  have bits : pteUser ||| pteWrite = 6 := by decide
  have present := user.1
  rw [bits, Nat.mul_comm, ← Nat.two_pow_add_eq_or_of_lt (by decide)] at present
  simp only [HasBit, ptePresent] at present
  omega

theorem faultEntry_lt {pa : Nat} (word : pa < 2 ^ 64) :
    pa / 2 ^ 12 * 2 ^ 12 ||| (pteUser ||| pteWrite) < 2 ^ 64 := by
  apply Nat.or_lt_two_pow
  · omega
  · decide

/-- No mapping that `MmMapPage` makes without `PTE_PRESENT` lets user mode
through, whatever the page tables were. -/
theorem mmMapPage_not_userWalk {cr3 va pa : Nat} (word : pa < 2 ^ 64)
    (mapped : mmMapPage mm cr3 va pa (pteUser ||| pteWrite) = (statusSuccess, after)) :
    ¬ UserWalk after.memory va 3 (slotOf (frameOf cr3) va 3) := by
  intro walk
  unfold mmMapPage at mapped
  split at mapped
  · simp [statusSuccess, statusNoMemory] at mapped
  rename_i pte middle found
  simp only [Prod.mk.injEq, true_and] at mapped
  subst after
  rw [mmpWalkToPte_eq] at found
  have aligned := (mmpDescend_keepsUserEntries (frameOf_mod _) found).2
  have kept : KeepsUserEntries middle.memory
      (store middle.memory 8 pte (pa / 2 ^ 12 * 2 ^ 12 ||| (pteUser ||| pteWrite))) :=
    keepsUserEntries_store _ aligned (faultEntry_lt word) (faultEntry_closed pa)
  have user := mmpDescend_of_userWalk (frameOf_mod _) found kept walk
  rw [entryAt_store_same _ _ (faultEntry_lt word)] at user
  exact faultEntry_closed pa user

theorem indexAt_pageAlign (va level : Nat) : indexAt (pageAlign va) level = indexAt va level := by
  have page : pageOf (pageAlign va) = pageOf va := by
    simp only [pageOf, pageAlign, pageSize]
    omega
  rw [indexAt_eq, indexAt_eq, page]

theorem userWalk_pageAlign {memory : ByteMemory} {va level slot : Nat}
    (walk : UserWalk memory va level slot) : UserWalk memory (pageAlign va) level slot := by
  induction level generalizing slot with
  | zero => exact walk
  | succ level ih =>
    obtain ⟨present, writable, user, small, rest⟩ := walk
    refine ⟨present, writable, user, small, ?_⟩
    rw [slotOf, indexAt_pageAlign]
    exact ih rest

theorem mmMapPage_status (mm : MmState) (cr3 va pa flags : Nat)
    (succeeded : ntSuccess (mmMapPage mm cr3 va pa flags).1 = true) :
    (mmMapPage mm cr3 va pa flags).1 = statusSuccess := by
  unfold mmMapPage at succeeded ⊢
  split at succeeded
  · have failed : ntSuccess statusNoMemory = false := by decide
    dsimp only at succeeded
    rw [failed] at succeeded
    cases succeeded
  · rfl

/-- A successful fault has mapped a page that it took. -/
theorem mmAccessFault_success {cr3 faultAddress : Nat}
    (handled : mmAccessFault mm cr3 faultAddress = .ok (statusSuccess, after)) :
    (mmAllocatePhysicalPage mm).1 ≠ 0 ∧
      mmMapPage (mmAllocatePhysicalPage mm).2 cr3 (pageAlign faultAddress)
        (mmAllocatePhysicalPage mm).1 (pteUser ||| pteWrite) = (statusSuccess, after) := by
  unfold mmAccessFault at handled
  split at handled
  · simp [statusSuccess, statusUnsuccessful] at handled
  dsimp only at handled
  split at handled
  · simp [statusSuccess, statusNoMemory] at handled
  rename_i taken
  refine ⟨taken, ?_⟩
  split at handled
  · rename_i succeeded
    simp only [Except.ok.injEq, Prod.mk.injEq, true_and] at handled
    exact Prod.ext (mmMapPage_status _ _ _ _ _ succeeded) handled
  · rename_i failed
    cases freed : mmFreePhysicalPage
        (mmMapPage (mmAllocatePhysicalPage mm).2 cr3 (pageAlign faultAddress)
          (mmAllocatePhysicalPage mm).1 (pteUser ||| pteWrite)).2
        (mmAllocatePhysicalPage mm).1 with
    | error bugCheck =>
      rw [freed] at handled
      cases handled
    | ok released =>
      rw [freed] at handled
      simp only [Except.map, Except.ok.injEq, Prod.mk.injEq] at handled
      rw [handled.1] at failed
      exact absurd (by decide) failed

/-- A fault for which `MmAccessFault` reports success is never resolved. -/
theorem demandZeroFault_unresolved (mm after : MmState) (cr3 faultAddress : Nat)
    (handled : mmAccessFault mm cr3 faultAddress = .ok (statusSuccess, after)) :
    ¬ Resolved after.memory cr3 faultAddress := by
  intro resolved
  obtain ⟨taken, mapped⟩ := mmAccessFault_success handled
  obtain ⟨pfn, _, free, allocated⟩ := mmAllocatePhysicalPage_taken taken
  have word : (mmAllocatePhysicalPage mm).1 < 2 ^ 64 := by
    have small := free.small
    simp only [allocated, pageSize]
    omega
  apply mmMapPage_not_userWalk word mapped
  rw [slotOf, indexAt_pageAlign]
  exact userWalk_pageAlign resolved.access

/-- Four free pages above 1 MB and an empty PML4 below them. -/
def fourPageMm : MmState where
  pfnDatabase :=
    ⟨List.replicate 0x100 ⟨.pfnReservedHw, 0⟩ ++ List.replicate 4 ⟨.pfnFree, 0⟩, by decide +kernel⟩
  freePages := 4
  hintPfn := 0x100
  memory := fun _ => 0

/-- What `MmAccessFault` leaves of that machine for a fault at `0x10000`. -/
def faultedMm : MmState :=
  ((mmAccessFault fourPageMm 0x1000 0x10000).toOption.getD (statusSuccess, fourPageMm)).2

theorem firstFault_eq : mmAccessFault fourPageMm 0x1000 0x10000 = .ok (statusSuccess,
    { pfnDatabase := (((fourPageMm.pfnDatabase.set 0x100 ⟨.pfnActive, 1⟩).set 0x101
        ⟨.pfnActive, 1⟩).set 0x102 ⟨.pfnActive, 1⟩).set 0x103 ⟨.pfnActive, 1⟩
      freePages := 0
      hintPfn := 0x104
      memory := store (zeroTables 0x1000 0x10000 0x101 0x102 0x103) 8 (slotOf 0x103000 0x10000 0)
        0x100006 }) := by
  have inside : ¬ (0x10000 < mmUserBase ∨ 0x10000 > mmUserMax) := by decide
  have page : pageAlign 0x10000 = 0x10000 := by decide
  have taken := @mmAllocatePhysicalPage_zero fourPageMm 0x100 (by decide +kernel) (by decide)
    fun _ _ => rfl
  have walk := @mmpWalkToPte_zero
    { pfnDatabase := fourPageMm.pfnDatabase.set 0x100 ⟨.pfnActive, 1⟩
      freePages := decrement64 fourPageMm.freePages
      hintPfn := 0x100 + 1
      memory := fourPageMm.memory } rfl 0x1000 0x10000 0x101 0x102 0x103 (by decide +kernel)
    (by decide +kernel) (by decide +kernel) (by decide +kernel)
  have some : ¬ 0x100 * pageSize = 0 := by decide
  have success : ntSuccess statusSuccess = true := by decide
  simp only [mmAccessFault, inside, taken, some, page, mmMapPage, walk, success, if_true, if_false]
  rfl

theorem firstFault_handled :
    mmAccessFault fourPageMm 0x1000 0x10000 = .ok (statusSuccess, faultedMm) := by
  rw [faultedMm, firstFault_eq]
  rfl

/-- The first fault of a page is not resolved. -/
theorem firstFault_stays :
    mmAccessFault fourPageMm 0x1000 0x10000 = .ok (statusSuccess, faultedMm) ∧
      ¬ Resolved faultedMm.memory 0x1000 0x10000 :=
  ⟨firstFault_handled, demandZeroFault_unresolved _ _ _ _ firstFault_handled⟩

/-- The leaf entry of the page is not even present. -/
theorem firstFault_notPresent :
    mmAccessFault fourPageMm 0x1000 0x10000 = .ok (statusSuccess, faultedMm) ∧
      ¬ Resolved faultedMm.memory 0x1000 0x10000 :=
  ⟨firstFault_handled, fun resolved => absurd resolved.access (by
    rw [faultedMm, firstFault_eq]
    decide +kernel)⟩

end MinNT.Mm
