import MinNT.Lib.ByteMemory
import MinNT.NtStatus

namespace MinNT.Mm

open List

def pageSize : Nat := 0x1000

/-- `Address >> PAGE_SHIFT`. -/
def toPfn (address : Nat) : Nat := address / pageSize

/-- `MM_BOOT_MAPPED_LIMIT`: the boot stub maps 64 GB. -/
def mmBootMappedLimit : Nat := 64 * 2 ^ 30

/-- `MM_PAGE_STATE`. -/
inductive PageState where
  | pfnFree
  | pfnActive
  | pfnReservedHw
  | pfnKernelImage
deriving DecidableEq, Repr

/-- `MMPFN`. Its `Flags` byte is never read or written. -/
structure Mmpfn where
  state : PageState
  refCount : Nat
deriving DecidableEq, Repr

def stateIn (entries : List Mmpfn) (pfn : Nat) : Option PageState :=
  (entries[pfn]?).map Mmpfn.state

/-- The PFN database, one entry for each page below `MmHighestPfn`, which
`MmInitSystem` clips to the mapped window. -/
structure PfnDatabase where
  entries : List Mmpfn
  bounded : entries.length ≤ toPfn mmBootMappedLimit

namespace PfnDatabase

/-- `MmHighestPfn`. -/
def highestPfn (database : PfnDatabase) : Nat := database.entries.length

def stateOf (database : PfnDatabase) (pfn : Nat) : Option PageState :=
  stateIn database.entries pfn

def set (database : PfnDatabase) (pfn : Nat) (entry : Mmpfn) : PfnDatabase :=
  ⟨database.entries.set pfn entry, by simpa only [List.length_set] using database.bounded⟩

/-- The page is managed by the database and in state `PfnFree`. -/
def Free (database : PfnDatabase) (pfn : Nat) : Prop :=
  database.stateOf pfn = some .pfnFree

instance (database : PfnDatabase) (pfn : Nat) : Decidable (database.Free pfn) :=
  inferInstanceAs (Decidable (_ = _))

/-- How many entries are `PfnFree`. -/
def freeCount (database : PfnDatabase) : Nat :=
  database.entries.countP (fun entry => entry.state = .pfnFree)

end PfnDatabase

/-- The statics of the physical allocator together with the memory it zeroes. -/
structure MmState where
  pfnDatabase : PfnDatabase
  freePages : Nat
  hintPfn : Nat
  memory : ByteMemory

/-- The scan of `MmAllocatePhysicalPage` over `count` consecutive page frames. -/
def searchFree (database : PfnDatabase) : Nat → Nat → Option Nat
  | 0, _ => none
  | count + 1, pfn =>
      if database.Free pfn then some pfn else searchFree database count (pfn + 1)

/-- `MmAllocatePhysicalPage`: the physical address handed out, 0 when the scan
from the hint finds nothing. -/
def mmAllocatePhysicalPage (mm : MmState) : Nat × MmState :=
  match searchFree mm.pfnDatabase (mm.pfnDatabase.highestPfn - mm.hintPfn) mm.hintPfn with
  | none => (0, mm)
  | some pfn =>
      let pa := pfn * pageSize % 2 ^ 64
      (pa,
        { pfnDatabase := mm.pfnDatabase.set pfn ⟨.pfnActive, 1⟩
          freePages := decrement64 mm.freePages
          hintPfn := pfn + 1
          memory :=
            if pa = 0 then mm.memory
            else mm.memory.write pa (replicate pageSize 0) })

/-- `MmFreePhysicalPage`. Both `ASSERT`s stop the machine when they fail. -/
def mmFreePhysicalPage (mm : MmState) (pa : Nat) : Except BugCheck MmState :=
  let pfn := toPfn pa
  if ¬ pfn < mm.pfnDatabase.highestPfn then .error .manuallyInitiatedCrash
  else if mm.pfnDatabase.stateOf pfn ≠ some .pfnActive then .error .manuallyInitiatedCrash
  else .ok
    { mm with
      pfnDatabase := mm.pfnDatabase.set pfn ⟨.pfnFree, 0⟩
      freePages := (mm.freePages + 1) % 2 ^ 64
      hintPfn := if pfn < mm.hintPfn then pfn else mm.hintPfn }

namespace PfnDatabase

@[simp] theorem set_highestPfn (database : PfnDatabase) (pfn : Nat) (entry : Mmpfn) :
    (database.set pfn entry).highestPfn = database.highestPfn := by
  simp only [highestPfn, set, length_set]

theorem highestPfn_le (database : PfnDatabase) : database.highestPfn ≤ 2 ^ 24 :=
  database.bounded

theorem stateOf_set_same (database : PfnDatabase) (pfn : Nat) (entry : Mmpfn)
    (inside : pfn < database.highestPfn) :
    (database.set pfn entry).stateOf pfn = some entry.state := by
  simp only [highestPfn] at inside
  simp [stateOf, stateIn, set, inside]

theorem stateOf_set_other (database : PfnDatabase) (pfn other : Nat) (entry : Mmpfn)
    (different : other ≠ pfn) :
    (database.set pfn entry).stateOf other = database.stateOf other := by
  simp only [stateOf, stateIn, set, getElem?_set_ne (Ne.symm different)]

theorem stateOf_lt {database : PfnDatabase} {pfn : Nat} {state : PageState}
    (known : database.stateOf pfn = some state) : pfn < database.highestPfn := by
  simp only [stateOf, stateIn, Option.map_eq_some_iff] at known
  obtain ⟨entry, found, _⟩ := known
  exact (List.getElem?_eq_some_iff.mp found).1

theorem Free.lt {database : PfnDatabase} {pfn : Nat} (free : database.Free pfn) :
    pfn < database.highestPfn :=
  stateOf_lt free

theorem free_set_iff (database : PfnDatabase) (pfn other : Nat) (entry : Mmpfn)
    (inside : pfn < database.highestPfn) :
    (database.set pfn entry).Free other ↔
      if other = pfn then entry.state = .pfnFree else database.Free other := by
  unfold Free
  split
  · subst other
    rw [stateOf_set_same database pfn entry inside, Option.some.injEq]
  · rename_i different
    rw [stateOf_set_other database pfn other entry different]

theorem freeCount_set_taken (database : PfnDatabase) (pfn : Nat) (entry : Mmpfn)
    (free : database.Free pfn) (taken : entry.state ≠ .pfnFree) :
    (database.set pfn entry).freeCount + 1 = database.freeCount := by
  have inside : pfn < database.entries.length := free.lt
  have state : database.entries[pfn].state = .pfnFree := by
    simpa [Free, stateOf, stateIn, inside] using free
  have positive : 0 < database.entries.countP (fun entry => entry.state = .pfnFree) :=
    countP_pos_iff.mpr ⟨_, getElem_mem inside, by simpa using state⟩
  simp only [freeCount, set, countP_set inside, state, taken, decide_true, decide_false,
    Bool.false_eq_true, ↓reduceIte]
  omega

theorem freeCount_set_released (database : PfnDatabase) (pfn : Nat) (entry : Mmpfn)
    (inside : pfn < database.highestPfn) (held : ¬ database.Free pfn)
    (released : entry.state = .pfnFree) :
    (database.set pfn entry).freeCount = database.freeCount + 1 := by
  have bound : pfn < database.entries.length := inside
  have state : database.entries[pfn].state ≠ .pfnFree := by
    simpa [Free, stateOf, stateIn, bound] using held
  simp only [freeCount, set, countP_set bound, state, released, decide_true, decide_false]
  simp

theorem freeCount_le (database : PfnDatabase) : database.freeCount ≤ database.highestPfn :=
  countP_le_length

end PfnDatabase

theorem searchFree_some {database : PfnDatabase} {count start pfn : Nat}
    (found : searchFree database count start = some pfn) :
    database.Free pfn ∧ start ≤ pfn ∧ pfn < start + count ∧
      ∀ earlier, start ≤ earlier → earlier < pfn → ¬ database.Free earlier := by
  induction count generalizing start with
  | zero => cases found
  | succ count ih =>
    unfold searchFree at found
    split at found
    · rename_i free
      cases found
      exact ⟨free, Nat.le_refl _, by omega, fun earlier lower upper => by omega⟩
    · rename_i taken
      obtain ⟨free, lower, upper, first⟩ := ih found
      refine ⟨free, by omega, by omega, ?_⟩
      intro earlier low high
      by_cases same : earlier = start
      · exact same ▸ taken
      · exact first earlier (by omega) high

theorem searchFree_none {database : PfnDatabase} {count start : Nat}
    (missing : searchFree database count start = none) :
    ∀ pfn, start ≤ pfn → pfn < start + count → ¬ database.Free pfn := by
  induction count generalizing start with
  | zero => intro pfn lower upper; omega
  | succ count ih =>
    unfold searchFree at missing
    split at missing
    · cases missing
    · rename_i taken
      intro pfn lower upper
      by_cases same : pfn = start
      · exact same ▸ taken
      · exact ih missing pfn (by omega) (by omega)

theorem pageAddress_eq {pfn : Nat} (small : pfn < 2 ^ 24) :
    pfn * pageSize % 2 ^ 64 = pfn * pageSize := by
  simp only [pageSize]
  omega

theorem mmAllocatePhysicalPage_cases (mm : MmState) (aboveZero : 0 < mm.hintPfn) :
    (mmAllocatePhysicalPage mm = (0, mm) ∧
        ∀ pfn, mm.hintPfn ≤ pfn → ¬ mm.pfnDatabase.Free pfn) ∨
      ∃ pfn, mm.hintPfn ≤ pfn ∧ mm.pfnDatabase.Free pfn ∧
        (∀ earlier, mm.hintPfn ≤ earlier → earlier < pfn → ¬ mm.pfnDatabase.Free earlier) ∧
        mmAllocatePhysicalPage mm = (pfn * pageSize,
          { pfnDatabase := mm.pfnDatabase.set pfn ⟨.pfnActive, 1⟩
            freePages := decrement64 mm.freePages
            hintPfn := pfn + 1
            memory := mm.memory.write (pfn * pageSize) (replicate pageSize 0) }) := by
  unfold mmAllocatePhysicalPage
  split
  · rename_i missing
    refine .inl ⟨rfl, ?_⟩
    intro pfn lower free
    have upper := free.lt
    exact searchFree_none missing pfn lower (by omega) free
  · rename_i pfn found
    obtain ⟨free, lower, _, first⟩ := searchFree_some found
    have address := pageAddress_eq (Nat.lt_of_lt_of_le free.lt mm.pfnDatabase.highestPfn_le)
    have nonzero : pfn * pageSize ≠ 0 := by
      simp only [pageSize]
      omega
    refine .inr ⟨pfn, lower, free, first, ?_⟩
    simp only [address, nonzero, ↓reduceIte]

theorem mmFreePhysicalPage_active (mm : MmState) (pa : Nat)
    (active : mm.pfnDatabase.stateOf (toPfn pa) = some .pfnActive) :
    mmFreePhysicalPage mm pa = .ok
      { mm with
        pfnDatabase := mm.pfnDatabase.set (toPfn pa) ⟨.pfnFree, 0⟩
        freePages := (mm.freePages + 1) % 2 ^ 64
        hintPfn := min (toPfn pa) mm.hintPfn } := by
  have inside := PfnDatabase.stateOf_lt active
  have hint : (if toPfn pa < mm.hintPfn then toPfn pa else mm.hintPfn) =
      min (toPfn pa) mm.hintPfn := by
    split <;> omega
  simp only [mmFreePhysicalPage, inside, active, not_true_eq_false, ne_eq, ↓reduceIte, hint]

end MinNT.Mm
