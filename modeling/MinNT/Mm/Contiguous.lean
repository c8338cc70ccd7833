import Mathlib.Data.List.Induction
import MinNT.Mm.InitSystem

namespace MinNT.Mm

open List PfnDatabase ByteMemory

/-- The page allocator and the contiguous pool work on the same memory, each
with bookkeeping of its own. The PFN database is part of that memory too. -/
structure PhysicalMemory where
  mm : MmState
  contiguous : ContiguousPool
  databaseStart : Nat

/-- The database entry of the page frame lies in `[start, start + count)`. -/
def EntryWithin (databaseStart start count pfn : Nat) : Prop :=
  start ≤ databaseStart + pfn * mmpfnSize ∧ databaseStart + pfn * mmpfnSize < start + count

instance (databaseStart start count pfn : Nat) :
    Decidable (EntryWithin databaseStart start count pfn) := inferInstanceAs (Decidable (_ ∧ _))

/-- The database after `[start, start + count)` has been zeroed; `PfnFree` is 0.
Pages, blocks of the pool and the database begin at multiples of 64, so that an
entry is zeroed as a whole or not at all. -/
def PfnDatabase.zeroed (database : PfnDatabase) (databaseStart start count : Nat) :
    PfnDatabase :=
  ⟨database.entries.mapIdx fun pfn entry =>
      if EntryWithin databaseStart start count pfn then ⟨.pfnFree, 0⟩ else entry, by
    simpa only [List.length_mapIdx] using database.bounded⟩

namespace PhysicalMemory

/-- `MmAllocatePhysicalPage` where the page it zeroes may hold a part of the
database. -/
def allocatePage (memory : PhysicalMemory) : Nat × PhysicalMemory :=
  let call := mmAllocatePhysicalPage memory.mm
  (call.1,
    { memory with
      mm :=
        if call.1 = 0 then call.2
        else
          { call.2 with
            pfnDatabase := call.2.pfnDatabase.zeroed memory.databaseStart call.1 pageSize } })

/-- `RtlZeroMemory`. -/
def zero (memory : PhysicalMemory) (start count : Nat) : PhysicalMemory :=
  { memory with
    mm :=
      { memory.mm with
        pfnDatabase := memory.mm.pfnDatabase.zeroed memory.databaseStart start count
        memory := memory.mm.memory.write start (replicate count 0) } }

end PhysicalMemory

/-- `(Value + Alignment - 1) & ~(Alignment - 1)` in 64 bits, for a power of two. -/
def alignUp64 (value alignment : Nat) : Nat :=
  (value + (alignment - 1)) % 2 ^ 64 / alignment * alignment

/-- `AlignedSize`: to 64 bytes, and beyond one page to whole pages. -/
def alignedSize (numberOfBytes : Nat) : Nat :=
  let aligned := alignUp64 numberOfBytes mmContigAlignment
  if aligned > pageSize then alignUp64 aligned pageSize else aligned

/-- `MmAllocateContiguousMemory`. The sum in the test is taken in 64 bits, the
new `MmContiguousPoolUsed` in 32. `HighestAcceptableAddress` is not looked at. -/
def mmAllocateContiguousMemory (memory : PhysicalMemory) (numberOfBytes : Nat) :
    Nat × PhysicalMemory :=
  let size := alignedSize numberOfBytes
  if (memory.contiguous.used + size) % 2 ^ 64 > mmContigPoolSize then (0, memory)
  else
    let result := memory.contiguous.base + memory.contiguous.used
    (result,
      PhysicalMemory.zero
        { memory with
          contiguous :=
            { memory.contiguous with used := (memory.contiguous.used + size) % 2 ^ 32 } }
        result size)

/-- The size a request takes when nothing wraps. -/
def roundedSize (numberOfBytes : Nat) : Nat :=
  let aligned := (numberOfBytes + 63) / 64 * 64
  if aligned > pageSize then (aligned + (pageSize - 1)) / pageSize * pageSize else aligned

/-- The pool's test on this request is made without 64-bit wrap-around. -/
def RequestFits (pool : ContiguousPool) (numberOfBytes : Nat) : Prop :=
  pool.used + roundedSize numberOfBytes < 2 ^ 64

instance (pool : ContiguousPool) (numberOfBytes : Nat) :
    Decidable (RequestFits pool numberOfBytes) :=
  inferInstanceAs (Decidable (_ < _))

/-- Histories of the three calls after boot: the events of the page allocator,
and the contiguous blocks handed out with their requested sizes. -/
inductive OwnerRun (boot : Boot) : PhysicalMemory → List PageEvent → List (Nat × Nat) → Prop
  | nil : OwnerRun boot ⟨boot.mm, boot.contiguous, boot.databaseStart⟩ [] []
  | allocate {memory : PhysicalMemory} {history : List PageEvent} {blocks : List (Nat × Nat)}
      (run : OwnerRun boot memory history blocks) :
      OwnerRun boot memory.allocatePage.2 (history ++ [.allocated memory.allocatePage.1]) blocks
  | free {memory : PhysicalMemory} {after : MmState} {history : List PageEvent}
      {blocks : List (Nat × Nat)} {pa : Nat} (run : OwnerRun boot memory history blocks)
      (held : pa ∈ heldPages history) (done : mmFreePhysicalPage memory.mm pa = .ok after) :
      OwnerRun boot { memory with mm := after } (history ++ [.freed pa]) blocks
  | contiguous {memory : PhysicalMemory} {history : List PageEvent} {blocks : List (Nat × Nat)}
      (run : OwnerRun boot memory history blocks) (numberOfBytes : Nat)
      (fits : RequestFits memory.contiguous numberOfBytes) :
      OwnerRun boot (mmAllocateContiguousMemory memory numberOfBytes).2 history
        (if (mmAllocateContiguousMemory memory numberOfBytes).1 = 0 then blocks
        else ((mmAllocateContiguousMemory memory numberOfBytes).1, numberOfBytes) :: blocks)

/-- No page handed out overlaps a block handed out. -/
def OneOwner (history : List PageEvent) (blocks : List (Nat × Nat)) : Prop :=
  ∀ pa, .allocated pa ∈ history → pa ≠ 0 → ∀ block ∈ blocks,
    pa + pageSize ≤ block.1 ∨ block.1 + block.2 ≤ pa

/-- The page frames of the pool at 256 MB. -/
def PoolFrame (pfn : Nat) : Prop :=
  toPfn mmInitContiguousPool.base ≤ pfn ∧
    pfn < toPfn (mmInitContiguousPool.base + mmContigPoolSize)

instance (pfn : Nat) : Decidable (PoolFrame pfn) := inferInstanceAs (Decidable (_ ∧ _))

theorem poolFrame_iff (pfn : Nat) : PoolFrame pfn ↔ 0x10000 ≤ pfn ∧ pfn < 0x10800 := Iff.rfl

theorem alignedBytes_le_roundedSize (numberOfBytes : Nat) :
    (numberOfBytes + 63) / 64 * 64 ≤ roundedSize numberOfBytes := by
  unfold roundedSize
  dsimp only
  by_cases large : (numberOfBytes + 63) / 64 * 64 > pageSize
  · rw [if_pos large]
    simp only [pageSize]
    omega
  · exact Nat.le_of_eq (if_neg large).symm

theorem le_roundedSize (numberOfBytes : Nat) : numberOfBytes ≤ roundedSize numberOfBytes := by
  have bound := alignedBytes_le_roundedSize numberOfBytes
  omega

theorem alignedSize_eq_rounded (numberOfBytes : Nat) (small : roundedSize numberOfBytes < 2 ^ 64) :
    alignedSize numberOfBytes = roundedSize numberOfBytes := by
  have bound := alignedBytes_le_roundedSize numberOfBytes
  have first : alignUp64 numberOfBytes mmContigAlignment = (numberOfBytes + 63) / 64 * 64 := by
    simp only [alignUp64, mmContigAlignment]
    omega
  unfold alignedSize
  unfold roundedSize at small ⊢
  dsimp only at small ⊢
  rw [first]
  by_cases large : (numberOfBytes + 63) / 64 * 64 > pageSize
  · rw [if_pos large] at small
    rw [if_pos large, if_pos large]
    simp only [alignUp64, pageSize] at small ⊢
    omega
  · rw [if_neg large, if_neg large]

theorem mmAllocateContiguousMemory_cases (memory : PhysicalMemory) (numberOfBytes : Nat)
    (fits : RequestFits memory.contiguous numberOfBytes) :
    mmAllocateContiguousMemory memory numberOfBytes = (0, memory) ∨
      (memory.contiguous.used + roundedSize numberOfBytes ≤ mmContigPoolSize ∧
        mmAllocateContiguousMemory memory numberOfBytes =
          (memory.contiguous.base + memory.contiguous.used,
            PhysicalMemory.zero
              { memory with
                contiguous :=
                  { memory.contiguous with
                    used := memory.contiguous.used + roundedSize numberOfBytes } }
              (memory.contiguous.base + memory.contiguous.used) (roundedSize numberOfBytes))) := by
  have noWrap : memory.contiguous.used + roundedSize numberOfBytes < 2 ^ 64 := fits
  have size := alignedSize_eq_rounded numberOfBytes (by omega)
  unfold mmAllocateContiguousMemory
  dsimp only
  rw [size, Nat.mod_eq_of_lt noWrap]
  split
  · exact .inl rfl
  · have capacity : memory.contiguous.used + roundedSize numberOfBytes ≤ mmContigPoolSize := by
      omega
    have narrow : memory.contiguous.used + roundedSize numberOfBytes < 2 ^ 32 :=
      Nat.lt_of_le_of_lt capacity (by decide)
    rw [Nat.mod_eq_of_lt narrow]
    exact .inr ⟨capacity, rfl⟩

theorem PfnDatabase.zeroed_highestPfn (database : PfnDatabase) (databaseStart start count : Nat) :
    (database.zeroed databaseStart start count).highestPfn = database.highestPfn :=
  length_mapIdx

theorem PfnDatabase.free_zeroed_iff (database : PfnDatabase) (databaseStart start count pfn : Nat) :
    (database.zeroed databaseStart start count).Free pfn ↔
      database.Free pfn ∨
        pfn < database.highestPfn ∧ EntryWithin databaseStart start count pfn := by
  simp only [Free, stateOf, stateIn, zeroed, highestPfn, getElem?_mapIdx]
  by_cases inside : pfn < database.entries.length
  · by_cases within : EntryWithin databaseStart start count pfn
    · simp [inside, within]
    · simp [inside, within]
  · simp [inside]

/-- Page frame `pfn` holds no entry of the database. -/
def NoEntries (databaseStart highest pfn : Nat) : Prop :=
  ∀ other < highest, ¬ EntryWithin databaseStart (pfn * pageSize) pageSize other

/-- A page that is not part of the pool and whose zeroing frees no page of the
pool. Where the pool's pages have entries at all, these lie on one side of the
pool, and the page holds no entry or lies above the pool with the database
beginning below it. -/
structure Harmless (databaseStart highest pfn : Nat) : Prop where
  outside : ¬ PoolFrame pfn
  kept : 0x10000 < highest → NoEntries databaseStart highest pfn ∨
    0x10800 ≤ pfn ∧ databaseStart < mmInitContiguousPool.base

/-- No page frame of the pool has its entry of the database in the pool. -/
def EntriesApart (databaseStart highest : Nat) : Prop :=
  ∀ pfn, PoolFrame pfn → pfn < highest →
    ¬ EntryWithin databaseStart mmInitContiguousPool.base mmContigPoolSize pfn

theorem harmless_of_block {databaseStart highest pfn start count : Nat}
    (apart : EntriesApart databaseStart highest) (inside : pfn < highest)
    (lower : mmInitContiguousPool.base ≤ start)
    (upper : start + count ≤ mmInitContiguousPool.base + mmContigPoolSize)
    (within : EntryWithin databaseStart start count pfn) : Harmless databaseStart highest pfn := by
  have inPool : EntryWithin databaseStart mmInitContiguousPool.base mmContigPoolSize pfn :=
    ⟨Nat.le_trans lower within.1, Nat.lt_of_lt_of_le within.2 upper⟩
  have outside : ¬ PoolFrame pfn := fun frame => apart pfn frame inside inPool
  refine ⟨outside, fun covered => ?_⟩
  have first := apart 0x10000 ((poolFrame_iff _).mpr (by omega)) covered
  rw [poolFrame_iff] at outside
  simp only [EntryWithin, mmInitContiguousPool, mmContigPoolSize, mmpfnSize] at first inPool ⊢
  by_cases below : databaseStart + 0x10000 * 4 < 0x10000000
  · exact .inr ⟨by omega, by omega⟩
  · -- The database begins so high in the pool that only low pages are freed.
    refine .inl fun other _ covers => ?_
    simp only [EntryWithin, pageSize, mmpfnSize] at covers
    omega

theorem harmless_of_page {databaseStart highest pfn page : Nat}
    (harmless : Harmless databaseStart highest page) (inside : pfn < highest)
    (within : EntryWithin databaseStart (page * pageSize) pageSize pfn) :
    Harmless databaseStart highest pfn := by
  by_cases covered : 0x10000 < highest
  · rcases harmless.kept covered with none | ⟨above, below⟩
    · exact absurd within (none pfn inside)
    · simp only [EntryWithin, pageSize, mmpfnSize, mmInitContiguousPool] at within below
      refine ⟨?_, fun _ => .inr ⟨by omega, below⟩⟩
      rw [poolFrame_iff]
      omega
  · refine ⟨?_, fun more => absurd more covered⟩
    rw [poolFrame_iff]
    omega

theorem mem_heldPages {history : List PageEvent} {pa : Nat} (held : pa ∈ heldPages history) :
    pa ≠ 0 ∧ .allocated pa ∈ history := by
  induction history using List.reverseRecOn with
  | nil => cases held
  | append_singleton history event ih =>
    rw [heldPages_append] at held
    have older : pa ∈ heldPages history →
        pa ≠ 0 ∧ PageEvent.allocated pa ∈ history ++ [event] := fun member =>
      ⟨(ih member).1, mem_append_left _ (ih member).2⟩
    cases event with
    | freed other => exact older (mem_of_mem_erase held)
    | allocated other =>
      simp only [holdAfter] at held
      split at held
      · exact older held
      · rcases mem_cons.mp held with rfl | member
        · exact ⟨‹_›, by simp⟩
        · exact older member

/-- What every history keeps about the two allocators. Once entries have been
zeroed, a free page need not have been free at the start and may lie below the
hint. -/
structure OwnerInv (boot : Boot) (memory : PhysicalMemory) (history : List PageEvent)
    (blocks : List (Nat × Nat)) : Prop where
  database : memory.databaseStart = boot.databaseStart
  sameSize : memory.mm.pfnDatabase.highestPfn = boot.mm.pfnDatabase.highestPfn
  hintAbove : 0 < memory.mm.hintPfn
  free : ∀ pfn, memory.mm.pfnDatabase.Free pfn →
    Harmless boot.databaseStart boot.mm.pfnDatabase.highestPfn pfn
  handedOut : ∀ pa, .allocated pa ∈ history → pa ≠ 0 → ∃ pfn, pa = pfn * pageSize ∧
    Harmless boot.databaseStart boot.mm.pfnDatabase.highestPfn pfn
  base : memory.contiguous.base = mmInitContiguousPool.base
  used : memory.contiguous.used ≤ mmContigPoolSize
  insidePool : ∀ block ∈ blocks, mmInitContiguousPool.base ≤ block.1 ∧
    block.1 + block.2 ≤ mmInitContiguousPool.base + mmContigPoolSize

section Steps

variable {boot : Boot} {memory : PhysicalMemory} {history : List PageEvent}
  {blocks : List (Nat × Nat)}

theorem PhysicalMemory.allocatePage_cases (aboveZero : 0 < memory.mm.hintPfn) :
    (memory.allocatePage = (0, memory) ∧
        ∀ pfn, memory.mm.hintPfn ≤ pfn → ¬ memory.mm.pfnDatabase.Free pfn) ∨
      ∃ pfn, memory.mm.hintPfn ≤ pfn ∧ memory.mm.pfnDatabase.Free pfn ∧
        (∀ earlier, memory.mm.hintPfn ≤ earlier → earlier < pfn →
          ¬ memory.mm.pfnDatabase.Free earlier) ∧
        memory.allocatePage.1 = pfn * pageSize ∧
        memory.allocatePage.2.contiguous = memory.contiguous ∧
        memory.allocatePage.2.databaseStart = memory.databaseStart ∧
        memory.allocatePage.2.mm.hintPfn = pfn + 1 ∧
        memory.allocatePage.2.mm.pfnDatabase =
          (memory.mm.pfnDatabase.set pfn ⟨.pfnActive, 1⟩).zeroed memory.databaseStart
            (pfn * pageSize) pageSize := by
  rcases mmAllocatePhysicalPage_cases memory.mm aboveZero with
    ⟨result, none⟩ | ⟨pfn, lower, free, first, result⟩
  · refine .inl ⟨?_, none⟩
    rw [PhysicalMemory.allocatePage, result]
    rfl
  · have nonzero : pfn * pageSize ≠ 0 := by
      simp only [pageSize]
      omega
    refine .inr ⟨pfn, lower, free, first, ?_⟩
    simp only [PhysicalMemory.allocatePage, result, nonzero, ↓reduceIte, and_self]

/-- A page allocation keeps one owner for each page. -/
theorem OwnerInv.allocate (inv : OwnerInv boot memory history blocks) :
    OwnerInv boot memory.allocatePage.2 (history ++ [.allocated memory.allocatePage.1])
      blocks := by
  have handedOut : ∀ pfn, Harmless boot.databaseStart boot.mm.pfnDatabase.highestPfn pfn →
      ∀ pa, PageEvent.allocated pa ∈ history ++ [.allocated (pfn * pageSize)] → pa ≠ 0 →
        ∃ pfn, pa = pfn * pageSize ∧
          Harmless boot.databaseStart boot.mm.pfnDatabase.highestPfn pfn := by
    intro pfn harmless pa member nonzero
    rcases mem_append.mp member with older | last
    · exact inv.handedOut pa older nonzero
    · exact ⟨pfn, by simpa using last, harmless⟩
  rcases memory.allocatePage_cases inv.hintAbove with
    ⟨result, _⟩ | ⟨pfn, lower, free, _, address, pool, start, hint, database⟩
  · rw [result]
    refine ⟨inv.database, inv.sameSize, inv.hintAbove, inv.free, ?_, inv.base, inv.used,
      inv.insidePool⟩
    intro pa member nonzero
    rcases mem_append.mp member with older | last
    · exact inv.handedOut pa older nonzero
    · exact absurd (by simpa using last) nonzero
  · have harmless := inv.free pfn free
    refine ⟨start.trans inv.database, ?_, by omega, ?_, ?_, by rw [pool, inv.base],
      by rw [pool]; exact inv.used, inv.insidePool⟩
    · rw [database, zeroed_highestPfn, set_highestPfn, inv.sameSize]
    · intro other otherFree
      rw [database, free_zeroed_iff, free_set_iff _ _ _ _ free.lt,
        set_highestPfn, inv.sameSize, inv.database] at otherFree
      rcases otherFree with wasFree | ⟨inside, within⟩
      · split at wasFree
        · cases wasFree
        · exact inv.free other wasFree
      · exact harmless_of_page harmless inside within
    · rw [address]
      exact handedOut pfn harmless

/-- A freed page has no owner any more. -/
theorem OwnerInv.release {after : MmState} {pa : Nat} (inv : OwnerInv boot memory history blocks)
    (held : pa ∈ heldPages history) (done : mmFreePhysicalPage memory.mm pa = .ok after) :
    OwnerInv boot { memory with mm := after } (history ++ [.freed pa]) blocks := by
  obtain ⟨nonzero, allocated⟩ := mem_heldPages held
  obtain ⟨pfn, rfl, harmless⟩ := inv.handedOut pa allocated nonzero
  have positive : 0 < pfn := Nat.pos_of_ne_zero fun zero => nonzero (by rw [zero, Nat.zero_mul])
  have active : memory.mm.pfnDatabase.stateOf (toPfn (pfn * pageSize)) = some .pfnActive := by
    unfold mmFreePhysicalPage at done
    dsimp only at done
    split at done
    · cases done
    · split at done
      · cases done
      · exact not_not.mp ‹_›
  rw [mmFreePhysicalPage_active memory.mm _ active] at done
  cases done
  have inside := stateOf_lt active
  have above := inv.hintAbove
  rw [toPfn_address] at inside ⊢
  refine ⟨inv.database, ?_, ?_, ?_, ?_, inv.base, inv.used, inv.insidePool⟩
  · dsimp only
    rw [set_highestPfn, inv.sameSize]
  · dsimp only
    omega
  · intro other otherFree
    rw [free_set_iff _ _ _ _ inside] at otherFree
    split at otherFree
    · rename_i same
      exact same ▸ harmless
    · exact inv.free other otherFree
  · intro other member other0
    rcases mem_append.mp member with older | last
    · exact inv.handedOut other older other0
    · simp at last

/-- A block of the pool lies apart from all pages and blocks. -/
theorem OwnerInv.contiguous {numberOfBytes : Nat}
    (apart : EntriesApart boot.databaseStart boot.mm.pfnDatabase.highestPfn)
    (inv : OwnerInv boot memory history blocks)
    (fits : RequestFits memory.contiguous numberOfBytes) :
    OwnerInv boot (mmAllocateContiguousMemory memory numberOfBytes).2 history
      (if (mmAllocateContiguousMemory memory numberOfBytes).1 = 0 then blocks
      else ((mmAllocateContiguousMemory memory numberOfBytes).1, numberOfBytes) :: blocks) := by
  rcases mmAllocateContiguousMemory_cases memory numberOfBytes fits with
    same | ⟨capacity, taken⟩
  · rw [same]
    exact inv
  have base := inv.base
  have nonzero : memory.contiguous.base + memory.contiguous.used ≠ 0 := by
    rw [base]
    simp only [mmInitContiguousPool]
    omega
  rw [taken]
  simp only [nonzero, ↓reduceIte]
  refine ⟨inv.database, ?_, inv.hintAbove, ?_, inv.handedOut, base, capacity, ?_⟩
  · exact (zeroed_highestPfn _ _ _ _).trans inv.sameSize
  · intro pfn free
    rw [PhysicalMemory.zero, free_zeroed_iff, inv.sameSize, inv.database] at free
    rcases free with wasFree | ⟨inside, within⟩
    · exact inv.free pfn wasFree
    · exact harmless_of_block apart inside (by omega) (by omega) within
  · intro block member
    rcases mem_cons.mp member with rfl | member
    · have requested := le_roundedSize numberOfBytes
      dsimp only
      omega
    · exact inv.insidePool block member

/-- Every run keeps one owner for each page. -/
theorem ownerInv_run (pool : boot.contiguous = mmInitContiguousPool)
    (hint : boot.mm.hintPfn = mmFirstHint)
    (free : ∀ pfn, boot.mm.pfnDatabase.Free pfn →
      Harmless boot.databaseStart boot.mm.pfnDatabase.highestPfn pfn)
    (apart : EntriesApart boot.databaseStart boot.mm.pfnDatabase.highestPfn)
    (run : OwnerRun boot memory history blocks) : OwnerInv boot memory history blocks := by
  induction run with
  | nil =>
    refine ⟨rfl, rfl, ?_, free, ?_, congrArg ContiguousPool.base pool, ?_, ?_⟩
    · rw [hint]
      decide
    · intro pa member
      cases member
    · rw [pool]
      exact Nat.zero_le _
    · intro block member
      cases member
  | allocate run ih => exact ih.allocate
  | free run held done ih => exact ih.release held done
  | contiguous run numberOfBytes fits ih => exact ih.contiguous apart fits

end Steps

/-- A free page at or above the hint is handed out in time: the hint moves past
one page with each allocation, and zeroing a page frees entries only. -/
theorem handsOut_free {boot : Boot} (pfn : Nat) :
    ∀ (memory : PhysicalMemory) (history : List PageEvent) (blocks : List (Nat × Nat)),
      OwnerRun boot memory history blocks → 0 < memory.mm.hintPfn → memory.mm.hintPfn ≤ pfn →
      memory.mm.pfnDatabase.Free pfn →
      ∃ later history', OwnerRun boot later history' blocks ∧
        .allocated (pfn * pageSize) ∈ history' := by
  intro memory
  induction distance : pfn + 1 - memory.mm.hintPfn using Nat.strongRecOn generalizing memory with
  | ind left ih =>
    intro history blocks run positive reached free
    have next := OwnerRun.allocate run
    rcases memory.allocatePage_cases positive with
      ⟨_, none⟩ | ⟨taken, lower, takenFree, first, address, _, _, hint, database⟩
    · exact absurd free (none pfn reached)
    by_cases same : taken = pfn
    · subst taken
      rw [address] at next
      exact ⟨_, _, next, by simp⟩
    · have below : taken < pfn := by
        by_contra above
        exact first pfn reached (by omega) free
      refine ih (pfn + 1 - (taken + 1)) (by omega) _ (by rw [hint]) _ _ next (by omega)
        (by omega) ?_
      rw [database, free_zeroed_iff, free_set_iff _ _ _ _ takenFree.lt, if_neg (Ne.symm same)]
      exact .inl free

theorem wholePool_run (boot : Boot) (pool : boot.contiguous = mmInitContiguousPool) :
    ∃ memory, OwnerRun boot memory [] [(mmInitContiguousPool.base, mmContigPoolSize)] ∧
      memory.mm.hintPfn = boot.mm.hintPfn ∧
      memory.mm.pfnDatabase = boot.mm.pfnDatabase.zeroed boot.databaseStart
        mmInitContiguousPool.base mmContigPoolSize := by
  have size : roundedSize mmContigPoolSize = mmContigPoolSize := by decide +kernel
  have fits : RequestFits boot.contiguous mmContigPoolSize := by
    rw [pool]
    decide +kernel
  have next := OwnerRun.contiguous (OwnerRun.nil : OwnerRun boot _ [] []) mmContigPoolSize fits
  rcases mmAllocateContiguousMemory_cases ⟨boot.mm, boot.contiguous, boot.databaseStart⟩
    mmContigPoolSize fits with failed | ⟨_, taken⟩
  · have test : (boot.contiguous.used + alignedSize mmContigPoolSize) % 2 ^ 64 ≤
        mmContigPoolSize := by
      rw [pool]
      decide +kernel
    unfold mmAllocateContiguousMemory at failed
    dsimp only at failed
    rw [if_neg (Nat.not_lt.mpr test), pool] at failed
    have zero : mmInitContiguousPool.base + mmInitContiguousPool.used = 0 :=
      congrArg Prod.fst failed
    exact absurd zero (by decide)
  · rw [taken, size, pool] at next
    exact ⟨_, next, rfl, rfl⟩

/-- A page of the pool that is free, or that the zeroing of the pool frees, is
handed out after the pool has been. -/
theorem poolFrame_shared {boot : Boot} (pool : boot.contiguous = mmInitContiguousPool)
    (hint : boot.mm.hintPfn = mmFirstHint) (pfn : Nat) (frame : PoolFrame pfn)
    (free : boot.mm.pfnDatabase.Free pfn ∨ pfn < boot.mm.pfnDatabase.highestPfn ∧
      EntryWithin boot.databaseStart mmInitContiguousPool.base mmContigPoolSize pfn) :
    ∃ later history blocks, OwnerRun boot later history blocks ∧ ¬ OneOwner history blocks := by
  have range := (poolFrame_iff pfn).mp frame
  obtain ⟨memory, whole, sameHint, database⟩ := wholePool_run boot pool
  rw [hint] at sameHint
  obtain ⟨later, history, run, handed⟩ := handsOut_free pfn memory _ _ whole
    (by rw [sameHint]; decide) (by rw [sameHint, mmFirstHint]; omega)
    (by rw [database, free_zeroed_iff]; exact free)
  refine ⟨later, history, _, run, ?_⟩
  intro apart
  have clash := apart (pfn * pageSize) handed (by simp only [pageSize]; omega)
    (mmInitContiguousPool.base, mmContigPoolSize) (mem_singleton_self _)
  simp only [pageSize, mmContigPoolSize, mmInitContiguousPool] at clash
  omega

/-- Where things lie at boot: the image is linked at 1 MB and ends below the
pool, and the boot stub passes a 32-bit address of the boot information. -/
structure BootLayout (kernelStart kernelEnd info : Nat) : Prop where
  image : kernelStart ≤ kernelEnd
  belowPool : kernelEnd ≤ mmInitContiguousPool.base
  info32 : info < 2 ^ 32

/-- The memory map leaves the pool's page frames alone, and none of them has its
entry of the PFN database in the pool. -/
def PoolApart (kernelStart kernelEnd infoEnd : Nat) (map : List MmapEntry) : Prop :=
  ∀ pfn, PoolFrame pfn →
    ¬ Available kernelStart kernelEnd infoEnd map pfn ∧
      ¬ (pfn < highestUsable map ∧
        EntryWithin (databaseStart kernelEnd infoEnd) mmInitContiguousPool.base mmContigPoolSize
          pfn)

/-- The carve-out covers the database. -/
theorem available_noEntries {kernelStart kernelEnd infoEnd pfn : Nat} {map : List MmapEntry}
    (image : kernelStart ≤ kernelEnd) (linked : kernelEnd < 2 ^ 63) (loaded : infoEnd < 2 ^ 63)
    (available : Available kernelStart kernelEnd infoEnd map pfn) :
    NoEntries (databaseStart kernelEnd infoEnd) (highestUsable map) pfn := by
  intro other inside within
  have start := databaseStart_spec linked loaded
  have finish := databaseEnd_spec linked loaded (highestUsable_le map)
  have last : decrement64 (databaseEnd kernelEnd infoEnd (highestUsable map)) =
      databaseEnd kernelEnd infoEnd (highestUsable map) - 1 := by
    rw [decrement64, if_neg (by simp only [finish, mmpfnSize]; omega)]
  refine available.2.2.2 ?_
  rw [lastReserved, last, finish]
  simp only [EntryWithin, toPfn, mmpfnSize, pageSize] at within ⊢
  omega

/-- An accepted boot keeps the two allocators apart in all histories whose
contiguous requests do not wrap exactly when its memory map and its PFN database
leave the pool alone. -/
theorem oneOwner_iff (kernelStart kernelEnd info : Nat) (memory : ByteMemory) (boot : Boot)
    (map : List MmapEntry) (layout : BootLayout kernelStart kernelEnd info)
    (parsed : mapCopy memory info = some (some map))
    (accepted : mmInitSystem kernelStart kernelEnd memory info = some (.ok boot)) :
    (∀ later history blocks, OwnerRun boot later history blocks → OneOwner history blocks) ↔
      PoolApart kernelStart kernelEnd ((info + memory.load 4 info) % 2 ^ 64) map := by
  obtain ⟨map', parsed', _, rfl⟩ := mmInitSystem_ok accepted
  rw [parsed] at parsed'
  cases parsed'
  generalize finish : (info + memory.load 4 info) % 2 ^ 64 = infoEnd
  have size : (bootDatabase kernelStart kernelEnd infoEnd map).highestPfn = highestUsable map :=
    buildDatabase_length _ _ _ _
  constructor
  · intro owned pfn frame
    have unshared : ¬ (Available kernelStart kernelEnd infoEnd map pfn ∨ pfn < highestUsable map ∧
        EntryWithin (databaseStart kernelEnd infoEnd) mmInitContiguousPool.base mmContigPoolSize
          pfn) := by
      intro free
      rw [← bootDatabase_free_iff, ← size] at free
      obtain ⟨later, history, blocks, run, shared⟩ := @poolFrame_shared
        (initFromMap kernelStart kernelEnd infoEnd memory map) rfl rfl pfn frame free
      exact shared (owned later history blocks run)
    exact not_or.mp unshared
  · intro apart later history blocks run pa handed nonzero block member
    have length : memory.load 4 info < 2 ^ 32 := load_lt memory 4 info
    have belowPool := layout.belowPool
    have info32 := layout.info32
    simp only [mmInitContiguousPool] at belowPool
    have inv := ownerInv_run rfl rfl (fun pfn free => ?_) (fun pfn frame inside => ?_) run
    · obtain ⟨pfn, rfl, harmless⟩ := inv.handedOut pa handed nonzero
      have outside := harmless.outside
      have inside := inv.insidePool block member
      rw [poolFrame_iff] at outside
      simp only [mmInitContiguousPool, mmContigPoolSize] at inside
      simp only [pageSize]
      omega
    · have available := (bootDatabase_free_iff _ _ _ _ _).mp free
      refine ⟨fun frame => (apart pfn frame).1 available, fun _ => .inl ?_⟩
      have none := available_noEntries layout.image (by omega) (by omega) available
      rwa [← size] at none
    · intro within
      exact (apart pfn frame).2 ⟨by rwa [← size], within⟩

/-- Boot information at `0x9000` whose map has one entry of available memory. -/
def oneEntryBoot (baseAddr length : Nat) : ByteMemory :=
  write (fun _ => 0) 0x9000
    (encodeLE 4 56 ++ encodeLE 4 0 ++
      encodeLE 4 mb2TagTypeMmap ++ encodeLE 4 40 ++
      encodeLE 4 24 ++ encodeLE 4 0 ++
      encodeLE 8 baseAddr ++ encodeLE 8 length ++
      encodeLE 4 1 ++ encodeLE 4 0 ++
      encodeLE 4 mb2TagTypeEnd ++ encodeLE 4 8)

theorem mmInitSystem_accepts (kernelStart kernelEnd : Nat) {info : Nat} {memory : ByteMemory}
    {map : List MmapEntry} (parsed : mapCopy memory info = some (some map))
    (usable : highestUsable map ≠ 0) :
    mmInitSystem kernelStart kernelEnd memory info =
      some (.ok (initFromMap kernelStart kernelEnd ((info + memory.load 4 info) % 2 ^ 64) memory
        map)) := by
  unfold mmInitSystem
  rw [parsed]
  dsimp only
  rw [if_neg usable]

/-- A machine with one page at 16 MB has nothing to share. -/
theorem pageAt16MB_oneOwner :
    ∃ boot, mmInitSystem 0x100000 0x200000 (oneEntryBoot 0x1000000 0x1000) 0x9000 =
        some (.ok boot) ∧
      ∀ later history blocks, OwnerRun boot later history blocks → OneOwner history blocks := by
  have parsed : mapCopy (oneEntryBoot 0x1000000 0x1000) 0x9000 =
      some (some [⟨0x1000000, 0x1000, 1⟩]) := by decide +kernel
  have accepted := mmInitSystem_accepts 0x100000 0x200000 parsed (by decide +kernel)
  refine ⟨_, accepted, (oneOwner_iff _ _ _ _ _ _ ⟨by decide, by decide, by decide⟩ parsed
    accepted).mpr ?_⟩
  intro pfn frame
  have range := (poolFrame_iff pfn).mp frame
  have highest : highestUsable [⟨0x1000000, 0x1000, 1⟩] = 0x1001 := by decide +kernel
  have beyond : ¬ pfn < highestUsable [⟨0x1000000, 0x1000, 1⟩] := by omega
  exact ⟨fun available => beyond available.2.1, fun covered => beyond covered.1⟩

/-- A machine with memory at 256 MB: the page there is given to both sides. -/
theorem pageAt256MB_shared :
    ¬ ∀ (kernelStart kernelEnd info : Nat) (memory : ByteMemory) (boot : Boot),
      BootLayout kernelStart kernelEnd info →
      mmInitSystem kernelStart kernelEnd memory info = some (.ok boot) →
      ∀ later history blocks, OwnerRun boot later history blocks → OneOwner history blocks := by
  intro apart
  have parsed : mapCopy (oneEntryBoot 0x10000000 0x1000) 0x9000 =
      some (some [⟨0x10000000, 0x1000, 1⟩]) := by decide +kernel
  have accepted := mmInitSystem_accepts 0x100000 0x200000 parsed (by decide +kernel)
  have available : Available 0x100000 0x200000 0x9038 [⟨0x10000000, 0x1000, 1⟩] 0x10000 := by
    refine ⟨⟨_, mem_singleton_self _, rfl, ?_, ?_⟩, ?_, ?_, ?_⟩ <;> decide +kernel
  have finish : (0x9000 + (oneEntryBoot 0x10000000 0x1000).load 4 0x9000) % 2 ^ 64 = 0x9038 := by
    decide +kernel
  rw [finish] at accepted
  have free := (bootDatabase_free_iff _ _ _ _ _).mpr available
  obtain ⟨later, history, blocks, run, shared⟩ := @poolFrame_shared
    (initFromMap 0x100000 0x200000 0x9038 (oneEntryBoot 0x10000000 0x1000) _) rfl rfl 0x10000
    (by decide) (.inl free)
  exact shared (apart _ _ _ _ _ ⟨by decide, by decide, by decide⟩ accepted later history blocks run)

end MinNT.Mm
