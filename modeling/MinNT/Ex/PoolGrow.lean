import MinNT.Ex.PoolTake

namespace MinNT.Ex

open List Function MinNT.Mm Chain Tiling

/-- What a run of page allocations leaves alone: pages in use stay in use, and
only pages that were free are written. -/
structure Grown (before after : MmState) : Prop where
  hint : 0 < after.hintPfn
  sameSize : after.pfnDatabase.highestPfn = before.pfnDatabase.highestPfn
  active : ∀ pfn, before.pfnDatabase.stateOf pfn = some .pfnActive →
    after.pfnDatabase.stateOf pfn = some .pfnActive
  free : ∀ pfn, after.pfnDatabase.Free pfn → before.pfnDatabase.Free pfn
  kept : ∀ address, ¬ before.pfnDatabase.Free (toPfn address) →
    after.memory address = before.memory address
  count : after.pfnDatabase.freeCount ≤ before.pfnDatabase.freeCount

variable {mm : MmState}

theorem Grown.refl (hint : 0 < mm.hintPfn) : Grown mm mm :=
  ⟨hint, rfl, fun _ active => active, fun _ free => free, fun _ _ => rfl, Nat.le_refl _⟩

theorem Grown.trans {first second third : MmState} (left : Grown first second)
    (right : Grown second third) : Grown first third where
  hint := right.hint
  sameSize := right.sameSize.trans left.sameSize
  active := fun pfn active => right.active pfn (left.active pfn active)
  free := fun pfn free => left.free pfn (right.free pfn free)
  kept := by
    intro address taken
    rw [right.kept address (fun free => taken (left.free _ free)), left.kept address taken]
  count := Nat.le_trans right.count left.count

/-- The state after `MmAllocatePhysicalPage` has taken a page. -/
def pageTaken (mm : MmState) (pfn : Nat) : MmState where
  pfnDatabase := mm.pfnDatabase.set pfn ⟨.pfnActive, 1⟩
  freePages := decrement64 mm.freePages
  hintPfn := pfn + 1
  memory := mm.memory.write (pfn * pageSize) (replicate pageSize 0)

theorem free_pageTaken {pfn : Nat} (free : mm.pfnDatabase.Free pfn) (other : Nat) :
    (pageTaken mm pfn).pfnDatabase.Free other ↔ mm.pfnDatabase.Free other ∧ other ≠ pfn := by
  have cases := PfnDatabase.free_set_iff mm.pfnDatabase pfn other ⟨.pfnActive, 1⟩ free.lt
  change (mm.pfnDatabase.set pfn ⟨.pfnActive, 1⟩).Free other ↔ _
  rw [cases]
  by_cases same : other = pfn
  · simp [same]
  · simp [same]

theorem grown_pageTaken {pfn : Nat} (free : mm.pfnDatabase.Free pfn) :
    Grown mm (pageTaken mm pfn) ∧
      (pageTaken mm pfn).pfnDatabase.stateOf pfn = some .pfnActive ∧
      (pageTaken mm pfn).pfnDatabase.freeCount < mm.pfnDatabase.freeCount := by
  have count : (pageTaken mm pfn).pfnDatabase.freeCount + 1 = mm.pfnDatabase.freeCount :=
    PfnDatabase.freeCount_set_taken mm.pfnDatabase pfn ⟨.pfnActive, 1⟩ free (by decide)
  refine ⟨⟨Nat.succ_pos pfn, PfnDatabase.set_highestPfn _ _ _, ?_, ?_, ?_, by omega⟩,
    PfnDatabase.stateOf_set_same _ _ _ free.lt, by omega⟩
  · intro other active
    have different : other ≠ pfn := by
      intro same
      rw [same, show mm.pfnDatabase.stateOf pfn = some .pfnFree from free] at active
      cases active
    exact (PfnDatabase.stateOf_set_other _ _ _ _ different).trans active
  · exact fun other otherFree => ((free_pageTaken free other).mp otherFree).1
  · intro address taken
    have different : toPfn address ≠ pfn := by
      intro same
      exact taken (same ▸ free)
    apply ByteMemory.write_outside
    simp only [length_replicate, toPfn, pageSize] at different ⊢
    omega

theorem pageTaken_free {pfn : Nat} (positive : 0 < pfn) (free : mm.pfnDatabase.Free pfn) :
    ∃ after, mmFreePhysicalPage (pageTaken mm pfn) (pfn * pageSize) = .ok after ∧
      Grown mm after ∧ (∀ other, after.pfnDatabase.Free other ↔ mm.pfnDatabase.Free other) ∧
      after.hintPfn = pfn := by
  obtain ⟨grown, active, count⟩ := grown_pageTaken free
  have inside := PfnDatabase.stateOf_lt active
  refine ⟨_, mmFreePhysicalPage_active _ _ (by rw [toPfn_address]; exact active), ?_⟩
  rw [toPfn_address]
  have taken : ¬ (pageTaken mm pfn).pfnDatabase.Free pfn := by
    rw [PfnDatabase.Free, active]
    simp
  have released := PfnDatabase.freeCount_set_released (pageTaken mm pfn).pfnDatabase pfn
    ⟨.pfnFree, 0⟩ inside taken rfl
  have sameFree : ∀ other, ((pageTaken mm pfn).pfnDatabase.set pfn ⟨.pfnFree, 0⟩).Free other ↔
      mm.pfnDatabase.Free other := by
    intro other
    rw [PfnDatabase.free_set_iff _ _ _ _ inside]
    by_cases same : other = pfn
    · simp [same, free]
    · rw [if_neg same, free_pageTaken free]
      simp [same]
  refine ⟨⟨?_, ?_, ?_, ?_, grown.kept, ?_⟩, sameFree, Nat.min_eq_left (Nat.le_succ pfn)⟩
  · have hint := grown.hint
    dsimp only
    omega
  · exact (PfnDatabase.set_highestPfn _ _ _).trans grown.sameSize
  · intro other otherActive
    have different : other ≠ pfn := by
      intro same
      rw [same, show mm.pfnDatabase.stateOf pfn = some .pfnFree from free] at otherActive
      cases otherActive
    exact (PfnDatabase.stateOf_set_other _ _ _ _ different).trans (grown.active other otherActive)
  · exact fun other otherFree => (sameFree other).mp otherFree
  · dsimp only
    omega

/-- The frames `first, …, first + pages - 1`, free before and in use after. -/
def Obtained (before after : MmState) (first pages : Nat) : Prop :=
  ∀ index, index < pages → before.pfnDatabase.Free (first + index) ∧
    after.pfnDatabase.stateOf (first + index) = some .pfnActive

/-- No page frame at or above the hint is free: `MmAllocatePhysicalPage` fails. -/
def NoFreePage (mm : MmState) : Prop := ∀ pfn, mm.hintPfn ≤ pfn → ¬ mm.pfnDatabase.Free pfn

/-- Between the two states the frames `first, …, first + pages - 1` were taken, and
no free frame behind them was passed over. -/
structure Grabbed (before after : MmState) (first pages : Nat) : Prop where
  free : ∀ pfn, after.pfnDatabase.Free pfn ↔
    before.pfnDatabase.Free pfn ∧ ¬ (first ≤ pfn ∧ pfn < first + pages)
  taken : ∀ pfn, first ≤ pfn → pfn < first + pages → before.pfnDatabase.Free pfn
  hint : first + pages ≤ after.hintPfn
  passed : ∀ pfn, first + pages ≤ pfn → pfn < after.hintPfn → ¬ before.pfnDatabase.Free pfn

/-- One more frame grabbed behind the others. -/
theorem Grabbed.next {start mm : MmState} {first grabbed : Nat}
    (taken : Grabbed start mm first grabbed) (free : mm.pfnDatabase.Free (first + grabbed)) :
    Grabbed start (pageTaken mm (first + grabbed)) first (grabbed + 1) := by
  refine ⟨?_, ?_, Nat.le_refl _, ?_⟩
  · intro pfn
    rw [free_pageTaken free, taken.free]
    constructor
    · intro ⟨⟨wasFree, outside⟩, different⟩
      exact ⟨wasFree, by omega⟩
    · intro ⟨wasFree, outside⟩
      exact ⟨⟨wasFree, by omega⟩, by omega⟩
  · intro pfn lower upper
    by_cases here : pfn = first + grabbed
    · rw [here]
      exact ((taken.free _).mp free).1
    · exact taken.taken pfn lower (by omega)
  · intro pfn lower upper
    have below : pfn < first + grabbed + 1 := upper
    omega

theorem Grabbed.giveBack {start mm after : MmState} {first grabbed pfn : Nat}
    (taken : Grabbed start mm first grabbed) (behind : first + grabbed < pfn)
    (passed : ∀ earlier, first + grabbed ≤ earlier → earlier < pfn → ¬ mm.pfnDatabase.Free earlier)
    (sameFree : ∀ other, after.pfnDatabase.Free other ↔ mm.pfnDatabase.Free other)
    (hint : after.hintPfn = pfn) : Grabbed start after first grabbed := by
  refine ⟨fun other => (sameFree other).trans (taken.free other), taken.taken, by omega, ?_⟩
  intro other lower upper wasFree
  exact passed other lower (by omega) ((taken.free other).mpr ⟨wasFree, by omega⟩)

/-- The grab never trips an assertion. It ends after `count` more pages, or in front of
a frame that is not free. -/
theorem grabPages_grabbed {start : MmState} (first : Nat) (positive : 0 < first) (count : Nat) :
    ∀ (grabbed : Nat) (mm : MmState), Grown start mm → Obtained start mm first grabbed →
      Grabbed start mm first grabbed → 0 < grabbed → mm.hintPfn = first + grabbed →
      ∃ pages after, grabPages (first * pageSize) count grabbed mm = .ok (pages, after) ∧
        0 < pages ∧ Grown mm after ∧ Obtained start after first pages ∧
        Grabbed start after first pages ∧
        (pages = grabbed + count ∨ ¬ start.pfnDatabase.Free (first + pages)) := by
  induction count with
  | zero =>
    intro grabbed mm grown obtained taken some _
    exact ⟨grabbed, mm, rfl, some, Grown.refl grown.hint, obtained, taken, .inl rfl⟩
  | succ count ih =>
    intro grabbed mm grown obtained taken some hint
    have kept : ∀ after, Grown mm after → Obtained start after first grabbed :=
      fun after later index inside => ⟨(obtained index inside).1,
        later.active _ (obtained index inside).2⟩
    have small := start.pfnDatabase.highestPfn_le
    have last := (taken.taken (first + grabbed - 1) (by omega) (by omega)).lt
    have expected : (first * pageSize + grabbed * pageSize) % 2 ^ 64 =
        (first + grabbed) * pageSize := by
      rw [Nat.add_mul, Nat.mod_eq_of_lt]
      simp only [pageSize]
      omega
    rcases mmAllocatePhysicalPage_cases mm grown.hint with
      ⟨result, none⟩ | ⟨pfn, lower, free, earlier, result⟩
    · have different : (0 : Nat) ≠ (first + grabbed) * pageSize := by
        simp only [pageSize]
        omega
      refine ⟨grabbed, mm, ?_, some, Grown.refl grown.hint, obtained, taken, .inr ?_⟩
      · rw [grabPages, result, expected]
        simp only [different, ne_eq, not_false_eq_true, ↓reduceIte, not_true_eq_false]
      · intro wasFree
        exact none (first + grabbed) (by omega) ((taken.free _).mpr ⟨wasFree, by omega⟩)
    · change mmAllocatePhysicalPage mm = (pfn * pageSize, pageTaken mm pfn) at result
      obtain ⟨more, active, _⟩ := grown_pageTaken free
      by_cases contiguous : pfn = first + grabbed
      · subst pfn
        have obtained' : Obtained start (pageTaken mm (first + grabbed)) first (grabbed + 1) := by
          intro index inside
          by_cases here : index = grabbed
          · rw [here]
            exact ⟨grown.free _ free, active⟩
          · exact kept _ more index (by omega)
        obtain ⟨pages, after, run, some', later, found, taken', stopped⟩ :=
          ih (grabbed + 1) _ (grown.trans more) obtained' (taken.next free) (by omega) rfl
        refine ⟨pages, after, ?_, some', more.trans later, found, taken', ?_⟩
        · rw [grabPages, result, expected]
          simpa only [ne_eq, not_true_eq_false, ↓reduceIte] using run
        · rw [← Nat.add_assoc, Nat.add_right_comm]
          exact stopped
      · have different : pfn * pageSize ≠ (first + grabbed) * pageSize := by
          intro same
          exact contiguous (Nat.eq_of_mul_eq_mul_right (by decide) same)
        have nonzero : pfn * pageSize ≠ 0 := by
          simp only [pageSize]
          omega
        have gap : ∀ other, first + grabbed ≤ other → other < pfn → ¬ mm.pfnDatabase.Free other :=
          fun other low high => earlier other (by omega) high
        obtain ⟨after, back, later, sameFree, place⟩ := pageTaken_free (by omega) free
        refine ⟨grabbed, after, ?_, some, later, kept after later,
          taken.giveBack (by omega) gap sameFree place, .inr ?_⟩
        · rw [grabPages, result, expected]
          simp only [different, nonzero, ne_eq, not_false_eq_true, ↓reduceIte, back]
        · intro wasFree
          exact gap (first + grabbed) (Nat.le_refl _) (by omega)
            ((taken.free _).mpr ⟨wasFree, by omega⟩)

/-- What a successful call of `ExpExpandPool` has taken: the first free frame from
the hint on and the free ones directly behind it, as many as are wanted. -/
structure Expansion (before after : MmState) (minBytes first pages : Nat) : Prop where
  grown : Grown before after
  obtained : Obtained before after first pages
  grabbed : Grabbed before after first pages
  above : before.hintPfn ≤ first
  earlier : ∀ pfn, before.hintPfn ≤ pfn → pfn < first → ¬ before.pfnDatabase.Free pfn
  positive : 0 < first
  some : 0 < pages
  fewer : after.pfnDatabase.freeCount < before.pfnDatabase.freeCount
  stopped : pages = pagesWanted minBytes ∨ ¬ before.pfnDatabase.Free (first + pages)

/-- The pool grows by a run of pages, or has no page to grow by. -/
theorem expExpandPool_expansion (pool : PoolState) (minBytes : Nat) (hint : 0 < pool.mm.hintPfn) :
    (NoFreePage pool.mm ∧ expExpandPool pool minBytes = .ok (statusNoMemory, pool)) ∨
      ∃ first pages after, Expansion pool.mm after minBytes first pages ∧
        expExpandPool pool minBytes =
          .ok (statusSuccess, addRegion pool (first * pageSize) pages after) := by
  rcases mmAllocatePhysicalPage_cases pool.mm hint with
    ⟨result, none⟩ | ⟨first, lower, free, earlier, result⟩
  · left
    refine ⟨none, ?_⟩
    rw [expExpandPool, result]
    rfl
  · right
    change mmAllocatePhysicalPage pool.mm = (first * pageSize, pageTaken pool.mm first) at result
    obtain ⟨taken, active, fewer⟩ := grown_pageTaken free
    have positive : 0 < first := Nat.lt_of_lt_of_le hint lower
    have nonzero : first * pageSize ≠ 0 := by
      simp only [pageSize]
      omega
    have one : Obtained pool.mm (pageTaken pool.mm first) first 1 := by
      intro index inside
      have here : index = 0 := by omega
      rw [here]
      exact ⟨free, active⟩
    have oneGrabbed : Grabbed pool.mm (pageTaken pool.mm first) first 1 := by
      refine ⟨?_, ?_, Nat.le_refl _, ?_⟩
      · intro pfn
        rw [free_pageTaken free]
        exact and_congr_right fun _ => by omega
      · intro pfn low high
        have here : pfn = first := by omega
        rw [here]
        exact free
      · intro pfn low high
        have below : pfn < first + 1 := high
        omega
    obtain ⟨pages, after, run, some, later, obtained, grabbed, stopped⟩ :=
      grabPages_grabbed first positive (pagesWanted minBytes - 1) 1 _ taken one oneGrabbed
        (by omega)
        rfl
    have count := later.count
    have wanted : 1 + (pagesWanted minBytes - 1) = pagesWanted minBytes := by
      have least : poolExpandPages ≤ pagesWanted minBytes := Nat.le_max_right _ _
      simp only [poolExpandPages] at least
      omega
    rw [wanted] at stopped
    refine ⟨first, pages, after, ⟨taken.trans later, obtained, grabbed, lower, earlier, positive,
      some, by omega, stopped⟩, ?_⟩
    rw [expExpandPool, result]
    simp only [nonzero, ↓reduceIte, run]

/-- Every page of a region is in use. -/
def RegionHeld (mm : MmState) (region : PoolRegion) : Prop :=
  ∃ first, region.base = first * pageSize ∧ 0 < first ∧ 0 < region.pages ∧
    ∀ index, index < region.pages → mm.pfnDatabase.stateOf (first + index) = some .pfnActive

/-- The pool and the page allocator it grows from. -/
structure PoolInv (pool : PoolState) (blocksOf : Nat → List Nat) (free : List Nat)
    (outstanding : List (Nat × Nat)) : Prop where
  heap : HeapInv pool.mm.memory pool.freeList pool.regions blocksOf free outstanding
  hint : 0 < pool.mm.hintPfn
  held : ∀ region ∈ pool.regions, RegionHeld pool.mm region

variable {region : PoolRegion}

theorem RegionHeld.grown {before after : MmState}
    (held : RegionHeld before region) (grown : Grown before after) : RegionHeld after region := by
  obtain ⟨first, place, positive, some, active⟩ := held
  exact ⟨first, place, positive, some, fun index inside => grown.active _ (active index inside)⟩

theorem RegionHeld.notFree (held : RegionHeld mm region)
    {address : Nat} (lower : region.base ≤ address) (upper : address < region.top) :
    ¬ mm.pfnDatabase.Free (toPfn address) := by
  obtain ⟨first, place, _, _, active⟩ := held
  simp only [PoolRegion.top, place, pageSize] at lower upper
  have page : toPfn address = first + (toPfn address - first) := by
    simp only [toPfn, pageSize]
    omega
  have inside : toPfn address - first < region.pages := by
    simp only [toPfn, pageSize]
    omega
  rw [page, PfnDatabase.Free, active _ inside]
  simp

theorem RegionHeld.apart {mm after : MmState} {first pages : Nat}
    (held : RegionHeld mm region) (obtained : Obtained mm after first pages) (some : 0 < pages) :
    RegionsDisjoint ⟨first * pageSize, pages⟩ region := by
  obtain ⟨other, place, _, otherSome, active⟩ := held
  by_contra overlap
  simp only [RegionsDisjoint, PoolRegion.top, place, pageSize] at overlap
  have free := (obtained (max first other - first) (by omega)).1
  have taken := active (max first other - other) (by omega)
  have same : first + (max first other - first) = other + (max first other - other) := by omega
  rw [PfnDatabase.Free, same, taken] at free
  cases free

theorem regionSize_eq {pages : Nat} (some : 0 < pages) (small : pages ≤ 2 ^ 24) :
    subtract64 (pages * pageSize % 2 ^ 64) poolHeaderSize = pages * pageSize - poolHeaderSize := by
  rw [Nat.mod_eq_of_lt (by simp only [pageSize]; omega)]
  apply subtract64_of_le
  simp only [pageSize, poolHeaderSize]
  omega

section Growing

variable {pool : PoolState} {blocksOf : Nat → List Nat} {free : List Nat}
  {outstanding : List (Nat × Nat)}

variable {after : MmState}

theorem PoolInv.grow_sameHeader (inv : PoolInv pool blocksOf free outstanding)
    (grown : Grown pool.mm after) {header : Nat} (block : IsBlock pool.regions blocksOf header) :
    SameHeader pool.mm.memory after.memory header := by
  intro address lower upper
  obtain ⟨region, known, member⟩ := block
  have inside := (inv.heap.tiled region known).inside header member
  unfold extent at inside
  exact grown.kept address ((inv.held region known).notFree (by omega) (by omega))

theorem PoolInv.growMemory (inv : PoolInv pool blocksOf free outstanding)
    (grown : Grown pool.mm after) :
    HeapInv after.memory pool.freeList pool.regions blocksOf free outstanding :=
  inv.heap.frame after.memory fun _ block => inv.grow_sameHeader grown block

theorem HeapInv.newApart {memory : ByteMemory} {freeList : Nat} {regions : List PoolRegion}
    (inv : HeapInv memory freeList regions blocksOf free outstanding) {base pages : Nat}
    (apart : ∀ region ∈ regions, RegionsDisjoint ⟨base, pages⟩ region) (some : 0 < pages)
    {header : Nat} (block : IsBlock regions blocksOf header) :
    header + poolHeaderSize ≤ base ∨ base + poolHeaderSize ≤ header := by
  obtain ⟨region, known, member⟩ := block
  have inside := (inv.tiled region known).inside header member
  have far := apart region known
  simp only [RegionsDisjoint, PoolRegion.top, pageSize, extent, poolHeaderSize] at far inside ⊢
  omega

/-- A new region comes in as one free block, at the head of the list. -/
theorem HeapInv.addRegion {memory : ByteMemory} {freeList : Nat} {regions : List PoolRegion}
    (inv : HeapInv memory freeList regions blocksOf free outstanding) {base pages : Nat}
    (apart : ∀ region ∈ regions, RegionsDisjoint ⟨base, pages⟩ region)
    (otherBase : ∀ region ∈ regions, region.base ≠ base) (some : 0 < pages) (positive : 0 < base)
    (bound : base + pages * pageSize ≤ 2 ^ 40) :
    HeapInv (writeFreeHeader memory base (pages * pageSize - poolHeaderSize) freeList) base
      (⟨base, pages⟩ :: regions) (update blocksOf base [base]) (base :: free)
      outstanding := by
  have listBound := inv.freeList_lt
  obtain ⟨outside, magicNow, sizeNow, nextNow⟩ := writeFreeHeader_fields memory base
    (pages * pageSize - poolHeaderSize) freeList (by omega) (by omega)
  generalize writeFreeHeader memory base (pages * pageSize - poolHeaderSize) freeList = after at *
  have apartBlock : ∀ header, IsBlock regions blocksOf header →
      header + poolHeaderSize ≤ base ∨ base + poolHeaderSize ≤ header :=
    fun header block => inv.newApart apart some block
  have same : ∀ header, IsBlock regions blocksOf header → SameHeader memory after header :=
    fun header block => sameHeader_of_outside outside (apartBlock header block)
  have notBase : ∀ header, IsBlock regions blocksOf header → header ≠ base := by
    intro header block clash
    have far := apartBlock header block
    simp only [poolHeaderSize] at far
    omega
  have blocks : ∀ header, IsBlock (⟨base, pages⟩ :: regions)
      (update blocksOf base [base]) header ↔
        header = base ∨ IsBlock regions blocksOf header := by
    intro header
    constructor
    · intro block
      obtain ⟨region, known, member⟩ := block
      rcases mem_cons.mp known with new | known
      · subst region
        rw [update_self] at member
        exact .inl (mem_singleton.mp member)
      · rw [update_of_ne (otherBase region known)] at member
        exact .inr ⟨region, known, member⟩
    · intro block
      rcases block with here | ⟨region, known, member⟩
      · refine ⟨⟨base, pages⟩, mem_cons_self, ?_⟩
        rw [update_self, here]
        exact mem_singleton_self _
      · refine ⟨region, mem_cons_of_mem _ known, ?_⟩
        rw [update_of_ne (otherBase region known)]
        exact member
  have old := inv.frame after same
  refine ⟨?_, ?_, ?_, ⟨rfl, ?_⟩, ?_, ?_, ?_, ?_, old.bodyOnce⟩
  · intro region known
    rcases mem_cons.mp known with new | known
    · subst region
      rw [update_self]
      refine ⟨rfl, ?_⟩
      show base + extent after base = base + pages * pageSize
      rw [extent, sizeNow]
      simp only [poolHeaderSize, pageSize]
      omega
    · rw [update_of_ne (otherBase region known)]
      exact old.tiled region known
  · exact pairwise_cons.mpr ⟨apart, inv.disjoint⟩
  · intro region known
    rcases mem_cons.mp known with new | known
    · subst region
      exact ⟨positive, bound⟩
    · exact inv.bounded region known
  · show Linked _ _ (getField after base .nextFree) free
    rw [nextNow]
    exact old.chain
  · apply nodup_cons.mpr
    exact ⟨fun member => notBase base (inv.freeBlock base member).1 rfl, inv.freeOnce⟩
  · intro header member
    rcases mem_cons.mp member with here | member
    · rw [here]
      exact ⟨(blocks base).mpr (.inl rfl), magicNow⟩
    · have block := old.freeBlock header member
      exact ⟨(blocks header).mpr (.inr block.1), block.2⟩
  · intro header block used
    rcases (blocks header).mp block with here | block
    · exact absurd (here ▸ mem_cons_self) used
    · exact old.usedBlock header block (fun member => used (mem_cons_of_mem _ member))
  · intro body member
    obtain ⟨header, place, block, used, tagged⟩ := old.owned body member
    refine ⟨header, place, (blocks header).mpr (.inr block), ?_, tagged⟩
    intro inside
    rcases mem_cons.mp inside with here | inside
    · exact notBase header block here
    · exact used inside

theorem PoolInv.addRegion_size (inv : PoolInv pool blocksOf free outstanding) {first pages : Nat}
    (some : 0 < pages) (grown : Grown pool.mm after)
    (obtained : Obtained pool.mm after first pages) :
    getField (addRegion pool (first * pageSize) pages after).mm.memory (first * pageSize) .size =
        pages * pageSize - poolHeaderSize ∧
      ∀ header, IsBlock pool.regions blocksOf header →
        getField (addRegion pool (first * pageSize) pages after).mm.memory header .size =
          getField pool.mm.memory header .size := by
  have small := after.pfnDatabase.highestPfn_le
  have last := PfnDatabase.stateOf_lt (obtained (pages - 1) (by omega)).2
  have listBound := inv.heap.freeList_lt
  have size := regionSize_eq some (show pages ≤ 2 ^ 24 by omega)
  have written := writeFreeHeader_fields after.memory (first * pageSize)
    (pages * pageSize - poolHeaderSize) pool.freeList (by simp only [pageSize]; omega) (by omega)
  have memory : (addRegion pool (first * pageSize) pages after).mm.memory =
      writeFreeHeader after.memory (first * pageSize) (pages * pageSize - poolHeaderSize)
        pool.freeList := by
    rw [← size]
    rfl
  rw [memory]
  refine ⟨written.2.2.1, ?_⟩
  intro header block
  have apart := inv.heap.newApart
    (fun region known => (inv.held region known).apart obtained some) some block
  rw [(sameHeader_of_outside written.1 apart).getField, (inv.grow_sameHeader grown block).getField]

theorem PoolInv.addRegion (inv : PoolInv pool blocksOf free outstanding) {first pages : Nat}
    (positive : 0 < first) (some : 0 < pages) (grown : Grown pool.mm after)
    (obtained : Obtained pool.mm after first pages) :
    PoolInv (addRegion pool (first * pageSize) pages after)
      (update blocksOf (first * pageSize) [first * pageSize])
      (first * pageSize :: free) outstanding := by
  have small := after.pfnDatabase.highestPfn_le
  have last := PfnDatabase.stateOf_lt (obtained (pages - 1) (by omega)).2
  have apart : ∀ region ∈ pool.regions, RegionsDisjoint ⟨first * pageSize, pages⟩ region :=
    fun region known => (inv.held region known).apart obtained some
  have size := regionSize_eq some (show pages ≤ 2 ^ 24 by omega)
  refine ⟨?_, grown.hint, ?_⟩
  · show HeapInv (writeFreeHeader after.memory (first * pageSize)
      (subtract64 (pages * pageSize % 2 ^ 64) poolHeaderSize) pool.freeList) _ _ _ _ _
    rw [size]
    apply (inv.growMemory grown).addRegion apart
    · intro region known clash
      obtain ⟨_, _, _, otherSome, _⟩ := inv.held region known
      have far := apart region known
      simp only [RegionsDisjoint, PoolRegion.top, clash, pageSize] at far
      omega
    · exact some
    · simp only [pageSize]
      omega
    · simp only [pageSize]
      omega
  · intro region known
    rcases mem_cons.mp known with new | known
    · subst region
      exact ⟨first, rfl, positive, some, fun index inside => (obtained index inside).2⟩
    · have kept : RegionHeld after region := (inv.held region known).grown grown
      exact kept

end Growing

end MinNT.Ex
