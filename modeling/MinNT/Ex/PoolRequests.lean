import MinNT.Ex.PoolRun

namespace MinNT.Ex

open List MinNT.Mm Chain

/-- The pages of a region whose only block has `bytes` bytes. -/
def pagesFor (bytes : Nat) : Nat := (bytes + poolHeaderSize + (pageSize - 1)) / pageSize

/-- From the hint on there are free frames in a row for a region of that size. -/
def FreeRun (mm : MmState) (bytes : Nat) : Prop :=
  ∃ first, mm.hintPfn ≤ first ∧ ∀ index, index < pagesFor bytes →
    mm.pfnDatabase.Free (first + index)

/-- The free list, followed to its end. -/
def FreeBlocks (pool : PoolState) (free : List Nat) : Prop :=
  Linked (getField pool.mm.memory · .nextFree) NullPointer pool.freeList free ∧
    ∀ header ∈ free, ¬ NullPointer header

def OnFreeList (pool : PoolState) (header : Nat) : Prop :=
  ∃ free, FreeBlocks pool free ∧ header ∈ free

/-- A block of the free list is large enough. -/
def BlockFits (pool : PoolState) (bytes : Nat) : Prop :=
  ∃ header, OnFreeList pool header ∧ bytes ≤ getField pool.mm.memory header .size

/-- The call gives as many bytes as it was asked for, or `NULL` with the free pages
and the free list as they were. -/
def RequestHonoured (pool : PoolState) (numberOfBytes blockTag : Nat) : Prop :=
  ∃ body after, exAllocatePoolWithTag pool numberOfBytes blockTag = some (.ok (body, after)) ∧
    match body with
    | some body => numberOfBytes ≤ bodySize after.mm.memory body
    | none => after.mm.pfnDatabase.freeCount = pool.mm.pfnDatabase.freeCount ∧
        ∀ header, OnFreeList after header ↔ OnFreeList pool header

/-- The request does not wrap and there is a place for it, or there is neither a
place nor a page to look for one. -/
def CanHonour (pool : PoolState) (numberOfBytes : Nat) : Prop :=
  (numberOfBytes ≤ 2 ^ 64 - 16 ∧
      (BlockFits pool (roundToGranule numberOfBytes) ∨
        FreeRun pool.mm (roundToGranule numberOfBytes))) ∨
    (¬ BlockFits pool (roundToGranule numberOfBytes) ∧ NoFreePage pool.mm)

theorem pagesFor_pos (bytes : Nat) : 0 < pagesFor bytes := by
  simp only [pagesFor, poolHeaderSize, pageSize]
  omega

theorem pagesFor_le_iff {bytes pages : Nat} (some : 0 < pages) :
    pagesFor bytes ≤ pages ↔ bytes ≤ pages * pageSize - poolHeaderSize := by
  simp only [pagesFor, poolHeaderSize, pageSize]
  omega

theorem pagesFor_le_wanted {bytes : Nat} (small : pagesFor bytes ≤ 2 ^ 24) :
    pagesFor bytes ≤ pagesWanted bytes := by
  have exact : bytesToPages ((bytes + poolHeaderSize) % 2 ^ 64) = pagesFor bytes := by
    simp only [bytesToPages, toPfn, pagesFor, poolHeaderSize, pageSize] at small ⊢
    omega
  rw [pagesWanted, exact]
  exact Nat.le_max_left _ _

theorem not_freeRun {mm : MmState} {bytes : Nat} (none : NoFreePage mm) : ¬ FreeRun mm bytes := by
  intro ⟨first, above, free⟩
  exact none first above (free 0 (pagesFor_pos bytes))

theorem Expansion.freeRun_iff {before after : MmState} {bytes first pages : Nat}
    (expansion : Expansion before after bytes first pages) :
    FreeRun before bytes ↔ pagesFor bytes ≤ pages ∨ FreeRun after bytes := by
  have hint := expansion.grabbed.hint
  have above := expansion.above
  constructor
  · intro ⟨start, startAbove, free⟩
    by_cases enough : pagesFor bytes ≤ pages
    · exact .inl enough
    right
    have some := pagesFor_pos bytes
    have small := before.pfnDatabase.highestPfn_le
    have startFree : before.pfnDatabase.Free start := free 0 some
    have last := (free (pagesFor bytes - 1) (by omega)).lt
    have notBefore : first ≤ start := by
      by_contra below
      exact expansion.earlier start startAbove (by omega) startFree
    -- A run that begins among the frames taken would have been taken with them.
    have behind : first + pages ≤ start := by
      by_contra meets
      rcases expansion.stopped with all | stopped
      · have wanted : pagesFor bytes ≤ pagesWanted bytes := pagesFor_le_wanted (by omega)
        omega
      · have next := free (first + pages - start) (by omega)
        rw [Nat.add_sub_cancel' (by omega)] at next
        exact stopped next
    refine ⟨start, ?_, ?_⟩
    · by_contra low
      exact expansion.grabbed.passed start behind (by omega) startFree
    · intro index inside
      exact (expansion.grabbed.free _).mpr ⟨free index inside, by omega⟩
  · intro found
    rcases found with enough | ⟨start, startAbove, free⟩
    · refine ⟨first, above, ?_⟩
      intro index inside
      exact expansion.grabbed.taken _ (by omega) (by omega)
    · refine ⟨start, by omega, ?_⟩
      intro index inside
      exact ((expansion.grabbed.free _).mp (free index inside)).1

/-- What a call leaves alone among the page frames: those in use stay in use, and
new regions lie on frames that were free. -/
structure PoolGrown (before after : PoolState) : Prop where
  hint : 0 < after.mm.hintPfn
  active : ∀ pfn, before.mm.pfnDatabase.stateOf pfn = some .pfnActive →
    after.mm.pfnDatabase.stateOf pfn = some .pfnActive
  free : ∀ pfn, after.mm.pfnDatabase.Free pfn → before.mm.pfnDatabase.Free pfn
  regions : ∀ region ∈ after.regions, region ∈ before.regions ∨
    ∃ first, region.base = first * pageSize ∧
      ∀ index, index < region.pages → before.mm.pfnDatabase.Free (first + index)

theorem PoolGrown.of_same {before after : PoolState} (hint : 0 < before.mm.hintPfn)
    (same : after.regions = before.regions ∧ after.mm.pfnDatabase = before.mm.pfnDatabase ∧
      after.mm.hintPfn = before.mm.hintPfn) : PoolGrown before after := by
  obtain ⟨regions, database, sameHint⟩ := same
  refine ⟨by omega, ?_, ?_, ?_⟩
  · intro pfn active
    rwa [database]
  · intro pfn free
    rwa [database] at free
  · intro region known
    rw [regions] at known
    exact .inl known

theorem PoolGrown.trans {first second third : PoolState} (left : PoolGrown first second)
    (right : PoolGrown second third) : PoolGrown first third where
  hint := right.hint
  active := fun pfn active => right.active pfn (left.active pfn active)
  free := fun pfn free => left.free pfn (right.free pfn free)
  regions := by
    intro region known
    rcases right.regions region known with old | ⟨base, place, free⟩
    · exact left.regions region old
    · exact .inr ⟨base, place, fun index inside => left.free _ (free index inside)⟩

theorem Expansion.poolGrown {pool : PoolState} {after : MmState} {bytes first pages : Nat}
    (expansion : Expansion pool.mm after bytes first pages) :
    PoolGrown pool (addRegion pool (first * pageSize) pages after) := by
  refine ⟨expansion.grown.hint, expansion.grown.active, expansion.grown.free, ?_⟩
  intro region known
  rcases mem_cons.mp known with rfl | old
  · exact .inr ⟨first, rfl, fun index inside => (expansion.obtained index inside).1⟩
  · exact .inl old

section Requests

variable {pool : PoolState} {blocksOf : Nat → List Nat} {free : List Nat}
  {outstanding : List (Nat × Nat)}

theorem searchPool_none {memory : ByteMemory} (bytes : Nat) (cells : List Nat) :
    ∀ (fuel : Nat) (prev : Option Nat) (cur : Nat),
      Linked (getField memory · .nextFree) NullPointer cur cells →
      (∀ cell ∈ cells, cell ≠ 0 ∧ getField memory cell .magic = poolMagicFree) →
      searchPool memory bytes fuel prev cur = some (.ok none) →
      ∀ cell ∈ cells, getField memory cell .size < bytes := by
  induction cells with
  | nil =>
    intro _ _ _ _ _ _ cell member
    cases member
  | cons first cells ih =>
    intro fuel prev cur linked good missing
    obtain ⟨rfl, rest⟩ := linked
    obtain ⟨nonzero, freeMagic⟩ := good cur mem_cons_self
    cases fuel with
    | zero => cases missing
    | succ fuel =>
      rw [searchPool, if_neg nonzero, if_neg (not_not.mpr freeMagic)] at missing
      by_cases small : getField memory cur .size < bytes
      · rw [if_pos small] at missing
        have later := ih fuel (some cur) _ rest
          (fun other member => good other (mem_cons_of_mem _ member)) missing
        intro cell member
        rcases mem_cons.mp member with here | member
        · rw [here]
          exact small
        · exact later cell member
      · rw [if_neg small] at missing
        cases missing

/-- The retry loop finds a block exactly when one of the free list fits or a run of
free frames is long enough. When it gives up after an expansion, pages are gone. -/
theorem allocateLoop_granted (bytes blockTag : Nat) (fuel : Nat) :
    ∀ (pool : PoolState) (blocksOf : Nat → List Nat) (free : List Nat),
      PoolInv pool blocksOf free outstanding → pool.mm.pfnDatabase.freeCount < fuel →
      ∃ body after, allocateLoop bytes blockTag fuel pool = some (.ok (body, after)) ∧
        (body ≠ none ↔
          (∃ header ∈ free, bytes ≤ getField pool.mm.memory header .size) ∨
            FreeRun pool.mm bytes) ∧
        (body = none → (after = pool ∧ NoFreePage pool.mm) ∨
          (after.mm.pfnDatabase.freeCount < pool.mm.pfnDatabase.freeCount ∧
            ¬ NoFreePage pool.mm)) ∧
        PoolGrown pool after := by
  induction fuel with
  | zero =>
    intro pool blocksOf free _ enough
    omega
  | succ fuel ih =>
    intro pool blocksOf free inv enough
    have good : ∀ cell ∈ free, cell ≠ 0 ∧ getField pool.mm.memory cell .magic = poolMagicFree := by
      intro cell member
      have block := inv.heap.freeBlock cell member
      have bounds := inv.heap.blockBounds block.1
      exact ⟨by omega, block.2⟩
    rcases inv.heap.search bytes with missing | ⟨front, cur, back, shape, fits, found⟩
    · have tooSmall := searchPool_none bytes free _ _ _ inv.heap.chain good missing
      rcases expExpandPool_expansion pool bytes inv.hint with
        ⟨noPage, failed⟩ | ⟨first, pages, after, expansion, done⟩
      · refine ⟨none, pool, ?_, ?_, fun _ => .inl ⟨rfl, noPage⟩,
          PoolGrown.of_same inv.hint ⟨rfl, rfl, rfl⟩⟩
        · rw [allocateLoop, missing]
          dsimp only
          rw [failed]
          rfl
        · constructor
          · intro absent
            exact absurd rfl absent
          · intro granted
            rcases granted with ⟨header, member, fits⟩ | run
            · exact absurd (tooSmall header member) (by omega)
            · exact absurd run (not_freeRun noPage)
      · have grownInv := inv.addRegion expansion.positive expansion.some expansion.grown
          expansion.obtained
        obtain ⟨newSize, oldSize⟩ := inv.addRegion_size expansion.some expansion.grown
          expansion.obtained
        have fewer := expansion.fewer
        obtain ⟨body, last, result, granted, refused, later⟩ := ih _ _ _ grownInv (by
          show after.pfnDatabase.freeCount < fuel
          omega)
        refine ⟨body, last, ?_, ?_, ?_, expansion.poolGrown.trans later⟩
        · rw [allocateLoop, missing]
          dsimp only
          rw [done]
          exact result
        · rw [granted]
          have frames : FreeRun (addRegion pool (first * pageSize) pages after).mm bytes ↔
              FreeRun after bytes := Iff.rfl
          rw [frames, expansion.freeRun_iff, pagesFor_le_iff expansion.some]
          constructor
          · rintro (⟨header, member, fits⟩ | run)
            · rcases mem_cons.mp member with here | member
              · rw [here, newSize] at fits
                exact .inr (.inl fits)
              · rw [oldSize header (inv.heap.freeBlock header member).1] at fits
                exact absurd (tooSmall header member) (by omega)
            · exact .inr (.inr run)
          · rintro (⟨header, member, fits⟩ | fits | run)
            · exact absurd (tooSmall header member) (by omega)
            · refine .inl ⟨first * pageSize, mem_cons_self, ?_⟩
              rw [newSize]
              exact fits
            · exact .inr run
        · intro absent
          have taken : ¬ NoFreePage pool.mm := by
            intro noPage
            have some := expansion.some
            exact noPage first expansion.above
              (expansion.grabbed.taken first (Nat.le_refl _) (by omega))
          refine .inr ⟨?_, taken⟩
          have count : (addRegion pool (first * pageSize) pages after).mm.pfnDatabase.freeCount =
              after.pfnDatabase.freeCount := rfl
          rcases refused absent with ⟨same, _⟩ | ⟨less, _⟩
          · rw [same]
            omega
          · omega
    · refine ⟨some ((cur + poolHeaderSize) % 2 ^ 64),
        takeBlock pool bytes blockTag front.getLast? cur, ?_, ?_, (fun absent => by cases absent),
        PoolGrown.of_same inv.hint (takeBlock_frame _ _ _ _ _)⟩
      · rw [allocateLoop, found]
      · constructor
        · intro _
          exact .inl ⟨cur, by rw [shape]; simp, fits⟩
        · intro _ absent
          cases absent

section Inv

variable (inv : PoolInv pool blocksOf free outstanding)
include inv

theorem PoolInv.freeBlocks : FreeBlocks pool free := by
  refine ⟨inv.heap.chain, ?_⟩
  intro header member null
  have bounds := inv.heap.blockBounds (inv.heap.freeBlock header member).1
  have zero : header = 0 := null
  omega

theorem PoolInv.onFreeList_iff (header : Nat) : OnFreeList pool header ↔ header ∈ free := by
  have own := inv.freeBlocks
  constructor
  · intro ⟨cells, blocks, member⟩
    rwa [own.1.unique blocks.1 own.2 blocks.2]
  · intro member
    exact ⟨free, own, member⟩

theorem PoolInv.blockFits_iff (bytes : Nat) :
    BlockFits pool bytes ↔ ∃ header ∈ free, bytes ≤ getField pool.mm.memory header .size := by
  unfold BlockFits
  simp only [inv.onFreeList_iff]

end Inv

theorem bodySize_zeroBody {header bytes : Nat} :
    bodySize (zeroBody pool (header + poolHeaderSize) bytes).mm.memory (header + poolHeaderSize) =
      getField pool.mm.memory header .size := by
  have address : subtract64 (header + poolHeaderSize) poolHeaderSize = header := by
    rw [subtract64_of_le (by omega)]
    omega
  have same : SameHeader pool.mm.memory (zeroBody pool (header + poolHeaderSize) bytes).mm.memory
      header := by
    intro place lower upper
    exact ByteMemory.write_outside _ _ _ _ (.inl upper)
  rw [bodySize, address, same.getField]

theorem le_roundToGranule {numberOfBytes : Nat} (small : numberOfBytes ≤ 2 ^ 64 - 16) :
    numberOfBytes ≤ roundToGranule numberOfBytes := by
  simp only [roundToGranule, poolGranularity]
  omega

/-- An allocation ends, with a block exactly if there is room. -/
theorem exAllocatePoolWithTag_cases (inv : PoolInv pool blocksOf free outstanding)
    (numberOfBytes blockTag : Nat) (some : numberOfBytes ≠ 0) (small : blockTag < 2 ^ 32) :
    ∃ body after blocksOf' free',
      exAllocatePoolWithTag pool numberOfBytes blockTag = Option.some (.ok (body, after)) ∧
      PoolInv after blocksOf' free' (holdBody outstanding blockTag body) ∧
      PoolGrown pool after ∧
      (body ≠ none ↔ BlockFits pool (roundToGranule numberOfBytes) ∨
        FreeRun pool.mm (roundToGranule numberOfBytes)) ∧
      (∀ address, body = Option.some address →
        roundToGranule numberOfBytes ≤ bodySize after.mm.memory address ∧
          bodySize after.mm.memory address < 2 ^ 40) ∧
      (body = none → (after = pool ∧ NoFreePage pool.mm) ∨
        (after.mm.pfnDatabase.freeCount < pool.mm.pfnDatabase.freeCount ∧
          ¬ NoFreePage pool.mm)) := by
  have count := pool.mm.pfnDatabase.freeCount_le
  obtain ⟨body, after, result, granted, refused, grown⟩ :=
    allocateLoop_granted (roundToGranule numberOfBytes) blockTag
      (pool.mm.pfnDatabase.highestPfn + 1) pool blocksOf free inv (by omega)
  obtain ⟨body', after', blocksOf', free', result', kept, room⟩ :=
    allocateLoop_inv (roundToGranule numberOfBytes) blockTag small
      (pool.mm.pfnDatabase.highestPfn + 1) pool blocksOf free inv (by omega)
  rw [result] at result'
  cases result'
  rw [← inv.blockFits_iff] at granted
  unfold exAllocatePoolWithTag
  rw [if_neg some]
  dsimp only
  rw [result]
  cases body with
  | none =>
    exact ⟨none, after, blocksOf', free', rfl, kept, grown, granted,
      (fun address absent => by cases absent), refused⟩
  | some address =>
    obtain ⟨header, rfl, fits⟩ := room address rfl
    have zeroed := PoolInv.zeroBody kept rfl fits
    refine ⟨_, _, blocksOf', free', rfl, zeroed,
      grown.trans (PoolGrown.of_same kept.hint (withMemory_frame _ _)), granted, ?_,
      (fun absent => by cases absent)⟩
    intro address here
    cases here
    obtain ⟨other, place, block, _, top⟩ := zeroed.bodyBlock mem_cons_self
    have bounds := zeroed.heap.blockBounds block
    rw [bodySize_zeroBody] at top ⊢
    dsimp only at place top
    exact ⟨fits, by omega⟩

/-- A request is honoured exactly when it does not wrap and there is a place for it,
or when there is no page to take in vain. -/
theorem PoolInv.requestHonoured_iff (inv : PoolInv pool blocksOf free outstanding)
    (numberOfBytes blockTag : Nat) (some : numberOfBytes ≠ 0) (wide : numberOfBytes < 2 ^ 64)
    (small : blockTag < 2 ^ 32) :
    RequestHonoured pool numberOfBytes blockTag ↔ CanHonour pool numberOfBytes := by
  obtain ⟨body, after, _, _, result, _, _, granted, size, refused⟩ :=
    exAllocatePoolWithTag_cases inv numberOfBytes blockTag some small
  unfold RequestHonoured CanHonour
  rw [result]
  cases body with
  | none =>
    have absent : ¬ (BlockFits pool (roundToGranule numberOfBytes) ∨
        FreeRun pool.mm (roundToGranule numberOfBytes)) := by
      intro place
      exact granted.mpr place rfl
    constructor
    · rintro ⟨_, _, same, unchanged⟩
      cases same
      dsimp only at unchanged
      rcases refused rfl with ⟨_, noPage⟩ | ⟨fewer, _⟩
      · exact .inr ⟨fun fits => absent (.inl fits), noPage⟩
      · omega
    · rintro (⟨_, place⟩ | ⟨_, noPage⟩)
      · exact absurd place absent
      · rcases refused rfl with ⟨same, _⟩ | ⟨_, page⟩
        · exact ⟨none, after, rfl, by rw [same], fun header => by rw [same]⟩
        · exact absurd noPage page
  | some address =>
    have place := granted.mp (by simp)
    obtain ⟨enough, bound⟩ := size address rfl
    constructor
    · rintro ⟨_, _, same, honoured⟩
      cases same
      dsimp only at honoured
      left
      exact ⟨by omega, place⟩
    · rintro (⟨noWrap, _⟩ | ⟨noFit, noPage⟩)
      · have rounded := le_roundToGranule noWrap
        exact ⟨_, after, rfl, by dsimp only; omega⟩
      · rcases place with fits | run
        · exact absurd fits noFit
        · exact absurd run (not_freeRun noPage)

end Requests

end MinNT.Ex
