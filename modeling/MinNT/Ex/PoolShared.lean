import MinNT.Ex.PoolRequests

namespace MinNT.Ex

open MinNT.Mm

/-- The pool at work, and beside it the other users of the page allocator: the
bodies handed out, and the pages that are held outside the pool. -/
inductive SharedRun (boot : MmState) (held : List Nat) :
    PoolState → List (Nat × Nat) → List Nat → Prop
  | init {status : NtStatus} {pool : PoolState}
      (done : exInitializePoolManager boot = .ok (status, pool)) : SharedRun boot held pool [] held
  | allocate {pool after : PoolState} {outstanding : List (Nat × Nat)} {pages : List Nat}
      {body : Option Nat} (run : SharedRun boot held pool outstanding pages)
      (numberOfBytes : UInt64) (blockTag : UInt32)
      (done : exAllocatePoolWithTag pool numberOfBytes.toNat blockTag.toNat =
        some (.ok (body, after))) :
      SharedRun boot held after (holdBody outstanding blockTag.toNat body) pages
  | free {pool after : PoolState} {outstanding : List (Nat × Nat)} {pages : List Nat}
      {body blockTag given : Nat} (run : SharedRun boot held pool outstanding pages)
      (known : (body, blockTag) ∈ outstanding) (own : given = blockTag ∨ given = 0)
      (done : exFreePoolWithTag pool body given = .ok after) :
      SharedRun boot held after (outstanding.filter (fun other => other.1 ≠ body)) pages
  | use {pool : PoolState} {outstanding : List (Nat × Nat)} {pages : List Nat}
      {body blockTag : Nat} {memory : ByteMemory} (run : SharedRun boot held pool outstanding pages)
      (known : (body, blockTag) ∈ outstanding)
      (inside : ByteMemory.SameOutside pool.mm.memory memory body
        (body + bodySize pool.mm.memory body)) :
      SharedRun boot held (pool.withMemory memory) outstanding pages
  | takePage {pool : PoolState} {outstanding : List (Nat × Nat)} {pages : List Nat}
      (run : SharedRun boot held pool outstanding pages) :
      SharedRun boot held { pool with mm := (mmAllocatePhysicalPage pool.mm).2 } outstanding
        (holdAfter pages (.allocated (mmAllocatePhysicalPage pool.mm).1))
  | givePage {pool : PoolState} {after : MmState} {outstanding : List (Nat × Nat)}
      {pages : List Nat} {pa : Nat} (run : SharedRun boot held pool outstanding pages)
      (mine : pa ∈ pages) (done : mmFreePhysicalPage pool.mm pa = .ok after) :
      SharedRun boot held { pool with mm := after } outstanding (pages.erase pa)
  | usePage {pool : PoolState} {outstanding : List (Nat × Nat)} {pages : List Nat} {pa : Nat}
      {memory : ByteMemory} (run : SharedRun boot held pool outstanding pages) (mine : pa ∈ pages)
      (inside : ByteMemory.SameOutside pool.mm.memory memory pa (pa + pageSize)) :
      SharedRun boot held (pool.withMemory memory) outstanding pages

/-- A page in use that belongs to no region of the pool. -/
def OtherPage (pool : PoolState) (pa : Nat) : Prop :=
  ∃ pfn, pa = pfn * pageSize ∧ 0 < pfn ∧ pool.mm.pfnDatabase.stateOf pfn = some .pfnActive ∧
    ∀ region ∈ pool.regions, ¬ (region.base ≤ pa ∧ pa < region.top)

/-- The pool's invariant with the pages of the other users. -/
structure SharedInv (pool : PoolState) (blocksOf : Nat → List Nat) (free : List Nat)
    (outstanding : List (Nat × Nat)) (pages : List Nat) : Prop where
  base : PoolInv pool blocksOf free outstanding
  once : pages.Nodup
  other : ∀ pa ∈ pages, OtherPage pool pa

theorem OtherPage.grown {before after : PoolState} {pa : Nat} (other : OtherPage before pa)
    (grown : PoolGrown before after) : OtherPage after pa := by
  obtain ⟨pfn, rfl, positive, active, outside⟩ := other
  refine ⟨pfn, rfl, positive, grown.active pfn active, ?_⟩
  intro region known
  rcases grown.regions region known with old | ⟨first, place, free⟩
  · exact outside region old
  · intro ⟨lower, upper⟩
    simp only [PoolRegion.top, place, pageSize] at lower upper
    have wasFree := free (pfn - first) (by omega)
    rw [Nat.add_sub_cancel' (by omega), PfnDatabase.Free, active] at wasFree
    cases wasFree

variable {pool : PoolState} {outstanding : List (Nat × Nat)} {pages : List Nat}

variable {blocksOf : Nat → List Nat}

theorem SharedInv.usePage {free : List Nat} (inv : SharedInv pool blocksOf free outstanding pages)
    {pa : Nat} (mine : pa ∈ pages) {memory : ByteMemory}
    (inside : ByteMemory.SameOutside pool.mm.memory memory pa (pa + pageSize)) :
    SharedInv (pool.withMemory memory) blocksOf free outstanding pages := by
  obtain ⟨pfn, rfl, _, _, outside⟩ := inv.other pa mine
  refine ⟨inv.base.withMemory (inv.base.heap.frame memory ?_), inv.once, inv.other⟩
  intro header block
  obtain ⟨region, known, member⟩ := block
  have within := (inv.base.heap.tiled region known).inside header member
  obtain ⟨first, place, _, _, _⟩ := inv.base.held region known
  have apart := outside region known
  apply sameHeader_of_outside inside
  simp only [PoolRegion.top, place, pageSize, extent, poolHeaderSize] at within apart ⊢
  omega

/-- A page that another user of the allocator takes. -/
theorem SharedInv.takePage {free : List Nat}
    (inv : SharedInv pool blocksOf free outstanding pages) :
    SharedInv { pool with mm := (mmAllocatePhysicalPage pool.mm).2 } blocksOf free outstanding
      (holdAfter pages (.allocated (mmAllocatePhysicalPage pool.mm).1)) := by
  rcases mmAllocatePhysicalPage_cases pool.mm inv.base.hint with
    ⟨result, _⟩ | ⟨pfn, lower, isFree, _, result⟩
  · rw [result]
    exact inv
  change mmAllocatePhysicalPage pool.mm = (pfn * pageSize, pageTaken pool.mm pfn) at result
  obtain ⟨grown, active, _⟩ := grown_pageTaken isFree
  have positive : 0 < pfn := Nat.lt_of_lt_of_le inv.base.hint lower
  have nonzero : pfn * pageSize ≠ 0 := by
    simp only [pageSize]
    omega
  have poolGrown : PoolGrown pool { pool with mm := pageTaken pool.mm pfn } :=
    ⟨grown.hint, grown.active, grown.free, fun _ known => .inl known⟩
  have notHeld : pfn * pageSize ∉ pages := by
    intro member
    obtain ⟨other, place, _, taken, _⟩ := inv.other _ member
    have same : pfn = other := Nat.eq_of_mul_eq_mul_right (by decide) place
    rw [← same, show pool.mm.pfnDatabase.stateOf pfn = some .pfnFree from isFree] at taken
    cases taken
  rw [result]
  simp only [holdAfter, nonzero, ↓reduceIte]
  refine ⟨⟨inv.base.growMemory grown, grown.hint, ?_⟩, List.nodup_cons.mpr ⟨notHeld, inv.once⟩, ?_⟩
  · intro region known
    exact (inv.base.held region known).grown grown
  · intro pa member
    rcases List.mem_cons.mp member with rfl | member
    · refine ⟨pfn, rfl, positive, active, ?_⟩
      rintro region known ⟨low, high⟩
      have taken := (inv.base.held region known).notFree low high
      rw [toPfn_address] at taken
      exact taken isFree
    · exact (inv.other pa member).grown poolGrown

theorem SharedInv.givePage {free : List Nat} {after : MmState}
    (inv : SharedInv pool blocksOf free outstanding pages) {pa : Nat} (mine : pa ∈ pages)
    (done : mmFreePhysicalPage pool.mm pa = .ok after) :
    SharedInv { pool with mm := after } blocksOf free outstanding (pages.erase pa) := by
  obtain ⟨pfn, rfl, positive, active, outside⟩ := inv.other pa mine
  rw [mmFreePhysicalPage_active _ _ (by rw [toPfn_address]; exact active), toPfn_address] at done
  cases done
  have stays : ∀ other, other ≠ pfn → pool.mm.pfnDatabase.stateOf other = some .pfnActive →
      (pool.mm.pfnDatabase.set pfn ⟨.pfnFree, 0⟩).stateOf other = some .pfnActive := by
    intro other different taken
    rw [PfnDatabase.stateOf_set_other _ _ _ _ different]
    exact taken
  refine ⟨⟨inv.base.heap, ?_, ?_⟩, inv.once.erase _, ?_⟩
  · have hint := inv.base.hint
    dsimp only
    omega
  · intro region known
    obtain ⟨first, place, firstPositive, some, taken⟩ := inv.base.held region known
    refine ⟨first, place, firstPositive, some, ?_⟩
    intro index inside
    apply stays _ _ (taken index inside)
    intro same
    apply outside region known
    simp only [PoolRegion.top, place, pageSize]
    omega
  · intro other member
    obtain ⟨different, member⟩ := (inv.once.mem_erase_iff).mp member
    obtain ⟨otherPfn, rfl, otherPositive, taken, otherOutside⟩ := inv.other other member
    refine ⟨otherPfn, rfl, otherPositive, stays _ ?_ taken, otherOutside⟩
    intro same
    exact different (by rw [same])

theorem exFreePoolWithTag_frame {pool after : PoolState} {body given : Nat}
    (done : exFreePoolWithTag pool body given = .ok after) :
    after.regions = pool.regions ∧ after.mm.pfnDatabase = pool.mm.pfnDatabase ∧
      after.mm.hintPfn = pool.mm.hintPfn := by
  unfold exFreePoolWithTag at done
  dsimp only at done
  split at done
  · cases done
    exact ⟨rfl, rfl, rfl⟩
  · split at done
    · cases done
    · split at done
      · cases done
      · cases done
        exact ⟨rfl, rfl, rfl⟩

theorem sharedInv_init {start mm : MmState} {held : List Nat} (inv : PageInv start mm held)
    {status : NtStatus} (done : exInitializePoolManager mm = .ok (status, pool)) :
    ∃ blocksOf free, SharedInv pool blocksOf free [] held := by
  have hint : 0 < mm.hintPfn := Nat.lt_of_lt_of_le (by decide) inv.hintLower
  obtain ⟨_, _, blocksOf, free, result, base⟩ := exInitializePoolManager_inv mm hint
  rw [done] at result
  cases result
  refine ⟨blocksOf, free, base, inv.heldOnce, ?_⟩
  intro pa member
  obtain ⟨pfn, place, low, _, active⟩ := inv.heldPage pa member
  have alone : OtherPage ⟨mm, 0, []⟩ pa := by
    refine ⟨pfn, place, Nat.lt_of_lt_of_le (by decide) low, active, ?_⟩
    intro region known
    cases known
  rcases expExpandPool_expansion ⟨mm, 0, []⟩ (poolExpandPages * pageSize) hint with
    ⟨_, failed⟩ | ⟨first, pages, after, expansion, expanded⟩
  · rw [exInitializePoolManager, failed] at done
    cases done
    exact alone
  · rw [exInitializePoolManager, expanded] at done
    cases done
    exact alone.grown expansion.poolGrown

/-- Every shared run keeps the pool and the pages. -/
theorem sharedInv_run {start mm : MmState} {held : List Nat} (boot : PageInv start mm held)
    (run : SharedRun mm held pool outstanding pages) :
    ∃ blocksOf free, SharedInv pool blocksOf free outstanding pages := by
  induction run with
  | init done => exact sharedInv_init boot done
  | @allocate pool after outstanding pages body run numberOfBytes blockTag done ih =>
    obtain ⟨blocksOf, free, inv⟩ := ih
    by_cases some : numberOfBytes.toNat = 0
    · unfold exAllocatePoolWithTag at done
      rw [if_pos some] at done
      cases done
      exact ⟨blocksOf, free, inv⟩
    · obtain ⟨_, _, blocksOf', free', result, kept, grown, _⟩ :=
        exAllocatePoolWithTag_cases inv.base numberOfBytes.toNat blockTag.toNat some
          blockTag.toNat_lt
      rw [result] at done
      cases done
      exact ⟨blocksOf', free', kept, inv.once, fun pa member => (inv.other pa member).grown grown⟩
  | free run known own done ih =>
    obtain ⟨blocksOf, free, inv⟩ := ih
    obtain ⟨_, free', result, kept⟩ := exFreePoolWithTag_inv inv.base known own
    have same := exFreePoolWithTag_frame result
    rw [result] at done
    cases done
    exact ⟨blocksOf, free', kept, inv.once, fun pa member =>
      (inv.other pa member).grown (PoolGrown.of_same inv.base.hint same)⟩
  | use run known inside ih =>
    obtain ⟨blocksOf, free, inv⟩ := ih
    obtain ⟨header, place, block, _, top⟩ := inv.base.bodyBlock known
    refine ⟨blocksOf, free, inv.base.withMemory (inv.base.heap.writeBody block ?_), inv.once,
      inv.other⟩
    rw [top]
    dsimp only at place ⊢
    rw [← place]
    exact inside
  | takePage run ih =>
    obtain ⟨blocksOf, free, inv⟩ := ih
    exact ⟨blocksOf, free, inv.takePage⟩
  | givePage run mine done ih =>
    obtain ⟨blocksOf, free, inv⟩ := ih
    exact ⟨blocksOf, free, inv.givePage mine done⟩
  | usePage run mine inside ih =>
    obtain ⟨blocksOf, free, inv⟩ := ih
    exact ⟨blocksOf, free, inv.usePage mine inside⟩

/-- In every history of the pool and of the other users of the page allocator, a
request is honoured exactly when it does not wrap and there is a place for it, or
when there is neither a place nor a free page. -/
theorem exAllocatePoolWithTag_honoured_iff (start mm : MmState) (history : List PageEvent)
    (pool : PoolState) (outstanding : List (Nat × Nat)) (pages : List Nat) (fresh : Fresh start)
    (boot : PageRun start mm history)
    (run : SharedRun mm (heldPages history) pool outstanding pages)
    (numberOfBytes : UInt64) (blockTag : UInt32) (some : numberOfBytes.toNat ≠ 0) :
    RequestHonoured pool numberOfBytes.toNat blockTag.toNat ↔
      CanHonour pool numberOfBytes.toNat := by
  obtain ⟨_, _, inv⟩ := sharedInv_run (pageInv_run fresh boot) run
  exact inv.base.requestHonoured_iff _ _ some numberOfBytes.toNat_lt blockTag.toNat_lt

/-- The size of the body that a first request gets on a machine. -/
def firstSize (mm : MmState) (numberOfBytes : Nat) : Option Nat :=
  match exInitializePoolManager mm with
  | .error _ => none
  | .ok (_, pool) =>
      match exAllocatePoolWithTag pool numberOfBytes 7 with
      | some (.ok (some body, after)) => some (bodySize after.mm.memory body)
      | _ => none

theorem firstSize_some {mm : MmState} {numberOfBytes size : Nat}
    (evaluated : firstSize mm numberOfBytes = some size) :
    ∃ status pool body after, exInitializePoolManager mm = .ok (status, pool) ∧
      exAllocatePoolWithTag pool numberOfBytes 7 = some (.ok (some body, after)) ∧
      bodySize after.mm.memory body = size := by
  unfold firstSize at evaluated
  split at evaluated
  · cases evaluated
  · rename_i status pool initialised
    split at evaluated
    · rename_i body after allocated
      exact ⟨status, pool, body, after, initialised, allocated, Option.some.inj evaluated⟩
    · cases evaluated

/-- Sixteen bytes from the one page of a machine. -/
theorem sixteenBytes_honoured : ∃ pool, SharedRun onePageMm [] pool [] [] ∧
    RequestHonoured pool 16 7 := by
  have fresh : Fresh onePageMm := ⟨by decide, by decide +kernel⟩
  have evaluated : firstSize onePageMm 16 = some 16 := by decide +kernel
  obtain ⟨status, pool, body, after, initialised, allocated, _⟩ := firstSize_some evaluated
  have run : SharedRun onePageMm (heldPages []) pool [] [] := SharedRun.init initialised
  obtain ⟨_, _, inv⟩ := sharedInv_run (pageInv_run fresh PageRun.nil) run
  obtain ⟨_, _, _, _, result, _, _, granted, _⟩ :=
    exAllocatePoolWithTag_cases inv.base 16 7 (by decide) (by decide)
  rw [allocated] at result
  cases result
  refine ⟨pool, run, ?_⟩
  exact (exAllocatePoolWithTag_honoured_iff onePageMm onePageMm [] pool [] [] fresh PageRun.nil run
    16 7 (by decide)).mpr (.inl ⟨by decide, granted.mp (by simp)⟩)

/-- A request of `2 ^ 64 - 1` bytes gets an empty body. -/
theorem largestRequest_notHonoured :
    ¬ ∀ (start mm : MmState) (history : List PageEvent) (pool : PoolState)
      (outstanding : List (Nat × Nat)) (pages : List Nat), Fresh start →
      PageRun start mm history → SharedRun mm (heldPages history) pool outstanding pages →
      ∀ (numberOfBytes : UInt64) (blockTag : UInt32), numberOfBytes.toNat ≠ 0 →
        RequestHonoured pool numberOfBytes.toNat blockTag.toNat := by
  intro honoured
  have fresh : Fresh onePageMm := ⟨by decide, by decide +kernel⟩
  have evaluated : firstSize onePageMm (2 ^ 64 - 1) = some 0 := by decide +kernel
  obtain ⟨status, pool, body, after, initialised, allocated, empty⟩ := firstSize_some evaluated
  obtain ⟨_, _, result, enough⟩ := honoured onePageMm onePageMm [] pool [] [] fresh PageRun.nil
    (SharedRun.init initialised) 0xFFFFFFFFFFFFFFFF 7 (by decide)
  have same : exAllocatePoolWithTag pool (0xFFFFFFFFFFFFFFFF : UInt64).toNat
      (7 : UInt32).toNat = some (.ok (some body, after)) := allocated
  rw [same] at result
  cases result
  dsimp only at enough
  rw [empty] at enough
  exact absurd enough (by decide)

/-- A round of the loop that goes back to `retry`: a search in vain and a growth of the pool. -/
structure Retry (bytes : Nat) (before after : PoolState) : Prop where
  missing : searchPool before.mm.memory bytes pointerSteps none before.freeList = some (.ok none)
  grown : ∃ status, expExpandPool before bytes = .ok (status, after) ∧ ntSuccess status = true

/-- The pools that the loop goes through, with the number of the rounds before them. -/
inductive Retries (bytes : Nat) (pool : PoolState) : Nat → PoolState → Prop
  | start : Retries bytes pool 0 pool
  | next {count : Nat} {before after : PoolState} (run : Retries bytes pool count before)
      (retry : Retry bytes before after) : Retries bytes pool (count + 1) after

/-- The growth has taken one page at least: pages that were free are in use, as a region of the
pool. -/
def TookPages (before after : PoolState) : Prop :=
  ∃ first pages, 0 < pages ∧ after.regions = ⟨first * pageSize, pages⟩ :: before.regions ∧
    Obtained before.mm after.mm first pages ∧
      after.mm.pfnDatabase.freeCount < before.mm.pfnDatabase.freeCount

section Retries

variable {pool before after : PoolState} {blocksOf : Nat → List Nat} {free : List Nat}
  {outstanding : List (Nat × Nat)} {bytes blockTag count : Nat}

theorem Retry.tookPages (retry : Retry bytes before after)
    (inv : PoolInv before blocksOf free outstanding) :
    TookPages before after ∧ ∃ blocksOf free, PoolInv after blocksOf free outstanding := by
  obtain ⟨status, done, success⟩ := retry.grown
  rcases expExpandPool_expansion before bytes inv.hint with
    ⟨_, failed⟩ | ⟨first, pages, mm, expansion, expanded⟩
  · rw [failed] at done
    cases done
    exact absurd success (by decide)
  · rw [expanded] at done
    cases done
    exact ⟨⟨first, pages, expansion.some, rfl, expansion.obtained, expansion.fewer⟩, _, _,
      inv.addRegion expansion.positive expansion.some expansion.grown expansion.obtained⟩

theorem Retries.freeCount_le (run : Retries bytes pool count before)
    (inv : PoolInv pool blocksOf free outstanding) :
    before.mm.pfnDatabase.freeCount + count ≤ pool.mm.pfnDatabase.freeCount ∧
      ∃ blocksOf free, PoolInv before blocksOf free outstanding := by
  induction run with
  | start => exact ⟨Nat.le_refl _, _, _, inv⟩
  | next run retry ih =>
    obtain ⟨less, _, _, beforeInv⟩ := ih
    obtain ⟨⟨_, _, _, _, _, fewer⟩, afterInv⟩ := retry.tookPages beforeInv
    exact ⟨by omega, afterInv⟩

theorem Retries.loop (run : Retries bytes pool count before) (fuel : Nat) :
    allocateLoop bytes blockTag (fuel + count) pool = allocateLoop bytes blockTag fuel before := by
  induction run generalizing fuel with
  | start => rfl
  | next run retry ih =>
    obtain ⟨status, done, success⟩ := retry.grown
    have round := ih (fuel + 1)
    rw [Nat.add_right_comm, Nat.add_assoc] at round
    rw [round, allocateLoop, retry.missing]
    dsimp only
    rw [done]
    dsimp only
    rw [if_pos success]

theorem expExpandPool_regions {minBytes : Nat} {status : NtStatus}
    (done : expExpandPool before minBytes = .ok (status, after)) :
    ∀ region ∈ before.regions, region ∈ after.regions := by
  rw [expExpandPool] at done
  split at done
  · cases done
    exact fun _ => id
  · split at done
    · cases done
    · cases done
      exact fun _ => List.mem_cons_of_mem _

theorem allocateLoop_regions {fuel : Nat} {body : Option Nat}
    (result : allocateLoop bytes blockTag fuel before = some (.ok (body, after))) :
    ∀ region ∈ before.regions, region ∈ after.regions := by
  induction fuel generalizing before with
  | zero => cases result
  | succ fuel ih =>
    rw [allocateLoop] at result
    split at result
    · cases result
    · cases result
    · cases result
      rw [(takeBlock_frame _ _ _ _ _).1]
      exact fun _ => id
    · split at result
      · cases result
      · rename_i status grown done
        have kept := expExpandPool_regions done
        split at result
        · exact fun region member => ih result region (kept region member)
        · cases result
          exact kept

theorem exAllocatePoolWithTag_loop {numberOfBytes : Nat} {body : Option Nat}
    (some : numberOfBytes ≠ 0)
    (result : exAllocatePoolWithTag pool numberOfBytes blockTag = Option.some (.ok (body, after))) :
    ∃ last, allocateLoop (roundToGranule numberOfBytes) blockTag
      (pool.mm.pfnDatabase.highestPfn + 1) pool = Option.some (.ok (body, last)) ∧
        last.regions = after.regions := by
  rw [exAllocatePoolWithTag, if_neg some] at result
  obtain ⟨looped, ends, same⟩ := Option.map_eq_some_iff.mp result
  rw [ends]
  match looped, same with
  | .ok (none, last), rfl => exact ⟨last, rfl, rfl⟩
  | .ok (.some address, last), rfl => exact ⟨last, rfl, rfl⟩

end Retries

/-- In every history of the pool and of the other users of the page allocator, a call for any
number of bytes returns. Before each of its retries the pool has taken free pages, which are in
use in a region of the pool when the call returns; and there are fewer retries than free pages. -/
theorem exAllocatePoolWithTag_ends (start mm : MmState) (history : List PageEvent)
    (pool : PoolState) (outstanding : List (Nat × Nat)) (pages : List Nat) (fresh : Fresh start)
    (boot : PageRun start mm history)
    (run : SharedRun mm (heldPages history) pool outstanding pages)
    (numberOfBytes : UInt64) (blockTag : UInt32) :
    ∃ body last, exAllocatePoolWithTag pool numberOfBytes.toNat blockTag.toNat =
        some (.ok (body, last)) ∧
      (numberOfBytes.toNat ≠ 0 → ∀ count before after,
        Retries (roundToGranule numberOfBytes.toNat) pool count before →
        Retry (roundToGranule numberOfBytes.toNat) before after →
          count < pool.mm.pfnDatabase.freeCount ∧ TookPages before after ∧
            ∀ region ∈ after.regions, region ∈ last.regions ∧ RegionHeld last.mm region) := by
  obtain ⟨_, _, inv⟩ := sharedInv_run (pageInv_run fresh boot) run
  by_cases some : numberOfBytes.toNat = 0
  · refine ⟨none, pool, ?_, fun nonzero => absurd some nonzero⟩
    rw [exAllocatePoolWithTag, if_pos some]
  obtain ⟨body, last, _, _, result, kept, _⟩ :=
    exAllocatePoolWithTag_cases inv.base numberOfBytes.toNat blockTag.toNat some blockTag.toNat_lt
  refine ⟨body, last, result, ?_⟩
  intro _ count before after retries retry
  obtain ⟨less, _, _, beforeInv⟩ := retries.freeCount_le inv.base
  obtain ⟨took, _⟩ := retry.tookPages beforeInv
  obtain ⟨less', _⟩ := (retries.next retry).freeCount_le inv.base
  have frames := pool.mm.pfnDatabase.freeCount_le
  obtain ⟨looped, ends, same⟩ := exAllocatePoolWithTag_loop some result
  refine ⟨by omega, took, ?_⟩
  intro region member
  obtain ⟨fuel, enough⟩ : ∃ fuel, pool.mm.pfnDatabase.highestPfn + 1 = fuel + (count + 1) :=
    ⟨pool.mm.pfnDatabase.highestPfn - count, by omega⟩
  rw [enough, (retries.next retry).loop] at ends
  have still := allocateLoop_regions ends region member
  rw [same] at still
  exact ⟨still, kept.held region still⟩

/-- Sixteen bytes from the one page of a machine. -/
theorem exAllocatePoolWithTag_ends_onePage : ∃ pool body last, SharedRun onePageMm [] pool [] [] ∧
    exAllocatePoolWithTag pool 16 7 = some (.ok (body, last)) := by
  have fresh : Fresh onePageMm := ⟨by decide, by decide +kernel⟩
  obtain ⟨status, pool, _, _, initialised, _⟩ := exInitializePoolManager_inv onePageMm (by decide)
  have run : SharedRun onePageMm (heldPages []) pool [] [] := SharedRun.init initialised
  obtain ⟨body, last, result, _⟩ := exAllocatePoolWithTag_ends onePageMm onePageMm [] pool [] []
    fresh PageRun.nil run 16 7
  exact ⟨pool, body, last, run, result⟩

end MinNT.Ex
