import MinNT.Ex.PoolGrow

namespace MinNT.Ex

open MinNT.Mm Chain Tiling

/-- The outstanding bodies after a call of `ExAllocatePoolWithTag`. -/
def holdBody (outstanding : List (Nat × Nat)) (blockTag : Nat) : Option Nat → List (Nat × Nat)
  | none => outstanding
  | some body => (body, blockTag) :: outstanding

theorem withMemory_frame (pool : PoolState) (memory : ByteMemory) :
    (pool.withMemory memory).regions = pool.regions ∧
      (pool.withMemory memory).mm.pfnDatabase = pool.mm.pfnDatabase ∧
      (pool.withMemory memory).mm.hintPfn = pool.mm.hintPfn := ⟨rfl, rfl, rfl⟩

theorem setPrev_frame (pool : PoolState) (prev : Option Nat) (value : Nat) :
    (setPrev pool prev value).regions = pool.regions ∧
      (setPrev pool prev value).mm.pfnDatabase = pool.mm.pfnDatabase ∧
      (setPrev pool prev value).mm.hintPfn = pool.mm.hintPfn := by
  cases prev with
  | none => exact ⟨rfl, rfl, rfl⟩
  | some header => exact ⟨rfl, rfl, rfl⟩

theorem takeBlock_frame (pool : PoolState) (bytes blockTag cur : Nat) (prev : Option Nat) :
    (takeBlock pool bytes blockTag prev cur).regions = pool.regions ∧
      (takeBlock pool bytes blockTag prev cur).mm.pfnDatabase = pool.mm.pfnDatabase ∧
      (takeBlock pool bytes blockTag prev cur).mm.hintPfn = pool.mm.hintPfn := by
  unfold takeBlock detachBlock
  dsimp only
  split
  · simp only [withMemory_frame, setPrev_frame, and_self]
  · simp only [withMemory_frame, setPrev_frame, and_self]

section Calls

variable {pool : PoolState} {blocksOf : Nat → List Nat} {free : List Nat}
  {outstanding : List (Nat × Nat)}

theorem PoolInv.withMemory (inv : PoolInv pool blocksOf free outstanding) {memory : ByteMemory}
    (heap : HeapInv memory pool.freeList pool.regions blocksOf free outstanding) :
    PoolInv (pool.withMemory memory) blocksOf free outstanding :=
  ⟨heap, inv.hint, inv.held⟩

theorem PoolInv.takeFound (inv : PoolInv pool blocksOf free outstanding) {front back : List Nat}
    {cur bytes blockTag : Nat} (shape : free = front ++ cur :: back) (small : blockTag < 2 ^ 32)
    (fits : bytes ≤ getField pool.mm.memory cur .size) :
    ∃ blocksOf' free', PoolInv (takeBlock pool bytes blockTag front.getLast? cur) blocksOf' free'
        ((cur + poolHeaderSize, blockTag) :: outstanding) ∧
      bytes ≤ getField (takeBlock pool bytes blockTag front.getLast? cur).mm.memory cur .size := by
  obtain ⟨blocksOf', free', heap, size⟩ := inv.heap.takeFound shape small fits
  obtain ⟨regions, database, hint⟩ := takeBlock_frame pool bytes blockTag cur front.getLast?
  refine ⟨blocksOf', free', ⟨regions ▸ heap, hint ▸ inv.hint, ?_⟩, size⟩
  intro region known
  obtain ⟨first, place, positive, some, active⟩ := inv.held region (regions ▸ known)
  exact ⟨first, place, positive, some, fun index inside => database ▸ active index inside⟩

/-- The retry loop ends: every failed search is followed by a growth that takes
at least one of the free pages. -/
theorem allocateLoop_inv (bytes blockTag : Nat) (small : blockTag < 2 ^ 32) (fuel : Nat) :
    ∀ (pool : PoolState) (blocksOf : Nat → List Nat) (free : List Nat),
      PoolInv pool blocksOf free outstanding → pool.mm.pfnDatabase.freeCount < fuel →
      ∃ body after blocksOf' free',
        allocateLoop bytes blockTag fuel pool = some (.ok (body, after)) ∧
        PoolInv after blocksOf' free' (holdBody outstanding blockTag body) ∧
        ∀ address, body = some address → ∃ header, address = header + poolHeaderSize ∧
          bytes ≤ getField after.mm.memory header .size := by
  induction fuel with
  | zero =>
    intro pool blocksOf free _ enough
    omega
  | succ fuel ih =>
    intro pool blocksOf free inv enough
    rcases inv.heap.search bytes with missing | ⟨front, cur, back, shape, fits, found⟩
    · rcases expExpandPool_expansion pool bytes inv.hint with
        ⟨_, failed⟩ | ⟨first, pages, after, expansion, done⟩
      · refine ⟨none, pool, blocksOf, free, ?_, inv, fun address body => by cases body⟩
        rw [allocateLoop, missing]
        dsimp only
        rw [failed]
        rfl
      · have fewer := expansion.fewer
        have next := ih _ _ _ (inv.addRegion expansion.positive expansion.some expansion.grown
          expansion.obtained) (by
            show after.pfnDatabase.freeCount < fuel
            omega)
        obtain ⟨body, last, blocksOf', free', result, rest⟩ := next
        refine ⟨body, last, blocksOf', free', ?_, rest⟩
        rw [allocateLoop, missing]
        dsimp only
        rw [done]
        exact result
    · obtain ⟨blocksOf', free', taken, size⟩ := inv.takeFound shape small fits
      have bounds := inv.heap.blockBounds (inv.heap.freeBlock cur (by rw [shape]; simp)).1
      have address : (cur + poolHeaderSize) % 2 ^ 64 = cur + poolHeaderSize := by
        apply Nat.mod_eq_of_lt
        simp only [extent, poolHeaderSize] at bounds ⊢
        omega
      refine ⟨some (cur + poolHeaderSize), _, blocksOf', free', ?_, taken, ?_⟩
      · rw [allocateLoop, found]
        dsimp only
        rw [address]
      · intro body here
        exact ⟨cur, (Option.some.inj here).symm, size⟩

theorem PoolInv.zeroBody {body bytes blockTag : Nat}
    (inv : PoolInv pool blocksOf free ((body, blockTag) :: outstanding)) {header : Nat}
    (place : body = header + poolHeaderSize) (fits : bytes ≤ getField pool.mm.memory header .size) :
    PoolInv (zeroBody pool body bytes) blocksOf free ((body, blockTag) :: outstanding) := by
  obtain ⟨other, otherPlace, block, _, _⟩ := inv.heap.owned (body, blockTag) List.mem_cons_self
  have same : other = header := by
    dsimp only at otherPlace
    omega
  subst other
  apply inv.withMemory
  apply inv.heap.writeBody block
  apply ByteMemory.write_sameOutside
  · omega
  · rw [List.length_replicate, extent]
    omega

/-- Every allocation ends and keeps the pool. -/
theorem exAllocatePoolWithTag_inv (inv : PoolInv pool blocksOf free outstanding)
    (numberOfBytes blockTag : Nat) (small : blockTag < 2 ^ 32) :
    ∃ body after blocksOf' free',
      exAllocatePoolWithTag pool numberOfBytes blockTag = some (.ok (body, after)) ∧
      PoolInv after blocksOf' free' (holdBody outstanding blockTag body) := by
  unfold exAllocatePoolWithTag
  by_cases nothing : numberOfBytes = 0
  · rw [if_pos nothing]
    exact ⟨none, pool, blocksOf, free, rfl, inv⟩
  rw [if_neg nothing]
  have count := pool.mm.pfnDatabase.freeCount_le
  obtain ⟨body, after, blocksOf', free', result, kept, room⟩ :=
    allocateLoop_inv (roundToGranule numberOfBytes) blockTag small
      (pool.mm.pfnDatabase.highestPfn + 1) pool blocksOf free inv (by omega)
  dsimp only
  rw [result]
  cases body with
  | none => exact ⟨none, after, blocksOf', free', rfl, kept⟩
  | some address =>
    obtain ⟨header, place, fits⟩ := room address rfl
    exact ⟨some address, _, blocksOf', free', rfl, PoolInv.zeroBody kept place fits⟩

theorem exFreePoolWithTag_inv (inv : PoolInv pool blocksOf free outstanding)
    {body blockTag given : Nat} (known : (body, blockTag) ∈ outstanding)
    (own : given = blockTag ∨ given = 0) :
    ∃ after free', exFreePoolWithTag pool body given = .ok after ∧
      PoolInv after blocksOf free' (outstanding.filter (fun other => other.1 ≠ body)) := by
  obtain ⟨header, place, block, used, tagged⟩ := inv.heap.owned (body, blockTag) known
  dsimp only at place tagged
  have magic := (inv.heap.usedBlock header block used).1
  have address : subtract64 body poolHeaderSize = header := by
    rw [subtract64_of_le (by omega)]
    omega
  have nonzero : body ≠ 0 := by
    have bounds := inv.heap.blockBounds block
    omega
  have tagOk : ¬ (given ≠ 0 ∧ getField pool.mm.memory header .tag ≠ given) := by
    intro bad
    rcases own with same | zero
    · exact bad.2 (tagged.trans same.symm)
    · exact bad.1 zero
  have heap := inv.heap.release header block used
  rw [← place] at heap
  have done : exFreePoolWithTag pool body given = .ok
      { pool.withMemory (setField (setField pool.mm.memory header .magic poolMagicFree) header
        .nextFree pool.freeList) with freeList := header } := by
    unfold exFreePoolWithTag
    dsimp only
    rw [address, if_neg nonzero, if_neg (not_not.mpr magic), if_neg tagOk]
  exact ⟨_, header :: free, done, heap, inv.hint, inv.held⟩

theorem exInitializePoolManager_inv (mm : MmState) (hint : 0 < mm.hintPfn) :
    ∃ status pool blocksOf free, exInitializePoolManager mm = .ok (status, pool) ∧
      PoolInv pool blocksOf free [] := by
  have empty : PoolInv ⟨mm, 0, []⟩ (fun _ => []) [] [] := by
    refine ⟨⟨?_, List.Pairwise.nil, ?_, rfl, List.nodup_nil, ?_, ?_, ?_, List.nodup_nil⟩, hint, ?_⟩
    · intro region known
      cases known
    · intro region known
      cases known
    · intro header member
      cases member
    · intro header block
      obtain ⟨region, known, _⟩ := block
      cases known
    · intro body member
      cases member
    · intro region known
      cases known
  rcases expExpandPool_expansion ⟨mm, 0, []⟩ (poolExpandPages * pageSize) hint with
    ⟨_, failed⟩ | ⟨first, pages, after, expansion, done⟩
  · exact ⟨_, _, _, _, failed, empty⟩
  · exact ⟨_, _, _, _, done,
      empty.addRegion expansion.positive expansion.some expansion.grown expansion.obtained⟩

end Calls

/-- `Size` of the block with this body. -/
def bodySize (memory : ByteMemory) (body : Nat) : Nat :=
  getField memory (subtract64 body poolHeaderSize) .size

/-- The pool after `ExInitializePoolManager` and any calls, with the bodies handed
out and not freed since. Owners write to their bodies as they like. -/
inductive PoolRun (mm : MmState) : PoolState → List (Nat × Nat) → Prop
  | init {status : NtStatus} {pool : PoolState}
      (done : exInitializePoolManager mm = .ok (status, pool)) : PoolRun mm pool []
  | allocate {pool after : PoolState} {outstanding : List (Nat × Nat)} {body : Option Nat}
      (run : PoolRun mm pool outstanding) (numberOfBytes : UInt64) (blockTag : UInt32)
      (done : exAllocatePoolWithTag pool numberOfBytes.toNat blockTag.toNat =
        some (.ok (body, after))) :
      PoolRun mm after (holdBody outstanding blockTag.toNat body)
  | free {pool after : PoolState} {outstanding : List (Nat × Nat)} {body blockTag given : Nat}
      (run : PoolRun mm pool outstanding) (known : (body, blockTag) ∈ outstanding)
      (own : given = blockTag ∨ given = 0) (done : exFreePoolWithTag pool body given = .ok after) :
      PoolRun mm after (outstanding.filter (fun other => other.1 ≠ body))
  | use {pool : PoolState} {outstanding : List (Nat × Nat)} {body blockTag : Nat}
      {memory : ByteMemory} (run : PoolRun mm pool outstanding)
      (known : (body, blockTag) ∈ outstanding)
      (inside : ByteMemory.SameOutside pool.mm.memory memory body
        (body + bodySize pool.mm.memory body)) :
      PoolRun mm (pool.withMemory memory) outstanding

theorem PoolInv.bodyBlock {pool : PoolState} {blocksOf : Nat → List Nat} {free : List Nat}
    {outstanding : List (Nat × Nat)} (inv : PoolInv pool blocksOf free outstanding)
    {body : Nat × Nat} (known : body ∈ outstanding) :
    ∃ header, body.1 = header + poolHeaderSize ∧ IsBlock pool.regions blocksOf header ∧
      header ∉ free ∧ header + extent pool.mm.memory header =
        body.1 + bodySize pool.mm.memory body.1 := by
  obtain ⟨header, place, block, used, _⟩ := inv.heap.owned body known
  have address : subtract64 body.1 poolHeaderSize = header := by
    rw [subtract64_of_le (by omega)]
    omega
  refine ⟨header, place, block, used, ?_⟩
  rw [bodySize, address, extent]
  omega

/-- Every run keeps the heap. -/
theorem poolInv_run {mm : MmState} {pool : PoolState} {outstanding : List (Nat × Nat)}
    (hint : 0 < mm.hintPfn) (run : PoolRun mm pool outstanding) :
    ∃ blocksOf free, PoolInv pool blocksOf free outstanding := by
  induction run with
  | init done =>
    obtain ⟨_, _, blocksOf, free, result, inv⟩ := exInitializePoolManager_inv mm hint
    rw [result] at done
    cases done
    exact ⟨blocksOf, free, inv⟩
  | allocate run numberOfBytes blockTag done ih =>
    obtain ⟨blocksOf, free, inv⟩ := ih
    obtain ⟨_, _, blocksOf', free', result, kept⟩ := exAllocatePoolWithTag_inv inv
      numberOfBytes.toNat blockTag.toNat blockTag.toNat_lt
    rw [result] at done
    cases done
    exact ⟨blocksOf', free', kept⟩
  | free run known own done ih =>
    obtain ⟨blocksOf, free, inv⟩ := ih
    obtain ⟨_, free', result, kept⟩ := exFreePoolWithTag_inv inv known own
    rw [result] at done
    cases done
    exact ⟨blocksOf, free', kept⟩
  | use run known inside ih =>
    obtain ⟨blocksOf, free, inv⟩ := ih
    obtain ⟨header, place, block, _, top⟩ := inv.bodyBlock known
    refine ⟨blocksOf, free, inv.withMemory (inv.heap.writeBody block ?_)⟩
    rw [top]
    dsimp only at place ⊢
    rw [← place]
    exact inside

/-- The pool over every run: its regions are tiled by blocks, the free list holds
the free ones, no two owners share a byte, and no call meets a bad header. -/
theorem poolAllocator_sound (start mm : MmState) (history : List PageEvent) (pool : PoolState)
    (outstanding : List (Nat × Nat)) (fresh : Fresh start) (boot : PageRun start mm history)
    (run : PoolRun mm pool outstanding) :
    ∃ blocksOf free,
      (∀ region ∈ pool.regions,
        Tiles (extent pool.mm.memory) region.base region.top (blocksOf region.base)) ∧
      pool.regions.Pairwise RegionsDisjoint ∧
      Linked (getField pool.mm.memory · .nextFree) NullPointer pool.freeList free ∧
      free.Nodup ∧
      (∀ header, header ∈ free ↔ IsBlock pool.regions blocksOf header ∧
        getField pool.mm.memory header .magic = poolMagicFree) ∧
      (∀ body ∈ outstanding, ∃ header, body.1 = header + poolHeaderSize ∧
        IsBlock pool.regions blocksOf header ∧ header ∉ free) ∧
      (outstanding.map Prod.fst).Nodup ∧
      (∀ left ∈ outstanding, ∀ right ∈ outstanding, left.1 ≠ right.1 →
        left.1 + bodySize pool.mm.memory left.1 ≤ right.1 ∨
          right.1 + bodySize pool.mm.memory right.1 ≤ left.1) ∧
      (∀ body ∈ outstanding, ∀ header, IsBlock pool.regions blocksOf header →
        header + poolHeaderSize ≤ body.1 ∨
          body.1 + bodySize pool.mm.memory body.1 ≤ header) ∧
      (∀ body ∈ outstanding, ∀ header ∈ free,
        header + extent pool.mm.memory header ≤ body.1 ∨
          body.1 + bodySize pool.mm.memory body.1 ≤ header) ∧
      (∀ (numberOfBytes : UInt64) (blockTag : UInt32), ∃ body after,
        exAllocatePoolWithTag pool numberOfBytes.toNat blockTag.toNat = some (.ok (body, after))) ∧
      (∀ body blockTag given, (body, blockTag) ∈ outstanding → given = blockTag ∨ given = 0 →
        ∃ after, exFreePoolWithTag pool body given = .ok after) := by
  have hint := (pageInv_run fresh boot).hintLower
  obtain ⟨blocksOf, free, inv⟩ := poolInv_run (Nat.lt_of_lt_of_le (by decide) hint) run
  have bodyApart : ∀ body ∈ outstanding, ∀ header, IsBlock pool.regions blocksOf header →
      body.1 ≠ header + poolHeaderSize → header + extent pool.mm.memory header ≤ body.1 ∨
        body.1 + bodySize pool.mm.memory body.1 ≤ header := by
    intro body known header block different
    obtain ⟨own, place, ownBlock, _, top⟩ := inv.bodyBlock known
    have apart := inv.heap.blocksApart ownBlock block (fun same => different (same ▸ place))
    omega
  refine ⟨blocksOf, free, inv.heap.tiled, inv.heap.disjoint, inv.heap.chain, inv.heap.freeOnce,
    ?_, ?_, inv.heap.bodyOnce, ?_, ?_, ?_, ?_, ?_⟩
  · intro header
    constructor
    · exact inv.heap.freeBlock header
    · intro facts
      by_contra used
      have magic := (inv.heap.usedBlock header facts.1 used).1
      rw [facts.2] at magic
      exact absurd magic (by decide)
  · intro body known
    obtain ⟨header, place, block, used, _⟩ := inv.bodyBlock known
    exact ⟨header, place, block, used⟩
  · intro left leftKnown right rightKnown different
    obtain ⟨header, place, block, _, top⟩ := inv.bodyBlock leftKnown
    have apart := bodyApart right rightKnown header block (fun same => different (by omega))
    omega
  · intro body known header block
    by_cases own : body.1 = header + poolHeaderSize
    · omega
    · have apart := bodyApart body known header block own
      unfold extent at apart
      omega
  · intro body known header member
    obtain ⟨own, place, _, used, _⟩ := inv.bodyBlock known
    apply bodyApart body known header (inv.heap.freeBlock header member).1
    intro same
    have here : own = header := by omega
    exact used (here ▸ member)
  · intro numberOfBytes blockTag
    obtain ⟨body, after, _, _, result, _⟩ := exAllocatePoolWithTag_inv inv numberOfBytes.toNat
      blockTag.toNat blockTag.toNat_lt
    exact ⟨body, after, result⟩
  · intro body blockTag given known own
    obtain ⟨after, _, result, _⟩ := exFreePoolWithTag_inv inv known own
    exact ⟨after, result⟩

/-- The body that the first allocation of 16 bytes returns on a machine, 0 for none. -/
def firstBody (mm : MmState) : Nat :=
  match exInitializePoolManager mm with
  | .error _ => 0
  | .ok (_, pool) =>
      match exAllocatePoolWithTag pool 16 7 with
      | some (.ok (some body, _)) => body
      | _ => 0

/-- On a machine with one free page the first body lies behind the header at the
start of that page, and its owner can free it. -/
theorem onePagePool_sound : ∃ pool, PoolRun onePageMm pool [(0x100018, 7)] ∧
    ∃ after, exFreePoolWithTag pool 0x100018 7 = .ok after := by
  have fresh : Fresh onePageMm := ⟨by decide, by decide +kernel⟩
  have evaluated : firstBody onePageMm = 0x100018 := by decide +kernel
  obtain ⟨_, pool, _, _, initialised, inv⟩ := exInitializePoolManager_inv onePageMm (by decide)
  obtain ⟨body, after, _, _, allocated, _⟩ := exAllocatePoolWithTag_inv inv 16 7 (by decide)
  unfold firstBody at evaluated
  rw [initialised] at evaluated
  dsimp only at evaluated
  rw [allocated] at evaluated
  cases body with
  | none => cases evaluated
  | some address =>
    change address = 0x100018 at evaluated
    subst address
    have run : PoolRun onePageMm after [(0x100018, 7)] :=
      PoolRun.allocate (PoolRun.init initialised) 16 7 allocated
    obtain ⟨_, _, sound⟩ := poolAllocator_sound onePageMm onePageMm [] after _ fresh PageRun.nil run
    have frees := sound.2.2.2.2.2.2.2.2.2.2.2
    exact ⟨after, run, frees 0x100018 7 7 (by decide) (Or.inl rfl)⟩

end MinNT.Ex
