import MinNT.Mm.Contiguous

namespace MinNT.Mm

open List

/-- A block handed out: where it lies, what was asked for, and how many bytes the
call zeroed and counted for it. -/
structure ContiguousBlock where
  address : Nat
  requested : Nat
  size : Nat
deriving DecidableEq, Repr

/-- Calls of `MmAllocateContiguousMemory` with these sizes, one after the other:
the memory they leave, and a block for each result other than `NULL`. -/
def allocateBlocks : PhysicalMemory → List Nat → PhysicalMemory × List ContiguousBlock
  | memory, [] => (memory, [])
  | memory, numberOfBytes :: rest =>
      let call := mmAllocateContiguousMemory memory numberOfBytes
      let later := allocateBlocks call.2 rest
      if call.1 = 0 then later
      else (later.1, ⟨call.1, numberOfBytes, alignedSize numberOfBytes⟩ :: later.2)

/-- A block of the pool that is as large as it was asked to be. -/
structure ContiguousBlock.Sound (block : ContiguousBlock) : Prop where
  enough : block.requested ≤ block.size
  above : mmInitContiguousPool.base ≤ block.address
  below : block.address + block.size ≤ mmInitContiguousPool.base + mmContigPoolSize
  aligned : block.address % mmContigAlignment = 0

/-- What the pool promises its callers. -/
structure PoolSound (memory : PhysicalMemory) (blocks : List ContiguousBlock) : Prop where
  used : memory.contiguous.used ≤ mmContigPoolSize
  sound : ∀ block ∈ blocks, block.Sound
  disjoint : blocks.Pairwise fun left right =>
    left.address + left.size ≤ right.address ∨ right.address + right.size ≤ left.address

/-- No request of the sequence wraps when its turn comes. -/
def AllFit : PhysicalMemory → List Nat → Prop
  | _, [] => True
  | memory, numberOfBytes :: rest =>
      RequestFits memory.contiguous numberOfBytes ∧
        AllFit (mmAllocateContiguousMemory memory numberOfBytes).2 rest

/-- `MmContiguousPoolBase` and `MmContiguousPoolUsed` between two calls. -/
structure BumpInv (pool : ContiguousPool) : Prop where
  base : pool.base = mmInitContiguousPool.base
  used : pool.used ≤ mmContigPoolSize
  aligned : pool.used % mmContigAlignment = 0

theorem bumpInv_start : BumpInv mmInitContiguousPool := ⟨rfl, by decide, rfl⟩

theorem roundedSize_aligned (numberOfBytes : Nat) :
    roundedSize numberOfBytes % mmContigAlignment = 0 := by
  unfold roundedSize
  dsimp only
  by_cases large : (numberOfBytes + 63) / 64 * 64 > pageSize
  · rw [if_pos large]
    simp only [pageSize, mmContigAlignment]
    omega
  · rw [if_neg large]
    simp only [mmContigAlignment]
    omega

theorem alignedSize_wrapped {numberOfBytes : Nat} (wide : numberOfBytes < 2 ^ 64)
    (beyond : 2 ^ 64 ≤ roundedSize numberOfBytes) : alignedSize numberOfBytes = 0 := by
  have wrapped : ∀ value, 2 ^ 64 ≤ value + 4095 → value < 2 ^ 64 →
      alignUp64 value pageSize = 0 := by
    intro value above below
    simp only [alignUp64, pageSize]
    omega
  unfold alignedSize
  unfold roundedSize at beyond
  dsimp only at beyond ⊢
  by_cases first : numberOfBytes + 63 < 2 ^ 64
  · -- Only the second rounding wraps.
    have same : alignUp64 numberOfBytes mmContigAlignment = (numberOfBytes + 63) / 64 * 64 := by
      simp only [alignUp64, mmContigAlignment]
      omega
    rw [same]
    by_cases large : (numberOfBytes + 63) / 64 * 64 > pageSize
    · rw [if_pos large] at beyond ⊢
      simp only [pageSize] at beyond
      exact wrapped _ (by omega) (by omega)
    · rw [if_neg large] at beyond
      omega
  · have zero : alignUp64 numberOfBytes mmContigAlignment = 0 := by
      simp only [alignUp64, mmContigAlignment]
      omega
    rw [zero]
    rfl

section Step

variable {memory : PhysicalMemory} {numberOfBytes : Nat}

/-- A request that fits is refused, or moves the pool on by its size. -/
theorem BumpInv.allocate (inv : BumpInv memory.contiguous)
    (fits : RequestFits memory.contiguous numberOfBytes) :
    mmAllocateContiguousMemory memory numberOfBytes = (0, memory) ∨
      (mmAllocateContiguousMemory memory numberOfBytes).1 =
          mmInitContiguousPool.base + memory.contiguous.used ∧
        memory.contiguous.used + alignedSize numberOfBytes =
          (mmAllocateContiguousMemory memory numberOfBytes).2.contiguous.used ∧
        numberOfBytes ≤ alignedSize numberOfBytes ∧
        BumpInv (mmAllocateContiguousMemory memory numberOfBytes).2.contiguous := by
  rcases mmAllocateContiguousMemory_cases memory numberOfBytes fits with same | ⟨room, taken⟩
  · exact .inl same
  have noWrap : memory.contiguous.used + roundedSize numberOfBytes < 2 ^ 64 := fits
  have size := alignedSize_eq_rounded numberOfBytes (by omega)
  have base := inv.base
  have before := inv.aligned
  have added := roundedSize_aligned numberOfBytes
  simp only [mmContigAlignment] at before added
  refine .inr ?_
  rw [taken, size]
  refine ⟨by rw [base], rfl, le_roundedSize numberOfBytes, base, room, ?_⟩
  simp only [PhysicalMemory.zero, mmContigAlignment]
  omega

theorem BumpInv.allocate_wrapped (inv : BumpInv memory.contiguous) (wide : numberOfBytes < 2 ^ 64)
    (wraps : ¬ RequestFits memory.contiguous numberOfBytes) :
    (mmAllocateContiguousMemory memory numberOfBytes).1 ≠ 0 ∧
      (alignedSize numberOfBytes < numberOfBytes ∨
        mmInitContiguousPool.base + mmContigPoolSize <
          (mmAllocateContiguousMemory memory numberOfBytes).1 + alignedSize numberOfBytes) := by
  have beyond : 2 ^ 64 ≤ memory.contiguous.used + roundedSize numberOfBytes := Nat.not_lt.mp wraps
  have used := inv.used
  have base := inv.base
  simp only [mmContigPoolSize, mmInitContiguousPool] at used base ⊢
  unfold mmAllocateContiguousMemory
  dsimp only
  by_cases rounding : 2 ^ 64 ≤ roundedSize numberOfBytes
  · have size := alignedSize_wrapped wide rounding
    have positive : 0 < numberOfBytes := by
      by_contra zero
      have none : numberOfBytes = 0 := by omega
      rw [none] at rounding
      exact absurd rounding (by decide)
    rw [size, if_neg (by simp only [mmContigPoolSize]; omega)]
    exact ⟨by omega, .inl positive⟩
  · have size := alignedSize_eq_rounded numberOfBytes (by omega)
    rw [size, if_neg (by simp only [mmContigPoolSize]; omega)]
    exact ⟨by omega, .inr (by omega)⟩

end Step

/-- Requests that fit get blocks one behind the other. -/
theorem allocateBlocks_fit (sizes : List Nat) :
    ∀ memory : PhysicalMemory, BumpInv memory.contiguous → AllFit memory sizes →
      PoolSound (allocateBlocks memory sizes).1 (allocateBlocks memory sizes).2 ∧
        ∀ block ∈ (allocateBlocks memory sizes).2,
          mmInitContiguousPool.base + memory.contiguous.used ≤ block.address := by
  induction sizes with
  | nil =>
    intro memory inv _
    refine ⟨⟨inv.used, ?_, List.Pairwise.nil⟩, ?_⟩
    · intro block member
      cases member
    · intro block member
      cases member
  | cons numberOfBytes rest ih =>
    intro memory inv ⟨fits, later⟩
    rw [allocateBlocks]
    rcases inv.allocate fits with failed | ⟨address, taken, enough, after⟩
    · rw [failed] at later ⊢
      rw [if_pos rfl]
      exact ih memory inv later
    · obtain ⟨pool, behind⟩ := ih _ after later
      have nonzero : (mmAllocateContiguousMemory memory numberOfBytes).1 ≠ 0 := by
        rw [address]
        simp only [mmInitContiguousPool]
        omega
      have room := after.used
      have aligned := inv.aligned
      rw [if_neg nonzero]
      refine ⟨⟨pool.used, ?_, ?_⟩, ?_⟩
      · intro block member
        rcases mem_cons.mp member with rfl | member
        · refine ⟨enough, ?_, ?_, ?_⟩
          · show mmInitContiguousPool.base ≤ (mmAllocateContiguousMemory memory numberOfBytes).1
            omega
          · show (mmAllocateContiguousMemory memory numberOfBytes).1 +
              alignedSize numberOfBytes ≤ _
            omega
          · show (mmAllocateContiguousMemory memory numberOfBytes).1 % mmContigAlignment = 0
            rw [address]
            simp only [mmInitContiguousPool, mmContigAlignment] at aligned ⊢
            omega
        · exact pool.sound block member
      · refine List.Pairwise.cons ?_ pool.disjoint
        intro block member
        have above := behind block member
        left
        show (mmAllocateContiguousMemory memory numberOfBytes).1 +
          alignedSize numberOfBytes ≤ block.address
        omega
      · intro block member
        rcases mem_cons.mp member with rfl | member
        · exact Nat.le_of_eq address.symm
        · have above := behind block member
          omega

/-- Sound blocks come from requests that fit. -/
theorem allFit_of_sound (sizes : List Nat) :
    ∀ memory : PhysicalMemory, BumpInv memory.contiguous →
      (∀ numberOfBytes ∈ sizes, numberOfBytes < 2 ^ 64) →
      (∀ block ∈ (allocateBlocks memory sizes).2, block.Sound) → AllFit memory sizes := by
  induction sizes with
  | nil =>
    intro memory _ _ _
    trivial
  | cons numberOfBytes rest ih =>
    intro memory inv wide sound
    rw [allocateBlocks] at sound
    have fits : RequestFits memory.contiguous numberOfBytes := by
      by_contra wraps
      obtain ⟨granted, bad⟩ := inv.allocate_wrapped (wide _ mem_cons_self) wraps
      rw [if_neg granted] at sound
      have block := sound _ mem_cons_self
      have enough := block.enough
      have below := block.below
      dsimp only at enough below
      omega
    refine ⟨fits, ?_⟩
    have wideRest : ∀ size ∈ rest, size < 2 ^ 64 := fun size member =>
      wide size (mem_cons_of_mem _ member)
    rcases inv.allocate fits with failed | ⟨address, _, _, after⟩
    · rw [failed] at sound ⊢
      rw [if_pos rfl] at sound
      exact ih memory inv wideRest sound
    · have nonzero : (mmAllocateContiguousMemory memory numberOfBytes).1 ≠ 0 := by
        rw [address]
        simp only [mmInitContiguousPool]
        omega
      rw [if_neg nonzero] at sound
      exact ih _ after wideRest fun block member => sound block (mem_cons_of_mem _ member)

/-- From the pool as it is set up, a sequence of calls keeps the promise exactly
when none of its requests wraps. -/
theorem contiguousPool_sound_iff (mm : MmState) (databaseStart : Nat) (sizes : List Nat)
    (wide : ∀ numberOfBytes ∈ sizes, numberOfBytes < 2 ^ 64) :
    PoolSound (allocateBlocks ⟨mm, mmInitContiguousPool, databaseStart⟩ sizes).1
        (allocateBlocks ⟨mm, mmInitContiguousPool, databaseStart⟩ sizes).2 ↔
      AllFit ⟨mm, mmInitContiguousPool, databaseStart⟩ sizes := by
  constructor
  · intro pool
    exact allFit_of_sound sizes _ bumpInv_start wide pool.sound
  · intro fit
    exact (allocateBlocks_fit sizes _ bumpInv_start fit).1

/-- A machine without a page of its own. -/
def noPages : MmState := ⟨⟨[], Nat.zero_le _⟩, 0, 0, fun _ => 0⟩

/-- A DMA ring of one page, and a buffer of a little more than a page. -/
theorem ringAndBuffer_sound :
    PoolSound (allocateBlocks ⟨noPages, mmInitContiguousPool, 0x200000⟩ [4096, 5000]).1
      (allocateBlocks ⟨noPages, mmInitContiguousPool, 0x200000⟩ [4096, 5000]).2 := by
  refine (contiguousPool_sound_iff noPages 0x200000 [4096, 5000] (by decide)).mpr ⟨?_, ?_, trivial⟩
  · decide +kernel
  · decide +kernel

/-- A request of `2 ^ 64 - 1` bytes gets the address of an empty block. -/
theorem largestRequest_notSound :
    ¬ ∀ (mm : MmState) (databaseStart : Nat) (sizes : List Nat),
      (∀ numberOfBytes ∈ sizes, numberOfBytes < 2 ^ 64) →
      PoolSound (allocateBlocks ⟨mm, mmInitContiguousPool, databaseStart⟩ sizes).1
        (allocateBlocks ⟨mm, mmInitContiguousPool, databaseStart⟩ sizes).2 := by
  intro promise
  have pool := promise noPages 0x200000 [2 ^ 64 - 1] (by decide)
  have block : (⟨0x10000000, 2 ^ 64 - 1, 0⟩ : ContiguousBlock) ∈
      (allocateBlocks ⟨noPages, mmInitContiguousPool, 0x200000⟩ [2 ^ 64 - 1]).2 := by
    decide +kernel
  exact absurd (pool.sound _ block).enough (by decide)

end MinNT.Mm
