import MinNT.Ex.PoolHeap

namespace MinNT.Ex

open List Function MinNT.Mm Chain Tiling

/-- Two headers at the same place or without a common byte. -/
def Apart (header other : Nat) : Prop :=
  header = other ∨ header + poolHeaderSize ≤ other ∨ other + poolHeaderSize ≤ header

theorem getField_setField (memory : ByteMemory) {header target : Nat} (field other : HeaderField)
    (value : Nat) (small : value < 256 ^ field.width) (apart : Apart header target) :
    getField (setField memory target field value) header other =
      if header = target ∧ other = field then value else getField memory header other := by
  by_cases here : header = target
  · subst header
    by_cases same : other = field
    · subst other
      rw [if_pos ⟨rfl, rfl⟩, getField_setField_same _ _ _ _ small]
    · rw [if_neg (fun both => same both.2), getField_setField_field _ _ _ _ _ same]
  · rw [if_neg (fun both => here both.1)]
    exact (sameHeader_of_outside (setField_sameOutside memory target field value)
      (apart.resolve_left here)).getField other

theorem setPrev_field (pool : PoolState) (prev : Option Nat) (value header : Nat)
    (field : HeaderField) (small : value < 2 ^ 64)
    (apart : ∀ before, prev = some before → Apart header before) :
    getField (setPrev pool prev value).mm.memory header field =
      if prev = some header ∧ field = .nextFree then value
      else getField pool.mm.memory header field := by
  cases prev with
  | none =>
    rw [if_neg (by simp)]
    rfl
  | some before =>
    refine Eq.trans (getField_setField pool.mm.memory .nextFree field value small
      (apart before rfl)) ?_
    by_cases same : header = before
    · simp [same]
    · simp [same, Ne.symm same]

section Take

variable {memory : ByteMemory} {freeList : Nat} {regions : List PoolRegion}
  {blocksOf : Nat → List Nat} {free : List Nat} {outstanding : List (Nat × Nat)}

/-- The fields of the old blocks, but for their sizes, after `cur` has left the
list, with `target` stored in the link to it. -/
def Detached (memory after : ByteMemory) (front : List Nat) (cur target blockTag header : Nat) :
    Prop :=
  getField after header .magic =
      (if header = cur then poolMagicUsed else getField memory header .magic) ∧
    getField after header .tag = (if header = cur then blockTag else getField memory header .tag) ∧
    getField after header .nextFree =
      if front.getLast? = some header then target else getField memory header .nextFree

section Inv

variable (inv : HeapInv memory freeList regions blocksOf free outstanding)
include inv

theorem HeapInv.apart {header other : Nat} (block : IsBlock regions blocksOf header)
    (otherBlock : IsBlock regions blocksOf other) : Apart header other := by
  by_cases same : header = other
  · exact .inl same
  · exact .inr (inv.headersApart block otherBlock same)

theorem HeapInv.last_isBlock
    {front back : List Nat} {cur before : Nat} (shape : free = front ++ cur :: back)
    (last : front.getLast? = some before) : IsBlock regions blocksOf before := by
  apply (inv.freeBlock before ?_).1
  rw [shape]
  exact mem_append_left _ (mem_of_getLast? last)

theorem HeapInv.notLast
    {front back : List Nat} {cur header : Nat} (shape : free = front ++ cur :: back)
    (member : header ∈ cur :: back) : front.getLast? ≠ some header := by
  intro last
  have once := inv.freeOnce
  rw [shape, nodup_append] at once
  exact once.2.2 header (mem_of_getLast? last) header member rfl

section Leaves

variable {front back middle : List Nat} {cur freeList' blockTag : Nat} {blocksOf' : Nat → List Nat}
  {after : ByteMemory} (shape : free = front ++ cur :: back)
  (tiled : ∀ region ∈ regions,
    Tiles (extent after) region.base region.top (blocksOf' region.base))
  (blocks : ∀ header, IsBlock regions blocksOf' header ↔
    IsBlock regions blocksOf header ∨ header ∈ middle)
  (fresh : ∀ header ∈ middle, ¬ IsBlock regions blocksOf header) (middleOnce : middle.Nodup)
  (middleFree : ∀ header ∈ middle, getField after header .magic = poolMagicFree)

include shape tiled blocks fresh middleOnce middleFree

/-- A block leaves the free list for its new owner; the rest of a cut block, if
there is one, takes its place. -/
theorem HeapInv.take
    (chain : Linked (getField after · .nextFree) NullPointer freeList' (front ++ (middle ++ back)))
    (others : ∀ header, IsBlock regions blocksOf header → header ≠ cur →
      getField after header .magic = getField memory header .magic ∧
        getField after header .tag = getField memory header .tag)
    (curMagic : getField after cur .magic = poolMagicUsed)
    (curTag : getField after cur .tag = blockTag) :
    HeapInv after freeList' regions blocksOf' (front ++ (middle ++ back))
      ((cur + poolHeaderSize, blockTag) :: outstanding) := by
  have once := inv.freeOnce
  rw [shape, nodup_append, nodup_cons] at once
  obtain ⟨frontOnce, ⟨notBack, backOnce⟩, frontApart⟩ := once
  have curBlock : IsBlock regions blocksOf cur :=
    (inv.freeBlock cur (by rw [shape]; simp)).1
  have notFront : cur ∉ front := fun member => frontApart cur member cur mem_cons_self rfl
  have inFree : ∀ header, header ∈ front ∨ header ∈ back → header ∈ free ∧ header ≠ cur := by
    intro header member
    rcases member with member | member
    · exact ⟨by rw [shape]; exact mem_append_left _ member, fun same => notFront (same ▸ member)⟩
    · exact ⟨by rw [shape]; exact mem_append_right _ (mem_cons_of_mem _ member),
        fun same => notBack (same ▸ member)⟩
  have isFree : ∀ header, header ∈ front ++ (middle ++ back) ↔
      (header ∈ front ∨ header ∈ back) ∨ header ∈ middle := by
    intro header
    simp only [mem_append]
    tauto
  have oldFree : ∀ header, header ∈ free → header ≠ cur → header ∈ front ∨ header ∈ back := by
    intro header member different
    rw [shape] at member
    rcases mem_append.mp member with member | member
    · exact .inl member
    · exact .inr ((mem_cons.mp member).resolve_left different)
  refine ⟨tiled, inv.disjoint, inv.bounded, chain, ?_, ?_, ?_, ?_, ?_⟩
  · rw [nodup_append, nodup_append]
    refine ⟨frontOnce, ⟨middleOnce, backOnce, ?_⟩, ?_⟩
    · intro header member other otherMember same
      have block := (inv.freeBlock other (inFree other (.inr otherMember)).1).1
      exact fresh header member (same ▸ block)
    · intro header member other otherMember same
      subst other
      have block := (inv.freeBlock header (inFree header (.inl member)).1).1
      rcases mem_append.mp otherMember with otherMember | otherMember
      · exact fresh header otherMember block
      · exact frontApart header member header (mem_cons_of_mem _ otherMember) rfl
  · intro header member
    rcases (isFree header).mp member with member | member
    · have old := inFree header member
      have block := inv.freeBlock header old.1
      rw [(others header block.1 old.2).1]
      exact ⟨(blocks header).mpr (.inl block.1), block.2⟩
    · exact ⟨(blocks header).mpr (.inr member), middleFree header member⟩
  · intro header block used
    have notMiddle : header ∉ middle := fun member => used ((isFree header).mpr (.inr member))
    have oldBlock := ((blocks header).mp block).resolve_right notMiddle
    by_cases same : header = cur
    · subst header
      rw [curTag]
      exact ⟨curMagic, mem_cons_self⟩
    · have old := inv.usedBlock header oldBlock (fun member =>
        used ((isFree header).mpr (.inl (oldFree header member same))))
      rw [(others header oldBlock same).1, (others header oldBlock same).2]
      exact ⟨old.1, mem_cons_of_mem _ old.2⟩
  · intro body member
    rcases mem_cons.mp member with same | member
    · subst body
      refine ⟨cur, rfl, (blocks cur).mpr (.inl curBlock), ?_, curTag⟩
      intro inside
      rcases (isFree cur).mp inside with inside | inside
      · exact (inFree cur inside).2 rfl
      · exact fresh cur inside curBlock
    · obtain ⟨header, place, block, used, tagged⟩ := inv.owned body member
      have different : header ≠ cur := by
        intro same
        exact used (by rw [shape, same]; simp)
      refine ⟨header, place, (blocks header).mpr (.inl block), ?_, ?_⟩
      · intro inside
        rcases (isFree header).mp inside with inside | inside
        · exact used (inFree header inside).1
        · exact fresh header inside block
      · rw [(others header block different).2]
        exact tagged
  · rw [map_cons, nodup_cons]
    refine ⟨?_, inv.bodyOnce⟩
    intro member
    obtain ⟨body, inside, place⟩ := List.mem_map.mp member
    obtain ⟨header, here, _, used, _⟩ := inv.owned body inside
    have same : header = cur := by
      rw [here] at place
      exact Nat.add_right_cancel place
    exact used (by rw [shape, same]; simp)

/-- The same from the fields that `detachBlock` leaves. -/
theorem HeapInv.takeLinked {target : Nat}
    (detached : ∀ header, IsBlock regions blocksOf header →
      Detached memory after front cur target blockTag header)
    (head : freeList' = if front = [] then target else freeList)
    (enter : Linked (getField after · .nextFree) NullPointer (getField memory cur .nextFree) back →
      Linked (getField after · .nextFree) NullPointer target (middle ++ back)) :
    HeapInv after freeList' regions blocksOf' (front ++ (middle ++ back))
      ((cur + poolHeaderSize, blockTag) :: outstanding) := by
  have chainOld := inv.chain
  rw [shape] at chainOld
  obtain ⟨_, _, rest⟩ := linked_append.mp chainOld
  have curBlock : IsBlock regions blocksOf cur := (inv.freeBlock cur (by rw [shape]; simp)).1
  have nextSame : ∀ header, header ∈ free → front.getLast? ≠ some header →
      getField after header .nextFree = getField memory header .nextFree := by
    intro header member notLast
    rw [(detached header (inv.freeBlock header member).1).2.2, if_neg notLast]
  have follow : Linked (getField after · .nextFree) NullPointer (getField memory cur .nextFree)
      back := by
    apply rest.2.congr
    intro header member
    apply nextSame header
    · rw [shape]
      exact mem_append_right _ (mem_cons_of_mem _ member)
    · exact inv.notLast shape (mem_cons_of_mem _ member)
  have once := inv.freeOnce
  rw [shape, nodup_append] at once
  apply inv.take shape tiled blocks fresh middleOnce middleFree
  · apply Linked.relink chainOld once.1 (enter follow)
    · intro header member notLast
      apply nextSame header _ notLast
      rw [shape]
      exact mem_append_left _ member
    · intro last isLast
      rw [(detached last (inv.last_isBlock shape isLast)).2.2, if_pos isLast]
    · exact head
  · intro header block different
    rw [(detached header block).1, (detached header block).2.1, if_neg different, if_neg different]
    exact ⟨rfl, rfl⟩
  · rw [(detached cur curBlock).1, if_pos rfl]
  · rw [(detached cur curBlock).2.1, if_pos rfl]

end Leaves

end Inv

end Take

/-- `takeBlock` changes the magic and the tag of the block it hands out, and what
`detachBlock` has changed. -/
theorem takeBlock_field (pool : PoolState) (bytes blockTag cur header : Nat) (prev : Option Nat)
    (field : HeaderField) (small : blockTag < 2 ^ 32) (apart : Apart header cur) :
    getField (takeBlock pool bytes blockTag prev cur).mm.memory header field =
      if header = cur ∧ field = .tag then blockTag
      else if header = cur ∧ field = .magic then poolMagicUsed
      else getField (detachBlock pool bytes prev cur).mm.memory header field := by
  show getField (setField (setField (detachBlock pool bytes prev cur).mm.memory cur .magic
    poolMagicUsed) cur .tag blockTag) header field = _
  rw [getField_setField _ _ _ _ small apart, getField_setField _ _ _ _ (by decide) apart]

theorem setPrev_freeList (pool : PoolState) (front : List Nat) (value : Nat) :
    (setPrev pool front.getLast? value).freeList = if front = [] then value else pool.freeList := by
  rcases eq_nil_or_concat front with rfl | ⟨cells, last, rfl⟩
  · rfl
  · simp [setPrev]

section TakeBlock

variable {pool : PoolState} {blocksOf : Nat → List Nat} {free front back : List Nat}
  {outstanding : List (Nat × Nat)} {bytes blockTag cur : Nat}

section Inv

variable (inv : HeapInv pool.mm.memory pool.freeList pool.regions blocksOf free outstanding)
include inv

/-- A block that its new owner gets whole. -/
theorem HeapInv.takeWhole {after : PoolState}
    (taken : takeBlock pool bytes blockTag front.getLast? cur = after)
    (shape : free = front ++ cur :: back) (small : blockTag < 2 ^ 32)
    (whole : detachBlock pool bytes front.getLast? cur =
      setPrev pool front.getLast? (getField pool.mm.memory cur .nextFree)) :
    HeapInv after.mm.memory after.freeList pool.regions blocksOf (front ++ back)
        ((cur + poolHeaderSize, blockTag) :: outstanding) ∧
      getField after.mm.memory cur .size = getField pool.mm.memory cur .size := by
  have curFree : cur ∈ free := by
    rw [shape]
    simp
  have curBlock := (inv.freeBlock cur curFree).1
  have next := inv.nextFree_lt curFree
  have fieldOf : ∀ header field, IsBlock pool.regions blocksOf header →
      getField after.mm.memory header field =
        if header = cur ∧ field = .tag then blockTag
        else if header = cur ∧ field = .magic then poolMagicUsed
        else if front.getLast? = some header ∧ field = .nextFree then
          getField pool.mm.memory cur .nextFree
        else getField pool.mm.memory header field := by
    intro header field block
    rw [← taken, takeBlock_field _ _ _ _ _ _ _ small (inv.apart block curBlock), whole,
      setPrev_field _ _ _ _ _ (by omega)]
    intro before last
    exact inv.apart block (inv.last_isBlock shape last)
  have head : after.freeList =
      if front = [] then getField pool.mm.memory cur .nextFree else pool.freeList := by
    rw [← taken]
    show (detachBlock pool bytes front.getLast? cur).freeList = _
    rw [whole, setPrev_freeList]
  have sizeOf : ∀ header, IsBlock pool.regions blocksOf header →
      getField after.mm.memory header .size = getField pool.mm.memory header .size := by
    intro header block
    simpa using fieldOf header .size block
  refine ⟨?_, sizeOf cur curBlock⟩
  show HeapInv after.mm.memory after.freeList pool.regions blocksOf (front ++ ([] ++ back)) _
  apply inv.takeLinked shape
  · intro region known
    apply (inv.tiled region known).congr
    intro header member
    rw [extent, extent, sizeOf header ⟨region, known, member⟩]
  · simp
  · simp
  · exact nodup_nil
  · simp
  · intro header block
    exact ⟨by simpa using fieldOf header .magic block, by simpa using fieldOf header .tag block,
      by simpa using fieldOf header .nextFree block⟩
  · exact head
  · exact fun linked => linked

theorem HeapInv.restApart (curBlock : IsBlock pool.regions blocksOf cur)
    (fits : bytes + poolHeaderSize + poolGranularity ≤ getField pool.mm.memory cur .size)
    {header : Nat} (block : IsBlock pool.regions blocksOf header) :
    header + poolHeaderSize ≤ cur + poolHeaderSize + bytes ∨
      cur + poolHeaderSize + bytes + poolHeaderSize ≤ header := by
  by_cases same : header = cur
  · omega
  · have apart := inv.blocksApart block curBlock same
    simp only [extent, poolHeaderSize, poolGranularity] at *
    omega

end Inv

theorem detachBlock_cut (prev : Option Nat) (bound : getField pool.mm.memory cur .size < 2 ^ 40)
    (place : cur < 2 ^ 40)
    (fits : bytes + poolHeaderSize + poolGranularity ≤ getField pool.mm.memory cur .size) :
    detachBlock pool bytes prev cur =
      (setPrev (pool.withMemory (writeFreeHeader pool.mm.memory (cur + poolHeaderSize + bytes)
        (getField pool.mm.memory cur .size - bytes - poolHeaderSize)
        (getField pool.mm.memory cur .nextFree))) prev (cur + poolHeaderSize + bytes)).withMemory
      (setField (setPrev (pool.withMemory (writeFreeHeader pool.mm.memory
        (cur + poolHeaderSize + bytes)
        (getField pool.mm.memory cur .size - bytes - poolHeaderSize)
        (getField pool.mm.memory cur .nextFree))) prev (cur + poolHeaderSize + bytes)).mm.memory
        cur .size bytes) := by
  simp only [poolHeaderSize, poolGranularity] at *
  have sum : (bytes + 24 + 16) % 2 ^ 64 = bytes + 24 + 16 := Nat.mod_eq_of_lt (by omega)
  have rest : (cur + 24 + bytes) % 2 ^ 64 = cur + 24 + bytes := Nat.mod_eq_of_lt (by omega)
  have less : subtract64 (getField pool.mm.memory cur .size) bytes =
      getField pool.mm.memory cur .size - bytes := subtract64_of_le (by omega)
  have left : subtract64 (getField pool.mm.memory cur .size - bytes) 24 =
      getField pool.mm.memory cur .size - bytes - 24 := subtract64_of_le (by omega)
  simp only [detachBlock, poolHeaderSize, poolGranularity, sum, rest, less, left, ge_iff_le, fits,
    ↓reduceIte]

section Inv

variable (inv : HeapInv pool.mm.memory pool.freeList pool.regions blocksOf free outstanding)
include inv

theorem HeapInv.cutField (shape : free = front ++ cur :: back)
    (fits : bytes + poolHeaderSize + poolGranularity ≤ getField pool.mm.memory cur .size)
    {header : Nat} (field : HeaderField) (curApart : Apart header cur)
    (lastApart : ∀ before, front.getLast? = some before → Apart header before) :
    getField (detachBlock pool bytes front.getLast? cur).mm.memory header field =
      if header = cur ∧ field = .size then bytes
      else if front.getLast? = some header ∧ field = .nextFree then cur + poolHeaderSize + bytes
      else getField (writeFreeHeader pool.mm.memory (cur + poolHeaderSize + bytes)
        (getField pool.mm.memory cur .size - bytes - poolHeaderSize)
        (getField pool.mm.memory cur .nextFree)) header field := by
  have curBlock := (inv.freeBlock cur (by rw [shape]; simp)).1
  have bounds := inv.blockBounds curBlock
  simp only [extent, poolHeaderSize, poolGranularity] at bounds fits
  rw [detachBlock_cut _ (by omega) (by omega) fits]
  show getField (setField _ cur .size bytes) header field = _
  rw [getField_setField _ _ _ _ (by simp only [HeaderField.width]; omega) curApart,
    setPrev_field _ _ _ _ _ (by simp only [poolHeaderSize]; omega) lastApart]
  rfl

/-- The tiling behind a cut: the rest is a block of its own. -/
theorem HeapInv.cutBlock (curBlock : IsBlock pool.regions blocksOf cur) {rest : Nat}
    {extent' : Nat → Nat} (starts : rest = cur + extent' cur)
    (parts : extent' cur + extent' rest = extent pool.mm.memory cur)
    (same : ∀ header, IsBlock pool.regions blocksOf header → header ≠ cur →
      extent' header = extent pool.mm.memory header) :
    ∃ blocksOf', (∀ region ∈ pool.regions,
        Tiles extent' region.base region.top (blocksOf' region.base)) ∧
      ∀ header, IsBlock pool.regions blocksOf' header ↔
        IsBlock pool.regions blocksOf header ∨ header ∈ [rest] := by
  obtain ⟨region, known, member⟩ := curBlock
  obtain ⟨before, behind, parts'⟩ := append_of_mem member
  have positive : ∀ header, 0 < extent pool.mm.memory header := by
    intro header
    simp only [extent, poolHeaderSize]
    omega
  have once := (inv.tiled region known).nodup (fun header _ => positive header)
  rw [parts', nodup_append, nodup_cons] at once
  have isOther : ∀ header, header ∈ before ∨ header ∈ behind →
      header ∈ blocksOf region.base ∧ header ≠ cur := by
    intro header inside
    rw [parts']
    rcases inside with inside | inside
    · exact ⟨mem_append_left _ inside, once.2.2 header inside cur mem_cons_self⟩
    · exact ⟨mem_append_right _ (mem_cons_of_mem _ inside),
        fun clash => once.2.1.1 (clash ▸ inside)⟩
  refine ⟨update blocksOf region.base (before ++ cur :: rest :: behind), ?_, ?_⟩
  · intro other otherKnown
    by_cases here : other.base = region.base
    · have tiles := inv.tiled other otherKnown
      rw [here, parts'] at tiles
      rw [here, update_self]
      apply tiles.cut starts parts
      · intro header inside
        have fact := isOther header (.inl inside)
        exact same header ⟨region, known, fact.1⟩ fact.2
      · intro header inside
        have fact := isOther header (.inr inside)
        exact same header ⟨region, known, fact.1⟩ fact.2
    · rw [update_of_ne here]
      apply (inv.tiled other otherKnown).congr
      intro header inside
      apply same header ⟨other, otherKnown, inside⟩
      intro clash
      -- a block in two regions would lie in both
      have apart := inv.disjoint.forall known otherKnown (fun equal => here (equal ▸ rfl))
      have first := (inv.tiled region known).inside cur member
      have second := (inv.tiled other otherKnown).inside header inside
      have size := positive cur
      subst header
      rcases apart with apart | apart
      · omega
      · omega
  · intro header
    constructor
    · intro block
      obtain ⟨other, otherKnown, inside⟩ := block
      by_cases here : other.base = region.base
      · rw [here, update_self] at inside
        simp only [mem_append, mem_cons] at inside
        rcases inside with inside | inside | inside | inside
        · exact .inl ⟨region, known, (isOther header (.inl inside)).1⟩
        · exact .inl ⟨region, known, inside ▸ member⟩
        · exact .inr (mem_singleton.mpr inside)
        · exact .inl ⟨region, known, (isOther header (.inr inside)).1⟩
      · rw [update_of_ne here] at inside
        exact .inl ⟨other, otherKnown, inside⟩
    · intro block
      rcases block with ⟨other, otherKnown, inside⟩ | new
      · refine ⟨other, otherKnown, ?_⟩
        by_cases here : other.base = region.base
        · rw [here, parts'] at inside
          rw [here, update_self]
          simp only [mem_append, mem_cons] at inside ⊢
          rcases inside with inside | inside | inside
          · exact .inl inside
          · exact .inr (.inl inside)
          · exact .inr (.inr (.inr inside))
        · rw [update_of_ne here]
          exact inside
      · refine ⟨region, known, ?_⟩
        rw [update_self, mem_singleton.mp new]
        simp

/-- A block that is cut for its new owner. -/
theorem HeapInv.takePart {after : PoolState}
    (taken : takeBlock pool bytes blockTag front.getLast? cur = after)
    (shape : free = front ++ cur :: back) (small : blockTag < 2 ^ 32)
    (fits : bytes + poolHeaderSize + poolGranularity ≤ getField pool.mm.memory cur .size) :
    ∃ blocksOf', HeapInv after.mm.memory after.freeList pool.regions blocksOf'
        (front ++ ([cur + poolHeaderSize + bytes] ++ back))
        ((cur + poolHeaderSize, blockTag) :: outstanding) ∧
      getField after.mm.memory cur .size = bytes := by
  have curFree : cur ∈ free := by
    rw [shape]
    simp
  have curBlock := (inv.freeBlock cur curFree).1
  have next := inv.nextFree_lt curFree
  have bounds := inv.blockBounds curBlock
  have room : getField pool.mm.memory cur .size < 2 ^ 40 ∧ cur < 2 ^ 40 := by
    simp only [extent, poolHeaderSize] at bounds
    omega
  have written := writeFreeHeader_fields pool.mm.memory (cur + poolHeaderSize + bytes)
    (getField pool.mm.memory cur .size - bytes - poolHeaderSize)
    (getField pool.mm.memory cur .nextFree) (by omega) (by omega)
  have fieldOf : ∀ header field, IsBlock pool.regions blocksOf header →
      getField after.mm.memory header field =
        if header = cur ∧ field = .tag then blockTag
        else if header = cur ∧ field = .magic then poolMagicUsed
        else if header = cur ∧ field = .size then bytes
        else if front.getLast? = some header ∧ field = .nextFree then
          cur + poolHeaderSize + bytes
        else getField pool.mm.memory header field := by
    intro header field block
    rw [← taken, takeBlock_field _ _ _ _ _ _ _ small (inv.apart block curBlock),
      inv.cutField shape fits field (inv.apart block curBlock)
        (fun before last => inv.apart block (inv.last_isBlock shape last)),
      (sameHeader_of_outside written.1 (inv.restApart curBlock fits block)).getField]
  have restOther : ∀ header, IsBlock pool.regions blocksOf header →
      cur + poolHeaderSize + bytes ≠ header := by
    intro header block same
    have apart := inv.restApart curBlock fits block
    simp only [poolHeaderSize] at apart same
    omega
  have restField : ∀ field,
      getField after.mm.memory (cur + poolHeaderSize + bytes) field =
        getField (writeFreeHeader pool.mm.memory (cur + poolHeaderSize + bytes)
          (getField pool.mm.memory cur .size - bytes - poolHeaderSize)
          (getField pool.mm.memory cur .nextFree)) (cur + poolHeaderSize + bytes) field := by
    intro field
    have apart : ∀ header, IsBlock pool.regions blocksOf header →
        Apart (cur + poolHeaderSize + bytes) header :=
      fun header block => .inr (inv.restApart curBlock fits block).symm
    have notLast : front.getLast? ≠ some (cur + poolHeaderSize + bytes) :=
      fun last => restOther _ (inv.last_isBlock shape last) rfl
    rw [← taken, takeBlock_field _ _ _ _ _ _ _ small (apart cur curBlock),
      inv.cutField shape fits field (apart cur curBlock)
        (fun before last => apart before (inv.last_isBlock shape last)),
      if_neg (fun both => restOther cur curBlock both.1),
      if_neg (fun both => restOther cur curBlock both.1),
      if_neg (fun both => restOther cur curBlock both.1), if_neg (fun both => notLast both.1)]
  have head : after.freeList =
      if front = [] then cur + poolHeaderSize + bytes else pool.freeList := by
    rw [← taken]
    show (detachBlock pool bytes front.getLast? cur).freeList = _
    rw [detachBlock_cut _ room.1 room.2 fits]
    exact setPrev_freeList _ front _
  have curSize : getField after.mm.memory cur .size = bytes := by
    simpa using fieldOf cur .size curBlock
  have restSize : getField after.mm.memory (cur + poolHeaderSize + bytes) .size =
      getField pool.mm.memory cur .size - bytes - poolHeaderSize := by
    rw [restField, written.2.2.1]
  have starts : cur + poolHeaderSize + bytes = cur + extent after.mm.memory cur := by
    rw [extent, curSize]
    omega
  have parts : extent after.mm.memory cur + extent after.mm.memory (cur + poolHeaderSize + bytes) =
      extent pool.mm.memory cur := by
    rw [extent, extent, extent, curSize, restSize]
    simp only [poolHeaderSize, poolGranularity] at fits ⊢
    omega
  have sizeOther : ∀ header, IsBlock pool.regions blocksOf header → header ≠ cur →
      extent after.mm.memory header = extent pool.mm.memory header := by
    intro header block different
    rw [extent, extent]
    simp [fieldOf header .size block, different]
  obtain ⟨blocksOf', tiled, blocks⟩ := inv.cutBlock curBlock starts parts sizeOther
  refine ⟨blocksOf', ?_, curSize⟩
  apply inv.takeLinked shape tiled blocks
  · intro header member block
    exact restOther header block (mem_singleton.mp member).symm
  · exact nodup_singleton _
  · intro header member
    rw [mem_singleton.mp member, restField, written.2.1]
  · intro header block
    exact ⟨by simpa using fieldOf header .magic block, by simpa using fieldOf header .tag block,
      by simpa using fieldOf header .nextFree block⟩
  · exact head
  · intro linked
    refine ⟨rfl, ?_⟩
    show Linked _ _ (getField after.mm.memory (cur + poolHeaderSize + bytes) .nextFree) back
    rw [restField, written.2.2.2]
    exact linked

theorem HeapInv.takeFound (shape : free = front ++ cur :: back) (small : blockTag < 2 ^ 32)
    (fits : bytes ≤ getField pool.mm.memory cur .size) :
    ∃ blocksOf' free', HeapInv (takeBlock pool bytes blockTag front.getLast? cur).mm.memory
        (takeBlock pool bytes blockTag front.getLast? cur).freeList pool.regions blocksOf' free'
        ((cur + poolHeaderSize, blockTag) :: outstanding) ∧
      bytes ≤ getField (takeBlock pool bytes blockTag front.getLast? cur).mm.memory cur .size := by
  by_cases large : bytes + poolHeaderSize + poolGranularity ≤ getField pool.mm.memory cur .size
  · obtain ⟨blocksOf', heap, size⟩ := inv.takePart rfl shape small large
    exact ⟨blocksOf', _, heap, Nat.le_of_eq size.symm⟩
  have bounds := inv.blockBounds (inv.freeBlock cur (by rw [shape]; simp)).1
  have sum : (bytes + poolHeaderSize + poolGranularity) % 2 ^ 64 =
      bytes + poolHeaderSize + poolGranularity := by
    apply Nat.mod_eq_of_lt
    simp only [extent, poolHeaderSize, poolGranularity] at bounds ⊢
    omega
  have whole : detachBlock pool bytes front.getLast? cur =
      setPrev pool front.getLast? (getField pool.mm.memory cur .nextFree) := by
    simp only [detachBlock, sum, ge_iff_le, large, ↓reduceIte]
  obtain ⟨heap, size⟩ := inv.takeWhole rfl shape small whole
  refine ⟨blocksOf, _, heap, ?_⟩
  rw [size]
  exact fits

end Inv

end TakeBlock

theorem HeapInv.writeBody {memory after : ByteMemory} {freeList : Nat} {regions : List PoolRegion}
    {blocksOf : Nat → List Nat} {free : List Nat} {outstanding : List (Nat × Nat)}
    (inv : HeapInv memory freeList regions blocksOf free outstanding) {header : Nat}
    (block : IsBlock regions blocksOf header)
    (inside : ByteMemory.SameOutside memory after (header + poolHeaderSize)
      (header + extent memory header)) :
    HeapInv after freeList regions blocksOf free outstanding := by
  apply inv.frame
  intro other otherBlock
  apply sameHeader_of_outside inside
  by_cases same : other = header
  · subst other
    exact .inl (Nat.le_refl _)
  · rcases inv.blocksApart otherBlock block same with before | behind
    · unfold extent at before
      omega
    · exact .inr behind

end MinNT.Ex
