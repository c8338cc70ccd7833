import Mathlib.Data.List.Pairwise
import MinNT.Ex.Pool
import MinNT.Lib.Chain
import MinNT.Lib.Tiling

namespace MinNT.Ex

open List ByteMemory MinNT.Mm Chain Tiling

theorem getField_setField_same (memory : ByteMemory) (header : Nat) (field : HeaderField)
    (value : Nat) (small : value < 256 ^ field.width) :
    getField (setField memory header field value) header field = value := by
  rw [getField, setField, load_store_same, Nat.mod_eq_of_lt small]

theorem getField_setField_field (memory : ByteMemory) (header : Nat) (field other : HeaderField)
    (value : Nat) (different : other ≠ field) :
    getField (setField memory header field value) header other = getField memory header other := by
  apply load_store_disjoint
  cases field <;> cases other <;>
    simp only [HeaderField.offset, HeaderField.width, ne_eq, reduceCtorEq, not_false_eq_true,
      not_true_eq_false] at * <;> omega

theorem setField_sameOutside (memory : ByteMemory) (header : Nat) (field : HeaderField)
    (value : Nat) :
    ByteMemory.SameOutside memory (setField memory header field value) header
      (header + poolHeaderSize) := by
  apply store_sameOutside
  · omega
  · cases field <;> simp only [HeaderField.offset, HeaderField.width, poolHeaderSize] <;> omega

/-- Two memories with the same 24 bytes in one header. -/
def SameHeader (before after : ByteMemory) (header : Nat) : Prop :=
  ∀ address, header ≤ address → address < header + poolHeaderSize →
    after address = before address

theorem SameHeader.getField {before after : ByteMemory} {header : Nat}
    (same : SameHeader before after header) (field : HeaderField) :
    getField after header field = getField before header field := by
  unfold SameHeader at same
  rw [Ex.getField, Ex.getField, load, load, read_congr before after]
  intro address lower upper
  cases field <;> simp only [HeaderField.offset, HeaderField.width, poolHeaderSize] at * <;>
    exact same address (by omega) (by omega)

theorem sameHeader_of_outside {before after : ByteMemory} {low high header : Nat}
    (same : ByteMemory.SameOutside before after low high)
    (apart : header + poolHeaderSize ≤ low ∨ high ≤ header) : SameHeader before after header := by
  intro address lower upper
  exact same address (by omega)

theorem writeFreeHeader_fields (memory : ByteMemory) (header bytes next : Nat)
    (bytesSmall : bytes < 2 ^ 64) (nextSmall : next < 2 ^ 64) :
    ByteMemory.SameOutside memory (writeFreeHeader memory header bytes next) header
        (header + poolHeaderSize) ∧
      getField (writeFreeHeader memory header bytes next) header .magic = poolMagicFree ∧
      getField (writeFreeHeader memory header bytes next) header .size = bytes ∧
      getField (writeFreeHeader memory header bytes next) header .nextFree = next := by
  unfold writeFreeHeader
  dsimp only
  refine ⟨?_, ?_, ?_, getField_setField_same _ _ _ _ nextSmall⟩
  · exact (((setField_sameOutside memory header .magic _).trans
      (setField_sameOutside _ header .tag _)).trans
      (setField_sameOutside _ header .size _)).trans (setField_sameOutside _ header .nextFree _)
  · rw [getField_setField_field _ _ _ _ _ (by decide),
      getField_setField_field _ _ _ _ _ (by decide),
      getField_setField_field _ _ _ _ _ (by decide), getField_setField_same _ _ _ _ (by decide)]
  · rw [getField_setField_field _ _ _ _ _ (by decide), getField_setField_same _ _ _ _ bytesSmall]

/-- A block takes its header and `Size` bytes. -/
def extent (memory : ByteMemory) (header : Nat) : Nat :=
  poolHeaderSize + getField memory header .size

def PoolRegion.top (region : PoolRegion) : Nat := region.base + region.pages * pageSize

/-- The header of a block of one of the regions. -/
def IsBlock (regions : List PoolRegion) (blocksOf : Nat → List Nat) (header : Nat) : Prop :=
  ∃ region ∈ regions, header ∈ blocksOf region.base

def RegionsDisjoint (left right : PoolRegion) : Prop :=
  left.top ≤ right.base ∨ right.top ≤ left.base

instance : Std.Symm RegionsDisjoint := ⟨fun _ _ apart => apart.symm⟩

/-- `NULL`, the end of the free list. -/
def NullPointer (pointer : Nat) : Prop := pointer = 0

/-- The pool as the code sees it, through the blocks of each region, the free
list in order, and the outstanding bodies with their tags. -/
structure HeapInv (memory : ByteMemory) (freeList : Nat) (regions : List PoolRegion)
    (blocksOf : Nat → List Nat) (free : List Nat) (outstanding : List (Nat × Nat)) : Prop where
  tiled : ∀ region ∈ regions,
    Tiles (extent memory) region.base region.top (blocksOf region.base)
  disjoint : regions.Pairwise RegionsDisjoint
  bounded : ∀ region ∈ regions, 0 < region.base ∧ region.top ≤ 2 ^ 40
  chain : Linked (getField memory · .nextFree) NullPointer freeList free
  freeOnce : free.Nodup
  freeBlock : ∀ header ∈ free,
    IsBlock regions blocksOf header ∧ getField memory header .magic = poolMagicFree
  usedBlock : ∀ header, IsBlock regions blocksOf header → header ∉ free →
    getField memory header .magic = poolMagicUsed ∧
      (header + poolHeaderSize, getField memory header .tag) ∈ outstanding
  owned : ∀ body ∈ outstanding, ∃ header, body.1 = header + poolHeaderSize ∧
    IsBlock regions blocksOf header ∧ header ∉ free ∧ getField memory header .tag = body.2
  bodyOnce : (outstanding.map Prod.fst).Nodup

section Blocks

variable {memory : ByteMemory} {freeList : Nat} {regions : List PoolRegion}
  {blocksOf : Nat → List Nat} {free : List Nat} {outstanding : List (Nat × Nat)}

section Inv

variable (inv : HeapInv memory freeList regions blocksOf free outstanding)
include inv

theorem HeapInv.blockBounds {header : Nat} (block : IsBlock regions blocksOf header) :
    0 < header ∧ header + extent memory header ≤ 2 ^ 40 := by
  obtain ⟨region, known, member⟩ := block
  have inside := (inv.tiled region known).inside header member
  have bounds := inv.bounded region known
  omega

theorem HeapInv.blocksApart {left right : Nat} (leftBlock : IsBlock regions blocksOf left)
    (rightBlock : IsBlock regions blocksOf right) (different : left ≠ right) :
    left + extent memory left ≤ right ∨ right + extent memory right ≤ left := by
  obtain ⟨region, known, member⟩ := leftBlock
  obtain ⟨other, otherKnown, otherMember⟩ := rightBlock
  by_cases same : region = other
  · subst other
    exact (inv.tiled region known).apart left right member otherMember different
  · have leftInside := (inv.tiled region known).inside left member
    have rightInside := (inv.tiled other otherKnown).inside right otherMember
    rcases inv.disjoint.forall known otherKnown same with before | behind
    · omega
    · omega

theorem HeapInv.headersApart {left right : Nat} (leftBlock : IsBlock regions blocksOf left)
    (rightBlock : IsBlock regions blocksOf right) (different : left ≠ right) :
    left + poolHeaderSize ≤ right ∨ right + poolHeaderSize ≤ left := by
  have apart := inv.blocksApart leftBlock rightBlock different
  unfold extent at apart
  omega

theorem HeapInv.freeList_lt : freeList < 2 ^ 40 := by
  have chain := inv.chain
  cases shape : free with
  | nil =>
    rw [shape] at chain
    have null : freeList = 0 := chain
    omega
  | cons first rest =>
    rw [shape] at chain
    have member : first ∈ free := by
      rw [shape]
      exact mem_cons_self
    have bounds := inv.blockBounds (inv.freeBlock first member).1
    have head := chain.head_eq
    unfold extent at bounds
    simp only [poolHeaderSize] at bounds
    omega

theorem HeapInv.nextFree_lt
    {header : Nat} (member : header ∈ free) : getField memory header .nextFree < 2 ^ 40 := by
  rcases inv.chain.next_mem header member with inside | null
  · have bounds := inv.blockBounds (inv.freeBlock _ inside).1
    unfold extent at bounds
    simp only [poolHeaderSize] at bounds
    omega
  · have null : getField memory header .nextFree = 0 := null
    omega

/-- Writes outside the headers keep the heap. -/
theorem HeapInv.frame (after : ByteMemory)
    (same : ∀ header, IsBlock regions blocksOf header → SameHeader memory after header) :
    HeapInv after freeList regions blocksOf free outstanding where
  tiled := by
    intro region known
    apply (inv.tiled region known).congr
    intro header member
    rw [extent, extent, (same header ⟨region, known, member⟩).getField]
  disjoint := inv.disjoint
  bounded := inv.bounded
  chain := by
    apply inv.chain.congr
    intro header member
    exact (same header (inv.freeBlock header member).1).getField _
  freeOnce := inv.freeOnce
  freeBlock := by
    intro header member
    have block := inv.freeBlock header member
    rw [(same header block.1).getField]
    exact block
  usedBlock := by
    intro header block used
    rw [(same header block).getField, (same header block).getField]
    exact inv.usedBlock header block used
  owned := by
    intro body member
    obtain ⟨header, place, block, used, tagged⟩ := inv.owned body member
    refine ⟨header, place, block, used, ?_⟩
    rw [(same header block).getField]
    exact tagged
  bodyOnce := inv.bodyOnce

end Inv

/-- The search ends at the first block that is large enough. -/
theorem searchPool_linked (bytes : Nat) (cells : List Nat) :
    ∀ (fuel : Nat) (prev : Option Nat) (cur : Nat),
      Linked (getField memory · .nextFree) NullPointer cur cells →
      (∀ cell ∈ cells, cell ≠ 0 ∧ getField memory cell .magic = poolMagicFree) →
      cells.length < fuel →
      searchPool memory bytes fuel prev cur = some (.ok none) ∨
        ∃ front found back, cells = front ++ found :: back ∧
          bytes ≤ getField memory found .size ∧
          searchPool memory bytes fuel prev cur =
            some (.ok (some (front.getLast?.or prev, found))) := by
  induction cells with
  | nil =>
    intro fuel prev cur linked _ enough
    subst cur
    cases fuel with
    | zero => cases enough
    | succ fuel => exact .inl rfl
  | cons cell cells ih =>
    intro fuel prev cur linked good enough
    obtain ⟨rfl, rest⟩ := linked
    obtain ⟨nonzero, freeMagic⟩ := good cur mem_cons_self
    cases fuel with
    | zero => cases enough
    | succ fuel =>
      rw [searchPool, if_neg nonzero, if_neg (not_not.mpr freeMagic)]
      by_cases small : getField memory cur .size < bytes
      · rw [if_pos small]
        rcases ih fuel (some cur) _ rest (fun other member => good other (mem_cons_of_mem _ member))
          (by simpa using enough) with missing | ⟨front, found, back, shape, fits, result⟩
        · exact .inl missing
        · refine .inr ⟨cur :: front, found, back, by rw [shape]; rfl, fits, ?_⟩
          have last : (cur :: front).getLast?.or prev = front.getLast?.or (some cur) := by
            rw [getLast?_cons]
            cases front.getLast? <;> rfl
          rw [result, last]
      · rw [if_neg small]
        exact .inr ⟨[], cur, cells, rfl, Nat.le_of_not_lt small, rfl⟩

section Inv

variable (inv : HeapInv memory freeList regions blocksOf free outstanding)
include inv

/-- The walk ends without a bad header: at the end of the list, or at the first
block that is large enough. -/
theorem HeapInv.search (bytes : Nat) :
    searchPool memory bytes pointerSteps none freeList = some (.ok none) ∨
      ∃ front found back, free = front ++ found :: back ∧
        bytes ≤ getField memory found .size ∧
        searchPool memory bytes pointerSteps none freeList =
          some (.ok (some (front.getLast?, found))) := by
  have good : ∀ cell ∈ free, cell ≠ 0 ∧ getField memory cell .magic = poolMagicFree := by
    intro cell member
    have block := inv.freeBlock cell member
    have bounds := inv.blockBounds block.1
    exact ⟨by omega, block.2⟩
  have short : free.length ≤ 2 ^ 40 := by
    apply length_le_of_nodup inv.freeOnce
    intro cell member
    have bounds := inv.blockBounds (inv.freeBlock cell member).1
    unfold extent at bounds
    simp only [poolHeaderSize] at bounds
    omega
  have enough : free.length < pointerSteps := by
    rw [pointerSteps]
    omega
  rcases searchPool_linked bytes free pointerSteps none freeList inv.chain good enough with
    missing | ⟨front, found, back, shape, fits, result⟩
  · exact .inl missing
  · rw [Option.or_none] at result
    exact .inr ⟨front, found, back, shape, fits, result⟩

/-- A block of an owner goes back to the front of the free list. -/
theorem HeapInv.release
    (header : Nat) (block : IsBlock regions blocksOf header) (used : header ∉ free) :
    HeapInv (setField (setField memory header .magic poolMagicFree) header .nextFree freeList)
      header regions blocksOf (header :: free)
      (outstanding.filter (fun body => body.1 ≠ header + poolHeaderSize)) := by
  have outside := (setField_sameOutside memory header .magic poolMagicFree).trans
    (setField_sameOutside _ header .nextFree freeList)
  have next : getField (setField (setField memory header .magic poolMagicFree) header .nextFree
      freeList) header .nextFree = freeList := by
    have bound := inv.freeList_lt
    apply getField_setField_same
    simp only [HeaderField.width]
    omega
  have magicNow : getField (setField (setField memory header .magic poolMagicFree) header
      .nextFree freeList) header .magic = poolMagicFree := by
    rw [getField_setField_field _ _ _ _ _ (by decide), getField_setField_same _ _ _ _ (by decide)]
  have sizeNow : getField (setField (setField memory header .magic poolMagicFree) header
      .nextFree freeList) header .size = getField memory header .size := by
    rw [getField_setField_field _ _ _ _ _ (by decide),
      getField_setField_field _ _ _ _ _ (by decide)]
  generalize setField (setField memory header .magic poolMagicFree) header .nextFree freeList =
    after at *
  have others : ∀ other, IsBlock regions blocksOf other → other ≠ header →
      SameHeader memory after other := by
    intro other otherBlock different
    exact sameHeader_of_outside outside (inv.headersApart otherBlock block different)
  have freeOther : ∀ other ∈ free, other ≠ header := by
    intro other member clash
    exact used (clash ▸ member)
  refine ⟨?_, inv.disjoint, inv.bounded, ⟨rfl, ?_⟩, nodup_cons.mpr ⟨used, inv.freeOnce⟩,
    ?_, ?_, ?_, ?_⟩
  · intro region known
    apply (inv.tiled region known).congr
    intro other member
    rw [extent, extent]
    by_cases same : other = header
    · rw [same, sizeNow]
    · rw [(others other ⟨region, known, member⟩ same).getField]
  · show Linked _ _ (getField after header .nextFree) free
    rw [next]
    apply inv.chain.congr
    intro other member
    exact (others other (inv.freeBlock other member).1 (freeOther other member)).getField _
  · intro other member
    rcases mem_cons.mp member with same | member
    · rw [same]
      exact ⟨block, magicNow⟩
    · have old := inv.freeBlock other member
      rw [(others other old.1 (freeOther other member)).getField]
      exact old
  · intro other otherBlock outsideFree
    have different : other ≠ header := fun same => outsideFree (same ▸ mem_cons_self)
    have old := inv.usedBlock other otherBlock
      (fun member => outsideFree (mem_cons_of_mem _ member))
    rw [(others other otherBlock different).getField, (others other otherBlock different).getField]
    refine ⟨old.1, mem_filter.mpr ⟨old.2, ?_⟩⟩
    simpa using different
  · intro body member
    obtain ⟨member, notThis⟩ := mem_filter.mp member
    obtain ⟨other, place, otherBlock, otherUsed, tagged⟩ := inv.owned body member
    have different : other ≠ header := by
      intro same
      rw [same] at place
      simp [place] at notThis
    refine ⟨other, place, otherBlock, ?_, ?_⟩
    · intro inside
      rcases mem_cons.mp inside with same | inside
      · exact different same
      · exact otherUsed inside
    · rw [(others other otherBlock different).getField]
      exact tagged
  · exact List.Sublist.nodup (List.Sublist.map _ filter_sublist) inv.bodyOnce

end Inv

end Blocks

end MinNT.Ex
