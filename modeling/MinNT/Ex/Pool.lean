import MinNT.Mm.PhysicalRun

namespace MinNT.Ex

open MinNT.Mm

def poolMagicUsed : Nat := 0x4E504F4F
def poolMagicFree : Nat := 0x45455246
def poolGranularity : Nat := 16
def poolExpandPages : Nat := 16

/-- `sizeof(POOL_HEADER)`. -/
def poolHeaderSize : Nat := 24

/-- The fields of `POOL_HEADER`. -/
inductive HeaderField where
  | magic
  | tag
  | size
  | nextFree
deriving DecidableEq, Repr

def HeaderField.offset : HeaderField → Nat
  | .magic => 0
  | .tag => 4
  | .size => 8
  | .nextFree => 16

def HeaderField.width : HeaderField → Nat
  | .magic => 4
  | .tag => 4
  | .size => 8
  | .nextFree => 8

/-- `header->Field`. -/
def getField (memory : ByteMemory) (header : Nat) (field : HeaderField) : Nat :=
  memory.load field.width (header + field.offset)

/-- `header->Field = value`. -/
def setField (memory : ByteMemory) (header : Nat) (field : HeaderField) (value : Nat) :
    ByteMemory :=
  memory.store field.width (header + field.offset) value

/-- The four stores that make a free block. -/
def writeFreeHeader (memory : ByteMemory) (header bytes next : Nat) : ByteMemory :=
  let memory := setField memory header .magic poolMagicFree
  let memory := setField memory header .tag 0
  let memory := setField memory header .size bytes
  setField memory header .nextFree next

/-- A run of pages that `ExpExpandPool` has added to the pool. -/
structure PoolRegion where
  base : Nat
  pages : Nat
deriving DecidableEq, Repr

/-- `ExpFreeList` and the memory manager below it. The regions are a record of
what `ExpExpandPool` obtained; no function reads it. -/
structure PoolState where
  mm : MmState
  freeList : Nat
  regions : List PoolRegion

def bytesToPages (bytes : Nat) : Nat := toPfn ((bytes + (pageSize - 1)) % 2 ^ 64)

/-- The page-grabbing loop with `count` pages to go and `grabbed` of them taken.
A page that does not follow the others is given back and ends the loop. -/
def grabPages (base : Nat) : Nat → Nat → MmState → Except BugCheck (Nat × MmState)
  | 0, grabbed, mm => .ok (grabbed, mm)
  | count + 1, grabbed, mm =>
      let page := mmAllocatePhysicalPage mm
      if page.1 ≠ (base + grabbed * pageSize) % 2 ^ 64 then
        if page.1 ≠ 0 then
          match mmFreePhysicalPage page.2 page.1 with
          | .error crash => .error crash
          | .ok mm => .ok (grabbed, mm)
        else .ok (grabbed, page.2)
      else grabPages base count (grabbed + 1) page.2

/-- `pages` of `ExpExpandPool` before the loop. -/
def pagesWanted (minBytes : Nat) : Nat :=
  max (bytesToPages ((minBytes + poolHeaderSize) % 2 ^ 64)) poolExpandPages

/-- The header over the new pages. -/
def addRegion (pool : PoolState) (base pages : Nat) (mm : MmState) : PoolState :=
  { mm := { mm with
      memory := writeFreeHeader mm.memory base (subtract64 (pages * pageSize % 2 ^ 64)
        poolHeaderSize) pool.freeList }
    freeList := base
    regions := ⟨base, pages⟩ :: pool.regions }

def expExpandPool (pool : PoolState) (minBytes : Nat) : Except BugCheck (NtStatus × PoolState) :=
  let first := mmAllocatePhysicalPage pool.mm
  if first.1 = 0 then .ok (statusNoMemory, { pool with mm := first.2 })
  else
    match grabPages first.1 (pagesWanted minBytes - 1) 1 first.2 with
    | .error crash => .error crash
    | .ok (pages, mm) => .ok (statusSuccess, addRegion pool first.1 pages mm)

/-- `ExInitializePoolManager`, on a memory manager that has just been set up. -/
def exInitializePoolManager (mm : MmState) : Except BugCheck (NtStatus × PoolState) :=
  expExpandPool ⟨mm, 0, []⟩ (poolExpandPages * pageSize)

/-- `NumberOfBytes` after rounding, in 64 bits. -/
def roundToGranule (numberOfBytes : Nat) : Nat :=
  (numberOfBytes + (poolGranularity - 1)) % 2 ^ 64 / poolGranularity * poolGranularity

/-- The first-fit walk: the block and the block whose `NextFree` points to it,
`none` for `ExpFreeList` itself. The outer `none` is a walk that never ends. -/
def searchPool (memory : ByteMemory) (bytes : Nat) :
    Nat → Option Nat → Nat → Option (Except BugCheck (Option (Option Nat × Nat)))
  | 0, _, _ => none
  | fuel + 1, prev, cur =>
      if cur = 0 then some (.ok none)
      else if getField memory cur .magic ≠ poolMagicFree then
        some (.error (.badPoolHeader cur (getField memory cur .magic) 0 1))
      else if getField memory cur .size < bytes then
        searchPool memory bytes fuel (some cur) (getField memory cur .nextFree)
      else some (.ok (some (prev, cur)))

/-- `*prev = value`. -/
def setPrev (pool : PoolState) (prev : Option Nat) (value : Nat) : PoolState :=
  match prev with
  | none => { pool with freeList := value }
  | some header =>
      { pool with mm := { pool.mm with memory := setField pool.mm.memory header .nextFree value } }

def PoolState.withMemory (pool : PoolState) (memory : ByteMemory) : PoolState :=
  { pool with mm := { pool.mm with memory := memory } }

/-- Cut the block in two when the rest can hold a header and a granule, and take
it off the free list. -/
def detachBlock (pool : PoolState) (bytes : Nat) (prev : Option Nat) (cur : Nat) : PoolState :=
  let memory := pool.mm.memory
  if getField memory cur .size ≥ (bytes + poolHeaderSize + poolGranularity) % 2 ^ 64 then
    let rest := (cur + poolHeaderSize + bytes) % 2 ^ 64
    let left := subtract64 (subtract64 (getField memory cur .size) bytes) poolHeaderSize
    let cut := setPrev (pool.withMemory
      (writeFreeHeader memory rest left (getField memory cur .nextFree))) prev rest
    cut.withMemory (setField cut.mm.memory cur .size bytes)
  else setPrev pool prev (getField memory cur .nextFree)

/-- Mark the detached block as used. -/
def takeBlock (pool : PoolState) (bytes blockTag : Nat) (prev : Option Nat) (cur : Nat) :
    PoolState :=
  let detached := detachBlock pool bytes prev cur
  detached.withMemory (setField (setField detached.mm.memory cur .magic poolMagicUsed) cur .tag
    blockTag)

/-- The `retry` loop with `fuel` rounds left. Every round but the last takes a
page from the memory manager. -/
def allocateLoop (bytes blockTag : Nat) :
    Nat → PoolState → Option (Except BugCheck (Option Nat × PoolState))
  | 0, _ => none
  | fuel + 1, pool =>
      match searchPool pool.mm.memory bytes pointerSteps none pool.freeList with
      | none => none
      | some (.error crash) => some (.error crash)
      | some (.ok (some (prev, cur))) =>
          some (.ok (some ((cur + poolHeaderSize) % 2 ^ 64),
            takeBlock pool bytes blockTag prev cur))
      | some (.ok none) =>
          match expExpandPool pool bytes with
          | .error crash => some (.error crash)
          | .ok (status, grown) =>
              if ntSuccess status then allocateLoop bytes blockTag fuel grown
              else some (.ok (none, grown))

/-- `RtlZeroMemory(body, NumberOfBytes)`. -/
def zeroBody (pool : PoolState) (body bytes : Nat) : PoolState :=
  pool.withMemory (pool.mm.memory.write body (List.replicate bytes 0))

/-- `ExAllocatePoolWithTag`: the body, `none` for `NULL`. The outer `none` is a
call that never returns. -/
def exAllocatePoolWithTag (pool : PoolState) (numberOfBytes blockTag : Nat) :
    Option (Except BugCheck (Option Nat × PoolState)) :=
  if numberOfBytes = 0 then some (.ok (none, pool))
  else
    let bytes := roundToGranule numberOfBytes
    (allocateLoop bytes blockTag (pool.mm.pfnDatabase.highestPfn + 1) pool).map fun result =>
      match result with
      | .error crash => .error crash
      | .ok (none, pool) => .ok (none, pool)
      | .ok (some body, pool) => .ok (some body, zeroBody pool body bytes)

/-- `ExFreePoolWithTag`; a tag of 0 is not compared. -/
def exFreePoolWithTag (pool : PoolState) (body blockTag : Nat) : Except BugCheck PoolState :=
  if body = 0 then .ok pool
  else
    let header := subtract64 body poolHeaderSize
    let memory := pool.mm.memory
    if getField memory header .magic ≠ poolMagicUsed then
      .error (.badPoolHeader header (getField memory header .magic) 0 2)
    else if blockTag ≠ 0 ∧ getField memory header .tag ≠ blockTag then
      .error (.badPoolHeader header (getField memory header .tag) blockTag 3)
    else
      .ok { pool.withMemory (setField (setField memory header .magic poolMagicFree) header
        .nextFree pool.freeList) with freeList := header }

end MinNT.Ex
