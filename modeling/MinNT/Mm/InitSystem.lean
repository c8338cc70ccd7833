import MinNT.Mm.PhysicalRun

namespace MinNT.Mm

open List

def mb2TagTypeEnd : Nat := 0
def mb2TagTypeMmap : Nat := 6
def mmMaxMmapEntries : Nat := 64

/-- `MB2_MMAP_ENTRY`; type 1 is available memory. -/
structure MmapEntry where
  baseAddr : Nat
  length : Nat
  type : Nat
deriving DecidableEq, Repr

/-- The tag walk. The last memory-map tag seen wins. A tag of size 0 does not
advance the cursor, so the walk need not end: `none` is a walk that has not
ended when the fuel is used up. -/
def findMmapTag (memory : ByteMemory) (finish : Nat) : Nat → Nat → Option Nat → Option (Option Nat)
  | 0, _, _ => none
  | fuel + 1, cursor, mmap =>
      if cursor < finish then
        if memory.load 4 cursor = mb2TagTypeEnd then some mmap
        else
          findMmapTag memory finish fuel
            ((cursor + (memory.load 4 (cursor + 4) + 7) % 2 ^ 32 / 8 * 8) % 2 ^ 64)
            (if memory.load 4 cursor = mb2TagTypeMmap then some cursor else mmap)
      else some mmap

/-- The snapshot loop, with `room` entries left in `mapCopy`. -/
def snapshotEntries (memory : ByteMemory) (entrySize finish : Nat) : Nat → Nat → List MmapEntry
  | 0, _ => []
  | room + 1, cursor =>
      if (cursor + entrySize) % 2 ^ 64 ≤ finish then
        ⟨memory.load 8 cursor, memory.load 8 (cursor + 8), memory.load 4 (cursor + 16)⟩ ::
          snapshotEntries memory entrySize finish room ((cursor + entrySize) % 2 ^ 64)
      else []

/-- `mapCopy`. The walk depends on the cursor alone, so a walk that has not
ended after `pointerSteps` tags never ends. -/
def mapCopy (memory : ByteMemory) (info : Nat) : Option (Option (List MmapEntry)) :=
  (findMmapTag memory ((info + memory.load 4 info) % 2 ^ 64) pointerSteps
      ((info + 8) % 2 ^ 64) none).map fun tag =>
    tag.map fun mmap =>
      snapshotEntries memory (memory.load 4 (mmap + 8))
        ((mmap + memory.load 4 (mmap + 4)) % 2 ^ 64) mmMaxMmapEntries ((mmap + 16) % 2 ^ 64)

def MmapEntry.top (entry : MmapEntry) : Nat := (entry.baseAddr + entry.length) % 2 ^ 64

/-- First and last page frame of pass 2. -/
def MmapEntry.firstPfn (entry : MmapEntry) : Nat :=
  toPfn ((entry.baseAddr + (pageSize - 1)) % 2 ^ 64)

def MmapEntry.lastPfn (entry : MmapEntry) : Nat := toPfn entry.top

/-- One step of pass 1. -/
def raiseHighest (highest : Nat) (entry : MmapEntry) : Nat :=
  if entry.type ≠ 1 then highest
  else
    let top := if entry.top > mmBootMappedLimit then mmBootMappedLimit else entry.top
    if toPfn top > highest then toPfn top else highest

/-- Pass 1: the highest usable page frame inside the mapped window. -/
def highestUsable (map : List MmapEntry) : Nat := map.foldl raiseHighest 0

def setState (entries : List Mmpfn) (pfn : Nat) (state : PageState) : List Mmpfn :=
  entries.modify pfn (fun entry => { entry with state := state })

/-- The inner loop of pass 2, on the database and `MmTotalPages`. -/
def markFree : Nat → Nat → List Mmpfn × Nat → List Mmpfn × Nat
  | 0, _, pages => pages
  | count + 1, pfn, pages =>
      markFree count (pfn + 1) (setState pages.1 pfn .pfnFree, (pages.2 + 1) % 2 ^ 64)

/-- Pass 2. -/
def markAvailable (map : List MmapEntry) (pages : List Mmpfn × Nat) : List Mmpfn × Nat :=
  map.foldl (fun pages entry =>
    if entry.type ≠ 1 then pages
    else markFree (min entry.lastPfn pages.1.length - entry.firstPfn) entry.firstPfn pages) pages

/-- The carve-out loop over the kernel image, the boot information and the database. -/
def carveOut : Nat → Nat → List Mmpfn × Nat → List Mmpfn × Nat
  | 0, _, pages => pages
  | count + 1, pfn, pages =>
      carveOut count (pfn + 1)
        (setState pages.1 pfn .pfnKernelImage,
          if stateIn pages.1 pfn = some .pfnFree then decrement64 pages.2 else pages.2)

/-- `sizeof(MMPFN)`. -/
def mmpfnSize : Nat := 4

/-- `dbStart`: the PFN database is placed past the kernel image and past the boot
information. -/
def databaseStart (kernelEnd infoEnd : Nat) : Nat :=
  ((if infoEnd > kernelEnd then infoEnd else kernelEnd) + (pageSize - 1)) % 2 ^ 64 /
    pageSize * pageSize

/-- `dbEnd`. -/
def databaseEnd (kernelEnd infoEnd highest : Nat) : Nat :=
  (databaseStart kernelEnd infoEnd + highest * mmpfnSize) % 2 ^ 64

/-- Last page frame of the carve-out. -/
def lastReserved (kernelEnd infoEnd highest : Nat) : Nat :=
  toPfn (decrement64 (databaseEnd kernelEnd infoEnd highest))

/-- The database and `MmTotalPages` as the passes leave them. -/
def buildDatabase (kernelStart kernelEnd infoEnd : Nat) (map : List MmapEntry) :
    List Mmpfn × Nat :=
  let highest := highestUsable map
  let pages := markAvailable map (replicate highest ⟨.pfnReservedHw, 0⟩, 0)
  carveOut (min (lastReserved kernelEnd infoEnd highest + 1) highest - toPfn kernelStart)
    (toPfn kernelStart) (setState pages.1 0 .pfnReservedHw, pages.2)

def mmContigPoolSize : Nat := 8 * 1024 * 1024
def mmContigAlignment : Nat := 64

structure ContiguousPool where
  base : Nat
  used : Nat
deriving DecidableEq, Repr

/-- `MmInitContiguousPool`: a fixed range at 256 MB. -/
def mmInitContiguousPool : ContiguousPool := ⟨0x10000000, 0⟩

theorem raiseHighest_le (highest : Nat) (entry : MmapEntry)
    (bound : highest ≤ toPfn mmBootMappedLimit) :
    raiseHighest highest entry ≤ toPfn mmBootMappedLimit := by
  have clipped : (if entry.top > mmBootMappedLimit then mmBootMappedLimit else entry.top) ≤
      mmBootMappedLimit := by
    split <;> omega
  unfold raiseHighest
  generalize (if entry.top > mmBootMappedLimit then mmBootMappedLimit else entry.top) = top
    at clipped ⊢
  have shifted : toPfn top ≤ toPfn mmBootMappedLimit := Nat.div_le_div_right clipped
  split
  · exact bound
  · dsimp only
    split
    · exact shifted
    · exact bound

theorem highestUsable_le (map : List MmapEntry) : highestUsable map ≤ toPfn mmBootMappedLimit := by
  have step : ∀ (map : List MmapEntry) (highest : Nat),
      highest ≤ toPfn mmBootMappedLimit →
      map.foldl raiseHighest highest ≤ toPfn mmBootMappedLimit := by
    intro map
    induction map with
    | nil => exact fun _ bound => bound
    | cons entry map ih => exact fun highest bound => ih _ (raiseHighest_le highest entry bound)
  exact step map 0 (Nat.zero_le _)

@[simp] theorem setState_length (entries : List Mmpfn) (pfn : Nat) (state : PageState) :
    (setState entries pfn state).length = entries.length := by
  simp only [setState, length_modify]

@[simp] theorem markFree_length (count pfn : Nat) (pages : List Mmpfn × Nat) :
    (markFree count pfn pages).1.length = pages.1.length := by
  induction count generalizing pfn pages with
  | zero => rfl
  | succ count ih => rw [markFree, ih, setState_length]

@[simp] theorem markAvailable_length (map : List MmapEntry) (pages : List Mmpfn × Nat) :
    (markAvailable map pages).1.length = pages.1.length := by
  induction map generalizing pages with
  | nil => rfl
  | cons entry map ih =>
    unfold markAvailable at ih ⊢
    rw [foldl_cons, ih]
    split
    · rfl
    · rw [markFree_length]

@[simp] theorem carveOut_length (count pfn : Nat) (pages : List Mmpfn × Nat) :
    (carveOut count pfn pages).1.length = pages.1.length := by
  induction count generalizing pfn pages with
  | zero => rfl
  | succ count ih => rw [carveOut, ih, setState_length]

@[simp] theorem buildDatabase_length (kernelStart kernelEnd infoEnd : Nat) (map : List MmapEntry) :
    (buildDatabase kernelStart kernelEnd infoEnd map).1.length = highestUsable map := by
  simp only [buildDatabase, carveOut_length, setState_length, markAvailable_length,
    length_replicate]

/-- `MmPfnDatabase` after the passes. -/
def bootDatabase (kernelStart kernelEnd infoEnd : Nat) (map : List MmapEntry) : PfnDatabase :=
  ⟨(buildDatabase kernelStart kernelEnd infoEnd map).1, by
    rw [buildDatabase_length]
    exact highestUsable_le map⟩

section Database

variable {kernelEnd infoEnd highest : Nat}
  (linked : kernelEnd < 2 ^ 63) (loaded : infoEnd < 2 ^ 63)
  (limit : highest ≤ toPfn mmBootMappedLimit)

include linked loaded

/-- The database starts behind the kernel and the boot information. -/
theorem databaseStart_spec :
    kernelEnd ≤ databaseStart kernelEnd infoEnd ∧ infoEnd ≤ databaseStart kernelEnd infoEnd ∧
      databaseStart kernelEnd infoEnd < 2 ^ 63 + pageSize ∧
      ∀ pfn, pfn * pageSize < databaseStart kernelEnd infoEnd →
        pfn * pageSize < kernelEnd ∨ pfn * pageSize < infoEnd := by
  unfold databaseStart
  have past : kernelEnd ≤ (if infoEnd > kernelEnd then infoEnd else kernelEnd) ∧
      infoEnd ≤ (if infoEnd > kernelEnd then infoEnd else kernelEnd) ∧
      (if infoEnd > kernelEnd then infoEnd else kernelEnd) < 2 ^ 63 ∧
      ((if infoEnd > kernelEnd then infoEnd else kernelEnd) ≤ kernelEnd ∨
        (if infoEnd > kernelEnd then infoEnd else kernelEnd) ≤ infoEnd) := by
    split <;> omega
  generalize (if infoEnd > kernelEnd then infoEnd else kernelEnd) = reserveEnd at past ⊢
  rw [Nat.mod_eq_of_lt (by simp only [pageSize]; omega)]
  simp only [pageSize]
  refine ⟨by omega, by omega, by omega, ?_⟩
  intro pfn below
  omega

include limit

theorem databaseEnd_spec : databaseEnd kernelEnd infoEnd highest =
    databaseStart kernelEnd infoEnd + highest * mmpfnSize := by
  have start := (databaseStart_spec linked loaded).2.2.1
  apply Nat.mod_eq_of_lt
  simp only [toPfn, mmBootMappedLimit, mmpfnSize, pageSize] at limit start ⊢
  omega

end Database

/-- The state after `MmInitSystem`. The database is the list in `mm`, and
`databaseStart` says where its bytes lie. -/
structure Boot where
  mm : MmState
  totalPages : Nat
  contiguous : ContiguousPool
  databaseStart : Nat

/-- The part of `MmInitSystem` after the snapshot has been taken. The last loop
counts the free pages anew. -/
def initFromMap (kernelStart kernelEnd infoEnd : Nat) (memory : ByteMemory)
    (map : List MmapEntry) : Boot where
  mm :=
    { pfnDatabase := bootDatabase kernelStart kernelEnd infoEnd map
      freePages := (bootDatabase kernelStart kernelEnd infoEnd map).freeCount
      hintPfn := mmFirstHint
      memory := memory }
  totalPages := (buildDatabase kernelStart kernelEnd infoEnd map).2
  contiguous := mmInitContiguousPool
  databaseStart := databaseStart kernelEnd infoEnd

/-- `MmInitSystem` for a kernel linked at `[kernelStart, kernelEnd)` and boot
information at `info`. `none` is the endless tag walk. -/
def mmInitSystem (kernelStart kernelEnd : Nat) (memory : ByteMemory) (info : Nat) :
    Option (Except NtStatus Boot) :=
  match mapCopy memory info with
  | none => none
  | some none => some (.error statusUnsuccessful)
  | some (some map) =>
      if highestUsable map = 0 then some (.error statusUnsuccessful)
      else some (.ok (initFromMap kernelStart kernelEnd
        ((info + memory.load 4 info) % 2 ^ 64) memory map))

/-- The map offers the whole page as available memory. -/
def Offered (map : List MmapEntry) (pfn : Nat) : Prop :=
  ∃ entry ∈ map, entry.type = 1 ∧ entry.firstPfn ≤ pfn ∧ pfn < entry.lastPfn

instance (map : List MmapEntry) (pfn : Nat) : Decidable (Offered map pfn) :=
  inferInstanceAs (Decidable (∃ entry ∈ map, _))

/-- The page is offered by the map, inside the mapped window, not page 0 and not
part of the carve-out. -/
def Available (kernelStart kernelEnd infoEnd : Nat) (map : List MmapEntry) (pfn : Nat) : Prop :=
  Offered map pfn ∧ pfn < highestUsable map ∧ pfn ≠ 0 ∧
    ¬ (toPfn kernelStart ≤ pfn ∧
      pfn ≤ lastReserved kernelEnd infoEnd (highestUsable map))

theorem stateIn_setState (entries : List Mmpfn) (pfn other : Nat) (state : PageState) :
    stateIn (setState entries pfn state) other =
      if other = pfn ∧ pfn < entries.length then some state else stateIn entries other := by
  unfold stateIn setState
  by_cases same : other = pfn
  · subst other
    by_cases inside : pfn < entries.length
    · simp [inside]
    · simp [inside]
  · simp [getElem?_modify_ne _ _ (Ne.symm same), same]

/-- The database part of both range loops. -/
def setStates (state : PageState) : Nat → Nat → List Mmpfn → List Mmpfn
  | 0, _, entries => entries
  | count + 1, pfn, entries => setStates state count (pfn + 1) (setState entries pfn state)

theorem markFree_entries (count pfn : Nat) (pages : List Mmpfn × Nat) :
    (markFree count pfn pages).1 = setStates .pfnFree count pfn pages.1 := by
  induction count generalizing pfn pages with
  | zero => rfl
  | succ count ih => rw [markFree, ih, setStates]

theorem carveOut_entries (count pfn : Nat) (pages : List Mmpfn × Nat) :
    (carveOut count pfn pages).1 = setStates .pfnKernelImage count pfn pages.1 := by
  induction count generalizing pfn pages with
  | zero => rfl
  | succ count ih => rw [carveOut, ih, setStates]

theorem stateIn_setStates (state : PageState) (count pfn other : Nat) (entries : List Mmpfn)
    (inside : pfn + count ≤ entries.length ∨ count = 0) :
    stateIn (setStates state count pfn entries) other =
      if pfn ≤ other ∧ other < pfn + count then some state else stateIn entries other := by
  induction count generalizing pfn entries with
  | zero =>
    have outside : ¬ (pfn ≤ other ∧ other < pfn + 0) := by omega
    rw [setStates, if_neg outside]
  | succ count ih =>
    have bound : pfn < entries.length := by omega
    rw [setStates, ih (pfn + 1) _ (by rw [setState_length]; omega), stateIn_setState]
    by_cases first : other = pfn
    · have later : ¬ (pfn + 1 ≤ other ∧ other < pfn + 1 + count) := by omega
      rw [if_neg later, if_pos ⟨first, bound⟩, if_pos (by omega)]
    · have split : (pfn ≤ other ∧ other < pfn + (count + 1)) ↔
          (pfn + 1 ≤ other ∧ other < pfn + 1 + count) := by omega
      simp only [first, false_and, ↓reduceIte, split]

theorem stateIn_markAvailable (map : List MmapEntry) (pages : List Mmpfn × Nat) (pfn : Nat)
    (inside : pfn < pages.1.length) :
    stateIn (markAvailable map pages).1 pfn =
      if Offered map pfn then some .pfnFree else stateIn pages.1 pfn := by
  induction map generalizing pages with
  | nil => simp [markAvailable, Offered]
  | cons entry map ih =>
    have unfolded : markAvailable (entry :: map) pages = markAvailable map
        (if entry.type ≠ 1 then pages
        else markFree (min entry.lastPfn pages.1.length - entry.firstPfn) entry.firstPfn
          pages) := rfl
    rw [unfolded]
    by_cases skipped : entry.type ≠ 1
    · rw [if_pos skipped, ih pages inside]
      have same : Offered (entry :: map) pfn ↔ Offered map pfn := by
        simp [Offered, skipped]
      simp only [same]
    · rw [if_neg skipped, ih _ (by rw [markFree_length]; exact inside),
        markFree_entries, stateIn_setStates _ _ _ _ _ (by omega)]
      by_cases later : Offered map pfn
      · have offered : Offered (entry :: map) pfn := by
          obtain ⟨other, member, rest⟩ := later
          exact ⟨other, mem_cons_of_mem _ member, rest⟩
        rw [if_pos later, if_pos offered]
      · rw [if_neg later]
        have here : (entry.firstPfn ≤ pfn ∧ pfn < entry.firstPfn +
            (min entry.lastPfn pages.1.length - entry.firstPfn)) ↔
            Offered (entry :: map) pfn := by
          constructor
          · intro range
            exact ⟨entry, by simp, by omega, range.1, by omega⟩
          · rintro ⟨other, member, available, lower, upper⟩
            rcases mem_cons.mp member with rfl | member
            · omega
            · exact absurd ⟨other, member, available, lower, upper⟩ later
        simp only [here]

/-- The free frames after boot, read off the map. -/
theorem bootDatabase_free_iff (kernelStart kernelEnd infoEnd : Nat) (map : List MmapEntry)
    (pfn : Nat) :
    (bootDatabase kernelStart kernelEnd infoEnd map).Free pfn ↔
      Available kernelStart kernelEnd infoEnd map pfn := by
  simp only [PfnDatabase.Free, PfnDatabase.stateOf, bootDatabase]
  by_cases inside : pfn < highestUsable map
  · have sized : pfn < (markAvailable map
        (replicate (highestUsable map) ⟨.pfnReservedHw, 0⟩, 0)).1.length := by
      rwa [markAvailable_length, length_replicate]
    rw [buildDatabase, carveOut_entries, stateIn_setStates _ _ _ _ _ (by
      simp only [setState_length, markAvailable_length, length_replicate]
      omega), stateIn_setState, stateIn_markAvailable _ _ _ (by
      rwa [length_replicate])]
    have reserved : stateIn (replicate (highestUsable map)
        (⟨.pfnReservedHw, 0⟩ : Mmpfn)) pfn = some .pfnReservedHw := by
      simp [stateIn, inside]
    rw [reserved]
    simp only [Available, inside, true_and]
    by_cases carved : toPfn kernelStart ≤ pfn ∧
        pfn ≤ lastReserved kernelEnd infoEnd (highestUsable map)
    · rw [if_pos (by omega)]
      simp [carved]
    rw [if_neg (by omega)]
    by_cases zero : pfn = 0
    · subst pfn
      rw [if_pos ⟨rfl, sized⟩]
      simp
    · rw [if_neg (fun both => zero both.1)]
      by_cases offered : Offered map pfn
      · simp [offered, zero, carved]
      · simp [offered]
  · have missing : stateIn (buildDatabase kernelStart kernelEnd infoEnd map).1 pfn = none := by
      rw [stateIn, getElem?_eq_none (by rw [buildDatabase_length]; omega), Option.map_none]
    simp [missing, Available, inside]

theorem mmInitSystem_ok {kernelStart kernelEnd info : Nat} {memory : ByteMemory} {boot : Boot}
    (accepted : mmInitSystem kernelStart kernelEnd memory info = some (.ok boot)) :
    ∃ map, mapCopy memory info = some (some map) ∧ highestUsable map ≠ 0 ∧
      boot = initFromMap kernelStart kernelEnd ((info + memory.load 4 info) % 2 ^ 64) memory
        map := by
  unfold mmInitSystem at accepted
  split at accepted
  · cases accepted
  · cases accepted
  · rename_i map parsed
    split at accepted
    · cases accepted
    · rename_i usable
      cases accepted
      exact ⟨map, parsed, usable, rfl⟩

end MinNT.Mm
