import Mathlib.Data.Set.Card
import MinNT.Mm.Contiguous
import MinNT.Mm.PageTally

namespace MinNT.Mm

open List

/-- The page lies wholly inside an entry of available memory. -/
def MmapEntry.Holds (entry : MmapEntry) (pfn : Nat) : Prop :=
  entry.type = 1 ∧ entry.baseAddr ≤ pfn * pageSize ∧
    (pfn + 1) * pageSize ≤ entry.baseAddr + entry.length

instance (entry : MmapEntry) (pfn : Nat) : Decidable (entry.Holds pfn) :=
  inferInstanceAs (Decidable (_ ∧ _))

/-- The page lies wholly inside some available entry and below the mapped limit. -/
def Whole (map : List MmapEntry) (pfn : Nat) : Prop :=
  (∃ entry ∈ map, entry.Holds pfn) ∧ (pfn + 1) * pageSize ≤ mmBootMappedLimit

/-- The whole pages but for page 0 and the `reserved` ones. -/
def usablePages (map : List MmapEntry) (reserved : Nat → Prop) : Set Nat :=
  {pfn | Whole map pfn ∧ pfn ≠ 0 ∧ ¬ reserved pfn}

/-- The free pages after boot are `due`, and both counters are its size. -/
structure FreeExact (boot : Boot) (due : Set Nat) : Prop where
  pages : {pfn | boot.mm.pfnDatabase.Free pfn} = due
  freePages : boot.mm.freePages = due.ncard
  totalPages : boot.totalPages = due.ncard

/-- What pass 2 needs to count right: no base that wraps when it is rounded up,
nothing at page 0, and no page in two entries. -/
structure CountsOnce (map : List MmapEntry) : Prop where
  rounds : ∀ entry ∈ map, entry.type = 1 → entry.baseAddr + (pageSize - 1) < 2 ^ 64
  page0 : ¬ Whole map 0
  once : ∀ pfn, (pfn + 1) * pageSize ≤ mmBootMappedLimit →
    map.countP (fun entry => entry.Holds pfn) ≤ 1

variable {entry : MmapEntry} {memory : ByteMemory}

theorem holds_iff (unwrapped : entry.baseAddr + entry.length < 2 ^ 64)
    (rounds : entry.type = 1 → entry.baseAddr + (pageSize - 1) < 2 ^ 64) (pfn : Nat) :
    entry.Holds pfn ↔ entry.type = 1 ∧ entry.firstPfn ≤ pfn ∧ pfn < entry.lastPfn := by
  unfold MmapEntry.Holds MmapEntry.firstPfn MmapEntry.lastPfn MmapEntry.top toPfn
  rw [Nat.mod_eq_of_lt unwrapped]
  apply and_congr_right
  intro available
  rw [Nat.mod_eq_of_lt (rounds available)]
  simp only [pageSize]
  omega

theorem raiseHighest_available (highest : Nat) (available : entry.type = 1) :
    raiseHighest highest entry = max highest (toPfn (min entry.top mmBootMappedLimit)) := by
  have clipped : (if entry.top > mmBootMappedLimit then mmBootMappedLimit else entry.top) =
      min entry.top mmBootMappedLimit := by
    split <;> omega
  unfold raiseHighest
  rw [if_neg (not_not.mpr available), clipped]
  dsimp only
  split <;> omega

theorem le_raiseHighest (highest : Nat) (entry : MmapEntry) :
    highest ≤ raiseHighest highest entry := by
  by_cases available : entry.type = 1
  · rw [raiseHighest_available highest available]
    exact Nat.le_max_left _ _
  · rw [raiseHighest, if_pos available]

variable {map : List MmapEntry}

theorem top_le_highestUsable (member : entry ∈ map) (available : entry.type = 1) :
    toPfn (min entry.top mmBootMappedLimit) ≤ highestUsable map := by
  have grows : ∀ (map : List MmapEntry) (highest : Nat),
      highest ≤ map.foldl raiseHighest highest := by
    intro map
    induction map with
    | nil => exact Nat.le_refl
    | cons other map ih =>
      exact fun highest => Nat.le_trans (le_raiseHighest highest other) (ih _)
  have reached : ∀ (map : List MmapEntry) (highest : Nat), entry ∈ map →
      toPfn (min entry.top mmBootMappedLimit) ≤ map.foldl raiseHighest highest := by
    intro map
    induction map with
    | nil => exact fun _ absent => absurd absent not_mem_nil
    | cons other map ih =>
      intro highest member
      rcases mem_cons.mp member with rfl | member
      · have first := raiseHighest_available highest available
        have later := grows map (raiseHighest highest entry)
        rw [foldl_cons]
        omega
      · exact ih _ member
  exact reached map 0 member

section Map

variable {map : List MmapEntry}
  (unwrapped : ∀ entry ∈ map, entry.baseAddr + entry.length < 2 ^ 64)

include unwrapped

section Rounds

variable (rounds : ∀ entry ∈ map, entry.type = 1 → entry.baseAddr + (pageSize - 1) < 2 ^ 64)
include rounds

theorem whole_iff (pfn : Nat) : Whole map pfn ↔ Offered map pfn ∧ pfn < highestUsable map := by
  constructor
  · rintro ⟨⟨entry, member, holds⟩, below⟩
    have bounds := (holds_iff (unwrapped entry member) (rounds entry member) pfn).mp holds
    have highest := top_le_highestUsable member bounds.1
    refine ⟨⟨entry, member, bounds⟩, Nat.lt_of_lt_of_le ?_ highest⟩
    have upper := bounds.2.2
    simp only [MmapEntry.lastPfn, toPfn, pageSize] at upper below ⊢
    omega
  · rintro ⟨⟨entry, member, offered⟩, inside⟩
    have limit := highestUsable_le map
    refine ⟨⟨entry, member,
      (holds_iff (unwrapped entry member) (rounds entry member) pfn).mpr offered⟩, ?_⟩
    simp only [toPfn, pageSize] at limit ⊢
    omega

theorem countP_holds_eq (pfn : Nat) :
    map.countP (fun entry => entry.Holds pfn) = offers map pfn := by
  apply List.countP_congr
  intro entry member
  simp only [decide_eq_true_eq]
  exact holds_iff (unwrapped entry member) (rounds entry member) pfn

end Rounds

theorem rounds_of_page0 (page0 : ¬ Offered map 0) : ∀ entry ∈ map, entry.type = 1 →
    entry.baseAddr + (pageSize - 1) < 2 ^ 64 := by
  intro entry member available
  by_contra wraps
  have bound := unwrapped entry member
  apply page0
  refine ⟨entry, member, available, ?_, ?_⟩
  · simp only [MmapEntry.firstPfn, toPfn, pageSize] at wraps ⊢
    omega
  · simp only [MmapEntry.lastPfn, MmapEntry.top, toPfn, pageSize] at wraps ⊢
    omega

theorem countsOnce_iff (usable : highestUsable map ≠ 0) :
    CountsOnce map ↔
      ∀ pfn < highestUsable map, offers map pfn ≤ 1 ∧ (pfn = 0 → ¬ Offered map pfn) := by
  constructor
  · intro counts pfn inside
    have whole := whole_iff unwrapped counts.rounds
    have limit := highestUsable_le map
    constructor
    · rw [← countP_holds_eq unwrapped counts.rounds]
      apply counts.once
      simp only [toPfn, pageSize] at limit ⊢
      omega
    · rintro rfl offered
      exact counts.page0 ((whole 0).mpr ⟨offered, inside⟩)
  · intro once
    have page0 : ¬ Offered map 0 := (once 0 (Nat.pos_of_ne_zero usable)).2 rfl
    have rounds := rounds_of_page0 unwrapped page0
    have whole := whole_iff unwrapped rounds
    refine ⟨rounds, fun held => page0 ((whole 0).mp held).1, ?_⟩
    intro pfn below
    by_cases inside : pfn < highestUsable map
    · rw [countP_holds_eq unwrapped rounds]
      exact (once pfn inside).1
    · have absent : map.countP (fun entry => entry.Holds pfn) = 0 := by
        rw [countP_eq_zero]
        intro entry member holds
        exact inside ((whole pfn).mp ⟨⟨entry, member, of_decide_eq_true holds⟩, below⟩).2
      omega

end Map

theorem PfnDatabase.freeCount_eq_ncard (database : PfnDatabase) :
    database.freeCount = {pfn | database.Free pfn}.ncard := by
  have free : {pfn | database.Free pfn} = ((Finset.Ico 0 database.entries.length).filter
      (fun pfn => stateIn database.entries pfn = some .pfnFree) : Finset Nat) := by
    ext pfn
    simp only [Set.mem_ofPred_eq, Finset.coe_filter, Finset.mem_Ico]
    exact ⟨fun held => ⟨⟨Nat.zero_le _, held.lt⟩, held⟩, fun both => both.2⟩
  rw [free, Set.ncard_coe_finset, freeCount, countP_free_eq, freeBetween, Finset.card_filter]

/-- Free memory is exact for a choice of the reserved pages exactly when pass 2
counts right and the carve-out meets just those pages. -/
theorem freeExact_iff (kernelStart kernelEnd infoEnd : Nat) (memory : ByteMemory)
    (reserved : Nat → Prop) (short : map.length ≤ mmMaxMmapEntries) (usable : highestUsable map ≠ 0)
    (unwrapped : ∀ entry ∈ map, entry.baseAddr + entry.length < 2 ^ 64) :
    FreeExact (initFromMap kernelStart kernelEnd infoEnd memory map) (usablePages map reserved) ↔
      CountsOnce map ∧ ∀ pfn, Whole map pfn →
        (Carved kernelStart kernelEnd infoEnd map pfn ↔ reserved pfn) := by
  have totals := totalPages_eq_freeCount_iff kernelStart kernelEnd infoEnd map short
  rw [← countsOnce_iff unwrapped usable] at totals
  -- what is free, in terms of the whole pages
  have free : CountsOnce map → ∀ pfn,
      (bootDatabase kernelStart kernelEnd infoEnd map).Free pfn ↔
        Whole map pfn ∧ pfn ≠ 0 ∧ ¬ Carved kernelStart kernelEnd infoEnd map pfn := by
    intro counts pfn
    rw [bootDatabase_free_iff, whole_iff unwrapped counts.rounds, Available, Carved, and_assoc]
  constructor
  · intro exact'
    have counts : CountsOnce map := totals.mp (exact'.totalPages.trans exact'.freePages.symm)
    refine ⟨counts, ?_⟩
    intro pfn whole
    have nonzero : pfn ≠ 0 := by
      rintro rfl
      exact counts.page0 whole
    have same : (bootDatabase kernelStart kernelEnd infoEnd map).Free pfn ↔
        Whole map pfn ∧ pfn ≠ 0 ∧ ¬ reserved pfn := Set.ext_iff.mp exact'.pages pfn
    rw [free counts] at same
    tauto
  · rintro ⟨counts, carved⟩
    have pages : {pfn | (bootDatabase kernelStart kernelEnd infoEnd map).Free pfn} =
        usablePages map reserved := by
      ext pfn
      have same := carved pfn
      have held := free counts pfn
      simp only [Set.mem_ofPred_eq, usablePages]
      tauto
    have size : (bootDatabase kernelStart kernelEnd infoEnd map).freeCount =
        (usablePages map reserved).ncard := by
      rw [PfnDatabase.freeCount_eq_ncard, pages]
    exact ⟨pages, size, (totals.mpr counts).trans size⟩

/-- The page has a byte of `[start, finish)`. -/
def Touches (start finish pfn : Nat) : Prop :=
  max start (pfn * pageSize) < min finish ((pfn + 1) * pageSize)

/-- The pages of the kernel image, the boot information and the PFN database as
one contiguous span, with the boot information wherever it is. -/
def SpanPage (kernelStart kernelEnd info infoEnd highest pfn : Nat) : Prop :=
  Touches kernelStart (databaseEnd kernelEnd infoEnd highest) pfn ∨ Touches info infoEnd pfn

/-- The pages of the kernel image, the boot information and the PFN database,
without what lies between them. -/
def RangePage (kernelStart kernelEnd info infoEnd highest pfn : Nat) : Prop :=
  Touches kernelStart kernelEnd pfn ∨ Touches info infoEnd pfn ∨
    Touches (databaseStart kernelEnd infoEnd) (databaseEnd kernelEnd infoEnd highest) pfn

/-- No available page of the boot information lies below the kernel image. -/
def InfoAboveKernel (kernelStart info infoEnd : Nat) (map : List MmapEntry) : Prop :=
  ∀ pfn, Whole map pfn → Touches info infoEnd pfn → toPfn kernelStart ≤ pfn

/-- No available page lies between the kernel image and the boot information. -/
def NoGap (kernelEnd info : Nat) (map : List MmapEntry) : Prop :=
  ∀ pfn, Whole map pfn → kernelEnd ≤ pfn * pageSize → info < (pfn + 1) * pageSize

section Layout

variable {kernelStart kernelEnd info infoEnd highest : Nat}
  (linked : kernelEnd < 2 ^ 63) (loaded : infoEnd < 2 ^ 63)
  (limit : highest ≤ toPfn mmBootMappedLimit)

include linked loaded limit

section Nonempty

variable (nonempty : kernelStart < kernelEnd)
include nonempty

theorem carved_iff (pfn : Nat) :
    (toPfn kernelStart ≤ pfn ∧ pfn ≤ lastReserved kernelEnd infoEnd highest) ↔
      Touches kernelStart (databaseEnd kernelEnd infoEnd highest) pfn := by
  have start := databaseStart_spec linked loaded
  have finish := databaseEnd_spec linked loaded limit
  have last : decrement64 (databaseEnd kernelEnd infoEnd highest) =
      databaseEnd kernelEnd infoEnd highest - 1 := by
    rw [decrement64, if_neg (by omega)]
  rw [lastReserved, last]
  simp only [Touches, toPfn, pageSize]
  omega

theorem span_exact_iff (pfn : Nat) :
    (Touches kernelStart (databaseEnd kernelEnd infoEnd highest) pfn ↔
        SpanPage kernelStart kernelEnd info infoEnd highest pfn) ↔
      (Touches info infoEnd pfn → toPfn kernelStart ≤ pfn) := by
  have start := databaseStart_spec linked loaded
  have finish := databaseEnd_spec linked loaded limit
  -- the boot information ends before the database does
  have above : Touches info infoEnd pfn →
      (Touches kernelStart (databaseEnd kernelEnd infoEnd highest) pfn ↔
        toPfn kernelStart ≤ pfn) := by
    simp only [Touches, toPfn, pageSize]
    omega
  simp only [SpanPage]
  tauto

theorem range_exact_iff (placed : info < infoEnd) (pfn : Nat) :
    (Touches kernelStart (databaseEnd kernelEnd infoEnd highest) pfn ↔
        RangePage kernelStart kernelEnd info infoEnd highest pfn) ↔
      (Touches info infoEnd pfn → toPfn kernelStart ≤ pfn) ∧
        (kernelEnd ≤ pfn * pageSize → info < (pfn + 1) * pageSize) := by
  have start := databaseStart_spec linked loaded
  have before := start.2.2.2 pfn
  have finish := databaseEnd_spec linked loaded limit
  simp only [RangePage, Touches, toPfn, pageSize] at before start ⊢
  omega

end Nonempty

end Layout

theorem snapshotEntries_length (memory : ByteMemory) (entrySize finish room cursor : Nat) :
    (snapshotEntries memory entrySize finish room cursor).length ≤ room := by
  induction room generalizing cursor with
  | zero => exact Nat.le_refl 0
  | succ room ih =>
    rw [snapshotEntries]
    split
    · exact Nat.succ_le_succ (ih _)
    · exact Nat.zero_le _

theorem mapCopy_length {info : Nat}
    (parsed : mapCopy memory info = some (some map)) : map.length ≤ mmMaxMmapEntries := by
  simp only [mapCopy, Option.map_eq_some_iff] at parsed
  obtain ⟨tag, _, mmap, _, rfl⟩ := parsed
  exact snapshotEntries_length _ _ _ _ _

theorem findMmapTag_found {finish fuel cursor tag : Nat}
    (found : findMmapTag memory finish fuel cursor none = some (some tag)) : cursor < finish := by
  cases fuel with
  | zero => cases found
  | succ fuel =>
    rw [findMmapTag] at found
    by_contra outside
    rw [if_neg outside] at found
    cases found

theorem mapCopy_info {info : Nat} (loaded : info + memory.load 4 info < 2 ^ 63)
    (parsed : mapCopy memory info = some (some map)) : info < info + memory.load 4 info := by
  simp only [mapCopy, Option.map_eq_some_iff] at parsed
  obtain ⟨tag, walked, mmap, rfl, _⟩ := parsed
  have room := findMmapTag_found walked
  omega

/-- Free memory after boot. It is exact, with the reserved pages as one
contiguous span, when and only when pass 2 counts each page once and the boot
information is not below the kernel image. With the reserved pages taken range
by range there may be no available page between them either. -/
theorem mmInitSystem_freeExact_iff (kernelStart kernelEnd info : Nat) (memory : ByteMemory)
    (map : List MmapEntry) (boot : Boot) (nonempty : kernelStart < kernelEnd)
    (linked : kernelEnd < 2 ^ 63) (loaded : info + memory.load 4 info < 2 ^ 63)
    (parsed : mapCopy memory info = some (some map))
    (unwrapped : ∀ entry ∈ map, entry.baseAddr + entry.length < 2 ^ 64)
    (accepted : mmInitSystem kernelStart kernelEnd memory info = some (.ok boot)) :
    (FreeExact boot (usablePages map (SpanPage kernelStart kernelEnd info
        (info + memory.load 4 info) boot.mm.pfnDatabase.highestPfn)) ↔
      CountsOnce map ∧ InfoAboveKernel kernelStart info (info + memory.load 4 info) map) ∧
    (FreeExact boot (usablePages map (RangePage kernelStart kernelEnd info
        (info + memory.load 4 info) boot.mm.pfnDatabase.highestPfn)) ↔
      CountsOnce map ∧ InfoAboveKernel kernelStart info (info + memory.load 4 info) map ∧
        NoGap kernelEnd info map) := by
  obtain ⟨map', parsed', usable, rfl⟩ := mmInitSystem_ok accepted
  rw [parsed] at parsed'
  cases parsed'
  have placed := mapCopy_info loaded parsed
  have short := mapCopy_length parsed
  rw [Nat.mod_eq_of_lt (show info + memory.load 4 info < 2 ^ 64 by omega)]
  generalize info + memory.load 4 info = infoEnd at placed loaded ⊢
  have highest : (initFromMap kernelStart kernelEnd infoEnd memory
      map).mm.pfnDatabase.highestPfn = highestUsable map :=
    buildDatabase_length kernelStart kernelEnd infoEnd map
  have limit := highestUsable_le map
  have carved := carved_iff linked loaded limit nonempty
  rw [highest, freeExact_iff _ _ _ _ _ short usable unwrapped,
    freeExact_iff _ _ _ _ _ short usable unwrapped]
  simp only [Carved, carved]
  constructor
  · apply and_congr_right
    intro _
    exact forall₂_congr fun pfn _ => span_exact_iff linked loaded limit nonempty pfn
  · apply and_congr_right
    intro _
    rw [InfoAboveKernel, NoGap, ← forall₂_and]
    exact forall₂_congr fun pfn _ => range_exact_iff linked loaded limit nonempty placed pfn

/-- A machine with the pages 1 to 3 has just these free. -/
theorem pages1To3_exact :
    ∃ boot, mmInitSystem 0x100000 0x200000 (oneEntryBoot 0x1000 0x3000) 0x9000 =
        some (.ok boot) ∧
      FreeExact boot (usablePages [⟨0x1000, 0x3000, 1⟩] (RangePage 0x100000 0x200000 0x9000
        (0x9000 + (oneEntryBoot 0x1000 0x3000).load 4 0x9000)
        boot.mm.pfnDatabase.highestPfn)) := by
  have parsed : mapCopy (oneEntryBoot 0x1000 0x3000) 0x9000 =
      some (some [⟨0x1000, 0x3000, 1⟩]) := by decide +kernel
  have accepted := mmInitSystem_accepts 0x100000 0x200000 parsed (by decide +kernel)
  have whole : ∀ pfn, Whole [⟨0x1000, 0x3000, 1⟩] pfn → 1 ≤ pfn ∧ pfn < 4 := by
    rintro pfn ⟨⟨entry, member, holds⟩, _⟩
    cases mem_singleton.mp member
    simp only [MmapEntry.Holds, pageSize] at holds
    omega
  have size : (oneEntryBoot 0x1000 0x3000).load 4 0x9000 = 56 := by decide +kernel
  refine ⟨_, accepted, (mmInitSystem_freeExact_iff 0x100000 0x200000 0x9000 _ _ _ (by decide)
    (by decide) (by rw [size]; decide) parsed (by simp) accepted).2.mpr ⟨⟨?_, ?_, ?_⟩, ?_, ?_⟩⟩
  · simp [pageSize]
  · exact fun held => absurd (whole 0 held).1 (by decide)
  · exact fun pfn _ => countP_le_length
  · intro pfn held info
    have range := whole pfn held
    rw [size] at info
    simp only [Touches, pageSize] at info
    omega
  · intro pfn held above
    have range := whole pfn held
    simp only [pageSize] at above
    omega

/-- Page 0 is counted in `MmTotalPages` and is never free. -/
theorem page0_inexact :
    ¬ ∀ (kernelStart kernelEnd info : Nat) (memory : ByteMemory) (map : List MmapEntry)
      (boot : Boot), kernelStart < kernelEnd → kernelEnd < 2 ^ 63 →
      info + memory.load 4 info < 2 ^ 63 → mapCopy memory info = some (some map) →
      (∀ entry ∈ map, entry.baseAddr + entry.length < 2 ^ 64) →
      mmInitSystem kernelStart kernelEnd memory info = some (.ok boot) →
      FreeExact boot (usablePages map (SpanPage kernelStart kernelEnd info
          (info + memory.load 4 info) boot.mm.pfnDatabase.highestPfn)) ∨
        FreeExact boot (usablePages map (RangePage kernelStart kernelEnd info
          (info + memory.load 4 info) boot.mm.pfnDatabase.highestPfn)) := by
  intro always
  have parsed : mapCopy (oneEntryBoot 0 0x3000) 0x9000 = some (some [⟨0, 0x3000, 1⟩]) := by
    decide +kernel
  have accepted := mmInitSystem_accepts 0x100000 0x200000 parsed (by decide +kernel)
  have size : (oneEntryBoot 0 0x3000).load 4 0x9000 = 56 := by decide +kernel
  have differ : (initFromMap 0x100000 0x200000
      ((0x9000 + (oneEntryBoot 0 0x3000).load 4 0x9000) % 2 ^ 64) (oneEntryBoot 0 0x3000)
      [⟨0, 0x3000, 1⟩]).totalPages ≠
      (initFromMap 0x100000 0x200000
        ((0x9000 + (oneEntryBoot 0 0x3000).load 4 0x9000) % 2 ^ 64) (oneEntryBoot 0 0x3000)
        [⟨0, 0x3000, 1⟩]).mm.freePages := by
    decide +kernel
  rcases always 0x100000 0x200000 0x9000 _ _ _ (by decide) (by decide) (by rw [size]; decide)
      parsed (by simp) accepted with same | same
  · exact differ (same.totalPages.trans same.freePages.symm)
  · exact differ (same.totalPages.trans same.freePages.symm)

end MinNT.Mm
