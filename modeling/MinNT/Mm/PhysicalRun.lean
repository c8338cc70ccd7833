import MinNT.Mm.PhysicalPage

namespace MinNT.Mm

open List PfnDatabase

/-- The first page frame above 1 MB, where `MmInitSystem` starts the hint. -/
def mmFirstHint : Nat := 0x100

/-- The state `MmInitSystem` leaves behind, for any PFN database. -/
structure Fresh (mm : MmState) : Prop where
  hint : mm.hintPfn = mmFirstHint
  counted : mm.freePages = mm.pfnDatabase.freeCount

/-- One completed call on the physical allocator. -/
inductive PageEvent where
  | allocated (pa : Nat)
  | freed (pa : Nat)
deriving DecidableEq, Repr

/-- The pages in use after one more call; a failed allocation hands out nothing. -/
def holdAfter (held : List Nat) : PageEvent → List Nat
  | .allocated pa => if pa = 0 then held else pa :: held
  | .freed pa => held.erase pa

/-- The pages handed out by a history and not freed since. -/
def heldPages (history : List PageEvent) : List Nat :=
  history.foldl holdAfter []

/-- Histories of the two calls, oldest event first. A free is only made for a
page that is currently allocated. -/
inductive PageRun (start : MmState) : MmState → List PageEvent → Prop
  | nil : PageRun start start []
  | allocate {mm : MmState} {history : List PageEvent} (run : PageRun start mm history) :
      PageRun start (mmAllocatePhysicalPage mm).2
        (history ++ [.allocated (mmAllocatePhysicalPage mm).1])
  | free {mm after : MmState} {history : List PageEvent} {pa : Nat}
      (run : PageRun start mm history) (held : pa ∈ heldPages history)
      (done : mmFreePhysicalPage mm pa = .ok after) :
      PageRun start after (history ++ [.freed pa])

/-- Between two hand-outs of one page there is a free of it. -/
def FreedBetween (history : List PageEvent) : Prop :=
  ∀ before between after pa, pa ≠ 0 →
    history = before ++ .allocated pa :: between ++ .allocated pa :: after →
    .freed pa ∈ between

/-- What every history keeps. `held` are the pages in use; the frames below the
first hint are never touched. -/
structure PageInv (start mm : MmState) (held : List Nat) : Prop where
  sameSize : mm.pfnDatabase.highestPfn = start.pfnDatabase.highestPfn
  hintLower : mmFirstHint ≤ mm.hintPfn
  counted : mm.freePages = mm.pfnDatabase.freeCount
  belowHint : ∀ pfn, mmFirstHint ≤ pfn → pfn < mm.hintPfn → ¬ mm.pfnDatabase.Free pfn
  freeAtStart : ∀ pfn, mm.pfnDatabase.Free pfn → start.pfnDatabase.Free pfn
  heldOnce : held.Nodup
  heldPage : ∀ pa ∈ held, ∃ pfn, pa = pfn * pageSize ∧ mmFirstHint ≤ pfn ∧
    start.pfnDatabase.Free pfn ∧ mm.pfnDatabase.stateOf pfn = some .pfnActive

@[simp] theorem heldPages_append (history : List PageEvent) (event : PageEvent) :
    heldPages (history ++ [event]) = holdAfter (heldPages history) event := by
  simp only [heldPages, foldl_append, foldl_cons, foldl_nil]

theorem toPfn_address (pfn : Nat) : toPfn (pfn * pageSize) = pfn :=
  Nat.mul_div_cancel pfn (by decide)

theorem pageInv_start (start : MmState) (fresh : Fresh start) : PageInv start start [] where
  sameSize := rfl
  hintLower := Nat.le_of_eq fresh.hint.symm
  counted := fresh.counted
  belowHint := by
    intro pfn lower upper
    rw [fresh.hint] at upper
    omega
  freeAtStart := fun _ free => free
  heldOnce := nodup_nil
  heldPage := by
    intro pa member
    cases member

variable {start mm : MmState}

/-- The first free page goes to a holder. -/
theorem pageInv_take {held : List Nat} (inv : PageInv start mm held)
    (pfn : Nat) (memory : ByteMemory) (lower : mm.hintPfn ≤ pfn) (free : mm.pfnDatabase.Free pfn)
    (first : ∀ earlier, mm.hintPfn ≤ earlier → earlier < pfn → ¬ mm.pfnDatabase.Free earlier) :
    PageInv start
      { pfnDatabase := mm.pfnDatabase.set pfn ⟨.pfnActive, 1⟩
        freePages := decrement64 mm.freePages
        hintPfn := pfn + 1
        memory := memory } (pfn * pageSize :: held) := by
  have inside := free.lt
  have hintLower := inv.hintLower
  have stillFree : ∀ other, (mm.pfnDatabase.set pfn ⟨.pfnActive, 1⟩).Free other →
      other ≠ pfn ∧ mm.pfnDatabase.Free other := by
    intro other otherFree
    rw [free_set_iff _ _ _ _ inside] at otherFree
    split at otherFree
    · cases otherFree
    · rename_i different
      exact ⟨different, otherFree⟩
  have fresh : pfn * pageSize ∉ held := by
    intro member
    obtain ⟨other, address, _, _, active⟩ := inv.heldPage _ member
    have same : pfn = other := Nat.eq_of_mul_eq_mul_right (by decide) address
    subst other
    rw [PfnDatabase.Free, active] at free
    cases free
  refine ⟨?_, ?_, ?_, ?_, ?_, nodup_cons.mpr ⟨fresh, inv.heldOnce⟩, ?_⟩
  · simpa only [set_highestPfn] using inv.sameSize
  · dsimp only
    omega
  · have count := freeCount_set_taken mm.pfnDatabase pfn ⟨.pfnActive, 1⟩ free
      (by decide)
    have counted := inv.counted
    have positive : mm.freePages ≠ 0 := by omega
    simp only [decrement64, positive, ↓reduceIte]
    omega
  · intro other low high otherFree
    obtain ⟨different, wasFree⟩ := stillFree other otherFree
    dsimp only at high
    by_cases below : other < mm.hintPfn
    · exact inv.belowHint other low below wasFree
    · exact first other (by omega) (by omega) wasFree
  · intro other otherFree
    exact inv.freeAtStart other (stillFree other otherFree).2
  · intro pa member
    rcases mem_cons.mp member with rfl | older
    · exact ⟨pfn, rfl, by omega, inv.freeAtStart pfn free, stateOf_set_same _ _ _ inside⟩
    · obtain ⟨other, address, low, wasFree, active⟩ := inv.heldPage pa older
      have different : other ≠ pfn := by
        rintro rfl
        exact fresh (address ▸ older)
      refine ⟨other, address, low, wasFree, ?_⟩
      rw [stateOf_set_other _ _ _ _ different, active]

/-- Returning a page that is in use keeps the invariant, wherever it lies
relative to the hint. -/
theorem pageInv_release {held : List Nat} (inv : PageInv start mm held)
    (pa : Nat) (member : pa ∈ held) :
    PageInv start
      { mm with
        pfnDatabase := mm.pfnDatabase.set (toPfn pa) ⟨.pfnFree, 0⟩
        freePages := (mm.freePages + 1) % 2 ^ 64
        hintPfn := min (toPfn pa) mm.hintPfn } (held.erase pa) := by
  obtain ⟨pfn, rfl, low, wasFree, active⟩ := inv.heldPage pa member
  rw [toPfn_address]
  have inside := stateOf_lt active
  have small := mm.pfnDatabase.highestPfn_le
  have taken : ¬ mm.pfnDatabase.Free pfn := by
    rw [PfnDatabase.Free, active]
    simp
  have nowFree : ∀ other, (mm.pfnDatabase.set pfn ⟨.pfnFree, 0⟩).Free other →
      other = pfn ∨ mm.pfnDatabase.Free other := by
    intro other otherFree
    rw [free_set_iff _ _ _ _ inside] at otherFree
    split at otherFree
    · rename_i same
      exact .inl same
    · exact .inr otherFree
  refine ⟨?_, ?_, ?_, ?_, ?_, inv.heldOnce.erase _, ?_⟩
  · simpa only [set_highestPfn] using inv.sameSize
  · have hintLower := inv.hintLower
    dsimp only
    omega
  · have count := freeCount_set_released mm.pfnDatabase pfn ⟨.pfnFree, 0⟩ inside
      taken rfl
    have bound := mm.pfnDatabase.freeCount_le
    have counted := inv.counted
    dsimp only
    omega
  · intro other lower upper otherFree
    dsimp only at upper
    rcases nowFree other otherFree with rfl | free
    · omega
    · exact inv.belowHint other lower (by omega) free
  · intro other otherFree
    rcases nowFree other otherFree with rfl | free
    · exact wasFree
    · exact inv.freeAtStart other free
  · intro pa member
    obtain ⟨different, member⟩ := (inv.heldOnce.mem_erase_iff).mp member
    obtain ⟨other, address, otherLow, otherFree, otherActive⟩ := inv.heldPage pa member
    have apart : other ≠ pfn := by
      rintro rfl
      exact different address
    refine ⟨other, address, otherLow, otherFree, ?_⟩
    rw [stateOf_set_other _ _ _ _ apart, otherActive]

/-- An allocation hands out a page that nobody holds. -/
theorem pageInv_allocate {held : List Nat} (inv : PageInv start mm held) :
    PageInv start (mmAllocatePhysicalPage mm).2
        (holdAfter held (.allocated (mmAllocatePhysicalPage mm).1)) ∧
      ((mmAllocatePhysicalPage mm).1 ≠ 0 → (mmAllocatePhysicalPage mm).1 ∉ held ∧
        ∃ pfn, (mmAllocatePhysicalPage mm).1 = pfn * pageSize ∧ start.pfnDatabase.Free pfn) ∧
      ((mmAllocatePhysicalPage mm).1 = 0 ↔
        ∀ pfn, mmFirstHint ≤ pfn → ¬ mm.pfnDatabase.Free pfn) := by
  have hintLower := inv.hintLower
  have hintPositive : 0 < mm.hintPfn := Nat.lt_of_lt_of_le (by decide) hintLower
  rcases mmAllocatePhysicalPage_cases mm hintPositive with
    ⟨result, none⟩ | ⟨pfn, lower, free, first, result⟩
  · rw [result]
    refine ⟨inv, fun nonzero => absurd rfl nonzero, fun _ pfn low => ?_, fun _ => rfl⟩
    by_cases below : pfn < mm.hintPfn
    · exact inv.belowHint pfn low below
    · exact none pfn (by omega)
  · have nonzero : pfn * pageSize ≠ 0 := by
      simp only [pageSize]
      omega
    have taken := pageInv_take inv pfn (mm.memory.write (pfn * pageSize)
      (replicate pageSize 0)) lower free first
    rw [result]
    refine ⟨by simpa only [holdAfter, nonzero, ↓reduceIte] using taken, fun _ => ⟨?_, pfn, rfl,
      inv.freeAtStart pfn free⟩, fun zero => absurd zero nonzero, fun none => ?_⟩
    · exact (nodup_cons.mp taken.heldOnce).1
    · exact absurd free (none pfn (by omega))

variable {history : List PageEvent}

theorem pageInv_run (fresh : Fresh start)
    (run : PageRun start mm history) : PageInv start mm (heldPages history) := by
  induction run with
  | nil => exact pageInv_start start fresh
  | allocate run ih =>
    rw [heldPages_append]
    exact (pageInv_allocate ih).1
  | @free mm after history pa run held done ih =>
    obtain ⟨pfn, rfl, _, _, active⟩ := ih.heldPage pa held
    have released := pageInv_release ih (pfn * pageSize) held
    rw [mmFreePhysicalPage_active mm _ (by rw [toPfn_address]; exact active)] at done
    cases done
    rw [heldPages_append]
    exact released

theorem held_until_freed (history later : List PageEvent) (pa : Nat) (held : pa ∈ heldPages history)
    (kept : .freed pa ∉ later) : pa ∈ heldPages (history ++ later) := by
  induction later generalizing history with
  | nil => simpa using held
  | cons event later ih =>
    have step : pa ∈ heldPages (history ++ [event]) := by
      rw [heldPages_append]
      cases event with
      | allocated other =>
        simp only [holdAfter]
        split
        · exact held
        · exact mem_cons_of_mem _ held
      | freed other =>
        have different : pa ≠ other := by
          rintro rfl
          exact kept (by simp)
        exact (mem_erase_of_ne different).mpr held
    have rest := ih (history ++ [event]) step (fun member => kept (mem_cons_of_mem _ member))
    simpa only [append_assoc, singleton_append] using rest

/-- Only a new last event can break the rule, and only by handing out a page
that the history before it still holds. -/
theorem freedBetween_append (history : List PageEvent) (event : PageEvent)
    (old : FreedBetween history)
    (last : ∀ before between pa, pa ≠ 0 → event = .allocated pa →
      history = before ++ .allocated pa :: between → .freed pa ∈ between) :
    FreedBetween (history ++ [event]) := by
  intro before between after pa nonzero parts
  rcases eq_nil_or_concat after with rfl | ⟨earlier, final, rfl⟩
  · obtain ⟨front, back⟩ := append_inj' parts rfl
    exact last before between pa nonzero (head_eq_of_cons_eq back) front
  · have regrouped : history ++ [event] =
        (before ++ .allocated pa :: between ++ .allocated pa :: earlier) ++ [final] := by
      simpa using parts
    exact old before between earlier pa nonzero (append_inj' regrouped rfl).1

theorem run_freedBetween (fresh : Fresh start)
    (run : PageRun start mm history) : FreedBetween history := by
  induction run with
  | nil =>
    intro before between after pa _ parts
    simp at parts
  | @allocate mm history run ih =>
    apply freedBetween_append history _ ih
    intro before between pa nonzero event parts
    have address : (mmAllocatePhysicalPage mm).1 = pa := by simpa using event
    have notHeld := ((pageInv_allocate (pageInv_run fresh run)).2.1 (address ▸ nonzero)).1
    by_contra kept
    apply notHeld
    have taken : pa ∈ heldPages (before ++ [.allocated pa]) := by
      simp [holdAfter, nonzero]
    rw [address, parts, append_cons]
    exact held_until_freed _ _ _ taken kept
  | @free mm after history other run held done ih =>
    apply freedBetween_append history _ ih
    intro before between pa _ event
    cases event

/-- Only frames that were free at the start are handed out. -/
theorem run_handsOutStartFree (fresh : Fresh start) (run : PageRun start mm history) :
    ∀ pa, .allocated pa ∈ history → pa ≠ 0 →
      ∃ pfn, pa = pfn * pageSize ∧ start.pfnDatabase.Free pfn := by
  induction run with
  | nil => intro pa member; cases member
  | @allocate mm history run ih =>
    intro pa member nonzero
    rcases mem_append.mp member with member | member
    · exact ih pa member nonzero
    · have address : pa = (mmAllocatePhysicalPage mm).1 := by simpa using member
      subst pa
      exact ((pageInv_allocate (pageInv_run fresh run)).2.1 nonzero).2
  | free run held done ih =>
    intro pa member nonzero
    rcases mem_append.mp member with member | member
    · exact ih pa member nonzero
    · simp at member

/-- The physical page allocator over every history of allocations and frees. No
free of a held page trips an assertion, so histories never get stuck. -/
theorem physicalPageAllocator_correct (start mm : MmState) (history : List PageEvent)
    (fresh : Fresh start) (run : PageRun start mm history) :
    FreedBetween history ∧
      (∀ pa, .allocated pa ∈ history → pa ≠ 0 →
        ∃ pfn, pa = pfn * pageSize ∧ start.pfnDatabase.Free pfn) ∧
      mm.freePages = mm.pfnDatabase.freeCount ∧
      (∀ pfn, mmFirstHint ≤ pfn → pfn < mm.hintPfn → ¬ mm.pfnDatabase.Free pfn) ∧
      ((mmAllocatePhysicalPage mm).1 = 0 ↔
        ∀ pfn, mmFirstHint ≤ pfn → ¬ mm.pfnDatabase.Free pfn) ∧
      (∀ pa ∈ heldPages history, ∃ after, mmFreePhysicalPage mm pa = .ok after) := by
  have inv := pageInv_run fresh run
  refine ⟨run_freedBetween fresh run, run_handsOutStartFree fresh run, inv.counted,
    inv.belowHint, (pageInv_allocate inv).2.2, ?_⟩
  intro pa held
  obtain ⟨pfn, rfl, _, _, active⟩ := inv.heldPage pa held
  exact ⟨_, mmFreePhysicalPage_active mm _ (by rw [toPfn_address]; exact active)⟩

/-- A machine with exactly one free page above 1 MB. -/
def onePageMm : MmState where
  pfnDatabase := ⟨replicate 0x100 ⟨.pfnReservedHw, 0⟩ ++ [⟨.pfnFree, 0⟩], by decide +kernel⟩
  freePages := 1
  hintPfn := 0x100
  memory := fun _ => 0

/-- On that machine the page is handed out again once it has been freed. -/
theorem onePage_reused : ∃ mm, PageRun onePageMm mm
      [.allocated 0x100000, .freed 0x100000, .allocated 0x100000] ∧
    FreedBetween [.allocated 0x100000, .freed 0x100000, .allocated 0x100000] := by
  have fresh : Fresh onePageMm := ⟨by decide, by decide +kernel⟩
  have first : (mmAllocatePhysicalPage onePageMm).1 = 0x100000 := by decide +kernel
  have taken := PageRun.allocate (PageRun.nil : PageRun onePageMm onePageMm [])
  rw [first] at taken
  have freed := mmFreePhysicalPage_active (mmAllocatePhysicalPage onePageMm).2 0x100000
    (by decide +kernel)
  have released := PageRun.free taken (by decide) freed
  have again := PageRun.allocate released
  have second : (mmAllocatePhysicalPage
      { (mmAllocatePhysicalPage onePageMm).2 with
        pfnDatabase := (mmAllocatePhysicalPage onePageMm).2.pfnDatabase.set
          (toPfn 0x100000) ⟨.pfnFree, 0⟩
        freePages := ((mmAllocatePhysicalPage onePageMm).2.freePages + 1) % 2 ^ 64
        hintPfn := min (toPfn 0x100000)
          (mmAllocatePhysicalPage onePageMm).2.hintPfn }).1 = 0x100000 := by
    decide +kernel
  rw [second] at again
  exact ⟨_, again, (physicalPageAllocator_correct onePageMm _ _ fresh again).1⟩

end MinNT.Mm
