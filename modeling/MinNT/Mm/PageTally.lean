import Mathlib.Algebra.BigOperators.Intervals
import Mathlib.Algebra.Order.BigOperators.Group.Finset
import MinNT.Mm.InitSystem

namespace MinNT.Mm

open List

/-- How many entries offer the page. -/
def offers (map : List MmapEntry) (pfn : Nat) : Nat :=
  map.countP (fun entry => entry.type = 1 ∧ entry.firstPfn ≤ pfn ∧ pfn < entry.lastPfn)

theorem offers_pos_iff (map : List MmapEntry) (pfn : Nat) :
    0 < offers map pfn ↔ Offered map pfn := by
  simp only [offers, countP_pos_iff, Offered, decide_eq_true_eq]

theorem offers_cons (entry : MmapEntry) (map : List MmapEntry) (pfn : Nat) :
    offers (entry :: map) pfn = offers map pfn +
      if entry.type = 1 ∧ entry.firstPfn ≤ pfn ∧ pfn < entry.lastPfn then 1 else 0 := by
  simp only [offers, countP_cons, decide_eq_true_eq]

theorem sum_range_between (first last count : Nat) :
    (∑ pfn ∈ Finset.range count, if first ≤ pfn ∧ pfn < last then 1 else 0) =
      min last count - first := by
  have between : (Finset.range count).filter (fun pfn => first ≤ pfn ∧ pfn < last) =
      Finset.Ico first (min last count) := by
    ext pfn
    simp only [Finset.mem_filter, Finset.mem_range, Finset.mem_Ico]
    omega
  rw [← Finset.card_filter, between, Nat.card_Ico]

theorem markFree_total (count pfn : Nat) (pages : List Mmpfn × Nat)
    (fits : pages.2 + count < 2 ^ 64) : (markFree count pfn pages).2 = pages.2 + count := by
  induction count generalizing pfn pages with
  | zero => rfl
  | succ count ih =>
    rw [markFree, ih _ _ (by dsimp only; omega)]
    dsimp only
    omega

theorem markAvailable_total (map : List MmapEntry) (pages : List Mmpfn × Nat)
    (fits : pages.2 + map.length * pages.1.length < 2 ^ 64) :
    (markAvailable map pages).2 =
      pages.2 + ∑ pfn ∈ Finset.range pages.1.length, offers map pfn := by
  induction map generalizing pages with
  | nil => simp [markAvailable, offers]
  | cons entry map ih =>
    have unfolded : markAvailable (entry :: map) pages = markAvailable map
        (if entry.type ≠ 1 then pages
        else markFree (min entry.lastPfn pages.1.length - entry.firstPfn) entry.firstPfn
          pages) := rfl
    rw [length_cons, Nat.add_mul, Nat.one_mul] at fits
    simp only [unfolded, offers_cons, Finset.sum_add_distrib]
    by_cases available : entry.type = 1
    · have marked := markFree_total (min entry.lastPfn pages.1.length - entry.firstPfn)
        entry.firstPfn pages (by omega)
      rw [if_neg (not_not.mpr available), ih _ (by rw [markFree_length, marked]; omega),
        markFree_length, marked]
      simp only [available, true_and, sum_range_between]
      omega
    · rw [if_pos available, ih _ (by omega)]
      simp [available]

/-- How many entries of `[first, last)` are `PfnFree`. -/
def freeBetween (entries : List Mmpfn) (first last : Nat) : Nat :=
  ∑ pfn ∈ Finset.Ico first last, if stateIn entries pfn = some .pfnFree then 1 else 0

theorem freeBetween_first (entries : List Mmpfn) {first last : Nat} (nonempty : first < last) :
    freeBetween entries first last =
      (if stateIn entries first = some .pfnFree then 1 else 0) +
        freeBetween entries (first + 1) last :=
  Finset.sum_eq_sum_Ico_succ_bot nonempty _

theorem freeBetween_setState (entries : List Mmpfn) {pfn first : Nat} (last : Nat)
    (state : PageState) (below : pfn < first) :
    freeBetween (setState entries pfn state) first last = freeBetween entries first last := by
  apply Finset.sum_congr rfl
  intro other member
  have range := Finset.mem_Ico.mp member
  have different : ¬ (other = pfn ∧ pfn < entries.length) := by omega
  rw [stateIn_setState, if_neg different]

theorem carveOut_total (count pfn : Nat) (pages : List Mmpfn × Nat)
    (inside : pfn + count ≤ pages.1.length)
    (enough : freeBetween pages.1 pfn (pfn + count) ≤ pages.2) :
    (carveOut count pfn pages).2 + freeBetween pages.1 pfn (pfn + count) = pages.2 := by
  induction count generalizing pfn pages with
  | zero => simp [carveOut, freeBetween]
  | succ count ih =>
    have first := freeBetween_first pages.1 (show pfn < pfn + 1 + count by omega)
    rw [show pfn + (count + 1) = pfn + 1 + count by omega] at enough ⊢
    rw [first] at enough ⊢
    -- the page just carved is not met again
    have later := freeBetween_setState pages.1 (pfn + 1 + count) .pfnKernelImage
      (show pfn < pfn + 1 by omega)
    have rest := ih (pfn + 1)
      (setState pages.1 pfn .pfnKernelImage,
        if stateIn pages.1 pfn = some .pfnFree then decrement64 pages.2 else pages.2)
      (by rw [setState_length]; omega)
    simp only [later] at rest
    rw [carveOut]
    by_cases free : stateIn pages.1 pfn = some .pfnFree
    · simp only [if_pos free] at enough rest ⊢
      have lowered : decrement64 pages.2 = pages.2 - 1 := by
        rw [decrement64, if_neg (by omega)]
      rw [lowered] at rest ⊢
      have := rest (by omega)
      omega
    · simp only [if_neg free] at enough rest ⊢
      have := rest (by omega)
      omega

theorem countP_free_eq (entries : List Mmpfn) :
    entries.countP (fun entry => entry.state = .pfnFree) =
      freeBetween entries 0 entries.length := by
  rw [freeBetween, ← Finset.range_eq_Ico]
  induction entries with
  | nil => rfl
  | cons entry entries ih =>
    rw [length_cons, Finset.sum_range_succ', countP_cons, ih]
    simp [stateIn]

variable (kernelStart kernelEnd infoEnd : Nat) (map : List MmapEntry)

/-- The page lies in the span that the last loop takes back. -/
def Carved (pfn : Nat) : Prop :=
  toPfn kernelStart ≤ pfn ∧ pfn ≤ lastReserved kernelEnd infoEnd (highestUsable map)

instance (pfn : Nat) : Decidable (Carved kernelStart kernelEnd infoEnd map pfn) :=
  inferInstanceAs (Decidable (_ ∧ _))

theorem markedState_free_iff {pfn : Nat} (inside : pfn < highestUsable map) :
    stateIn (setState (markAvailable map
        (replicate (highestUsable map) ⟨.pfnReservedHw, 0⟩, 0)).1 0 .pfnReservedHw) pfn =
        some .pfnFree ↔ Offered map pfn ∧ pfn ≠ 0 := by
  have reserved : stateIn (replicate (highestUsable map)
      (⟨.pfnReservedHw, 0⟩ : Mmpfn)) pfn = some .pfnReservedHw := by
    simp [stateIn, inside]
  rw [stateIn_setState, stateIn_markAvailable _ _ _ (by rwa [length_replicate]), reserved,
    markAvailable_length, length_replicate]
  by_cases zero : pfn = 0
  · rw [if_pos (by omega)]
    simp [zero]
  · rw [if_neg (fun both => zero both.1)]
    by_cases offered : Offered map pfn
    · simp [offered, zero]
    · simp [offered]

/-- The page would be free, were it not for the carve-out. -/
def OfferedAbove0 (pfn : Nat) : Prop := Offered map pfn ∧ pfn ≠ 0

instance (pfn : Nat) : Decidable (OfferedAbove0 map pfn) :=
  inferInstanceAs (Decidable (_ ∧ _))

theorem offeredAbove0_le_offers (pfn : Nat) :
    (if OfferedAbove0 map pfn then 1 else 0) ≤ offers map pfn := by
  split
  · rename_i offered
    exact (offers_pos_iff map pfn).mpr offered.1
  · exact Nat.zero_le _

theorem freeBetween_carved :
    freeBetween (setState (markAvailable map
        (replicate (highestUsable map) ⟨.pfnReservedHw, 0⟩, 0)).1 0 .pfnReservedHw)
      (toPfn kernelStart) (toPfn kernelStart +
        (min (lastReserved kernelEnd infoEnd (highestUsable map) + 1) (highestUsable map) -
          toPfn kernelStart)) =
      ∑ pfn ∈ Finset.range (highestUsable map),
        if OfferedAbove0 map pfn ∧ Carved kernelStart kernelEnd infoEnd map pfn then 1 else 0 := by
  rw [freeBetween, ← Finset.card_filter, ← Finset.card_filter]
  congr 1
  ext pfn
  rw [Finset.mem_filter, Finset.mem_filter, Finset.mem_Ico, Finset.mem_range]
  by_cases inside : pfn < highestUsable map
  · have range : (toPfn kernelStart ≤ pfn ∧ pfn < toPfn kernelStart +
        (min (lastReserved kernelEnd infoEnd (highestUsable map) + 1) (highestUsable map) -
          toPfn kernelStart)) ↔ Carved kernelStart kernelEnd infoEnd map pfn := by
      rw [Carved]
      omega
    rw [markedState_free_iff map inside, range]
    simp only [OfferedAbove0]
    tauto
  · omega

theorem buildDatabase_total (short : map.length ≤ mmMaxMmapEntries) :
    (buildDatabase kernelStart kernelEnd infoEnd map).2 +
        (∑ pfn ∈ Finset.range (highestUsable map),
          if OfferedAbove0 map pfn ∧ Carved kernelStart kernelEnd infoEnd map pfn then 1 else 0) =
      ∑ pfn ∈ Finset.range (highestUsable map), offers map pfn := by
  have fits : map.length * highestUsable map < 2 ^ 64 := by
    calc map.length * highestUsable map ≤ mmMaxMmapEntries * toPfn mmBootMappedLimit :=
          Nat.mul_le_mul short (highestUsable_le map)
      _ < 2 ^ 64 := by decide
  have marked := markAvailable_total map (replicate (highestUsable map) ⟨.pfnReservedHw, 0⟩, 0)
    (by simp only [length_replicate]; omega)
  simp only [length_replicate, Nat.zero_add] at marked
  have part : (∑ pfn ∈ Finset.range (highestUsable map),
      if OfferedAbove0 map pfn ∧ Carved kernelStart kernelEnd infoEnd map pfn then 1 else 0) ≤
      ∑ pfn ∈ Finset.range (highestUsable map), offers map pfn := by
    apply Finset.sum_le_sum
    intro pfn _
    have offered := offeredAbove0_le_offers map pfn
    by_cases above : OfferedAbove0 map pfn
    · rw [if_pos above] at offered
      split <;> omega
    · simp [above]
  rw [← freeBetween_carved, ← marked] at part ⊢
  by_cases empty : min (lastReserved kernelEnd infoEnd (highestUsable map) + 1)
      (highestUsable map) ≤ toPfn kernelStart
  · rw [buildDatabase, Nat.sub_eq_zero_of_le empty]
    simp [carveOut, freeBetween]
  · exact carveOut_total _ _ _
      (by simp only [setState_length, markAvailable_length, length_replicate]; omega) part

theorem bootDatabase_freeCount :
    (bootDatabase kernelStart kernelEnd infoEnd map).freeCount =
      ∑ pfn ∈ Finset.range (highestUsable map),
        if OfferedAbove0 map pfn ∧ ¬ Carved kernelStart kernelEnd infoEnd map pfn
        then 1 else 0 := by
  rw [PfnDatabase.freeCount, countP_free_eq, freeBetween, ← Finset.range_eq_Ico]
  have sized : (bootDatabase kernelStart kernelEnd infoEnd map).entries.length =
      highestUsable map := buildDatabase_length kernelStart kernelEnd infoEnd map
  rw [sized]
  apply Finset.sum_congr rfl
  intro pfn member
  have inside := Finset.mem_range.mp member
  have free := bootDatabase_free_iff kernelStart kernelEnd infoEnd map pfn
  have same : (bootDatabase kernelStart kernelEnd infoEnd map).Free pfn ↔
      OfferedAbove0 map pfn ∧ ¬ Carved kernelStart kernelEnd infoEnd map pfn := by
    rw [free]
    simp only [Available, OfferedAbove0, Carved]
    tauto
  simp only [PfnDatabase.Free, PfnDatabase.stateOf] at same
  simp only [same]

/-- `MmTotalPages` is the number of free pages exactly when no page is offered
twice and page 0 is not offered: page 0 is counted and not taken off. -/
theorem totalPages_eq_freeCount_iff (short : map.length ≤ mmMaxMmapEntries) :
    (buildDatabase kernelStart kernelEnd infoEnd map).2 =
        (bootDatabase kernelStart kernelEnd infoEnd map).freeCount ↔
      ∀ pfn < highestUsable map, offers map pfn ≤ 1 ∧ (pfn = 0 → ¬ Offered map pfn) := by
  have total := buildDatabase_total kernelStart kernelEnd infoEnd map short
  have parts : (∑ pfn ∈ Finset.range (highestUsable map),
      if OfferedAbove0 map pfn ∧ ¬ Carved kernelStart kernelEnd infoEnd map pfn then 1 else 0) +
      (∑ pfn ∈ Finset.range (highestUsable map),
        if OfferedAbove0 map pfn ∧ Carved kernelStart kernelEnd infoEnd map pfn then 1 else 0) =
      ∑ pfn ∈ Finset.range (highestUsable map), if OfferedAbove0 map pfn then 1 else 0 := by
    rw [← Finset.sum_add_distrib]
    apply Finset.sum_congr rfl
    intro pfn _
    by_cases offered : OfferedAbove0 map pfn <;>
      by_cases carved : Carved kernelStart kernelEnd infoEnd map pfn <;> simp [offered, carved]
  have sums : (buildDatabase kernelStart kernelEnd infoEnd map).2 =
      (bootDatabase kernelStart kernelEnd infoEnd map).freeCount ↔
      (∑ pfn ∈ Finset.range (highestUsable map), if OfferedAbove0 map pfn then 1 else 0) =
        ∑ pfn ∈ Finset.range (highestUsable map), offers map pfn := by
    rw [bootDatabase_freeCount]
    omega
  rw [sums, Finset.sum_eq_sum_iff_of_le (fun pfn _ => offeredAbove0_le_offers map pfn)]
  simp only [Finset.mem_range]
  apply forall₂_congr
  intro pfn _
  have positive := offers_pos_iff map pfn
  by_cases offered : Offered map pfn
  · have counted := positive.mpr offered
    by_cases zero : pfn = 0
    · rw [if_neg (fun above => above.2 zero)]
      exact ⟨fun same => by omega, fun both => absurd offered (both.2 zero)⟩
    · rw [if_pos ⟨offered, zero⟩]
      exact ⟨fun same => ⟨by omega, fun first => absurd first zero⟩,
        fun both => Nat.le_antisymm counted both.1⟩
  · have counted := mt positive.mp offered
    rw [if_neg (fun above => offered above.1)]
    exact ⟨fun same => ⟨by omega, fun _ => offered⟩, fun _ => by omega⟩

end MinNT.Mm
