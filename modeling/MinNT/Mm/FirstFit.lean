import Mathlib.Order.Bounds.Basic
import MinNT.Mm.VirtualMemory

/-! Where `MmAllocateVirtualMemory` puts a region. -/

namespace MinNT.Mm

open List

/-- The collision loop with its cursor: `remaining` is the list from `existing` on, and a collision
goes back to `VadRoot`. `none` is a loop that has not ended. -/
def collisionLoop (vads : List MmVad) (size : Nat) : Nat → Nat → List MmVad → Option Nat
  | 0, _, _ => none
  | _ + 1, base, [] => some base
  | fuel + 1, base, existing :: remaining =>
      if existing.Collides base size then collisionLoop vads size fuel existing.endingVa vads
      else collisionLoop vads size fuel base remaining

/-- The bases that the loop compares the VADs with. -/
def collisionBases (vads : List MmVad) (size : Nat) : Nat → Nat → List Nat
  | 0, base => [base]
  | restarts + 1, base =>
      base ::
        match vads.find? fun existing => existing.Collides base size with
        | none => []
        | some existing => collisionBases vads size restarts existing.endingVa

/-- No VAD reaches into the region, not even one without an address of its own. -/
def ClearAt (vads : List MmVad) (size base : Nat) : Prop :=
  ∀ vad ∈ vads, base + size ≤ vad.startingVa ∨ vad.endingVa ≤ base

instance (vads : List MmVad) (size base : Nat) : Decidable (ClearAt vads size base) :=
  inferInstanceAs (Decidable (∀ vad ∈ vads, _))

/-- No address of the region is one of a VAD. -/
def SharesNone (vads : List MmVad) (size base : Nat) : Prop :=
  ∀ vad ∈ vads, ∀ va, base ≤ va → va < base + size → ¬ (vad.startingVa ≤ va ∧ va < vad.endingVa)

section Loop

variable {vads : List MmVad} {size : Nat}

variable {base : Nat}

theorem collisionLoop_clear {remaining : List MmVad}
    (clear : ∀ vad ∈ remaining, ¬ vad.Collides base size) {fuel : Nat}
    (enough : remaining.length < fuel) :
    collisionLoop vads size fuel base remaining = some base := by
  induction remaining generalizing fuel with
  | nil =>
    cases fuel with
    | zero => cases enough
    | succ fuel => rfl
  | cons existing remaining ih =>
    cases fuel with
    | zero => cases enough
    | succ fuel =>
      rw [collisionLoop, if_neg (clear existing mem_cons_self)]
      apply ih
      · exact fun vad member => clear vad (mem_cons_of_mem _ member)
      · exact Nat.lt_of_succ_lt_succ enough

theorem collisionLoop_collision {base : Nat} {remaining : List MmVad} {existing : MmVad}
    (found : remaining.find? (fun vad => vad.Collides base size) = some existing) {fuel : Nat}
    (enough : remaining.length ≤ fuel) :
    ∃ left, fuel ≤ left + remaining.length ∧
      collisionLoop vads size fuel base remaining =
        collisionLoop vads size left existing.endingVa vads := by
  induction remaining generalizing fuel with
  | nil => cases found
  | cons vad remaining ih =>
    cases fuel with
    | zero => cases enough
    | succ fuel =>
      rw [length_cons] at enough ⊢
      rw [find?_cons] at found
      by_cases collides : vad.Collides base size
      · rw [decide_eq_true collides] at found
        cases found
        refine ⟨fuel, by omega, ?_⟩
        rw [collisionLoop, if_pos collides]
      · rw [decide_eq_false collides] at found
        obtain ⟨left, bound, same⟩ := ih found (Nat.le_of_succ_le_succ enough)
        refine ⟨left, by omega, ?_⟩
        rw [collisionLoop, if_neg collides, same]

/-- The loop over the VADs ends, at the base that the search gives. -/
theorem collisionLoop_ends {restarts base : Nat} (bound : (endsAbove vads base).length ≤ restarts) :
    ∃ least, ∀ fuel ≥ least,
      collisionLoop vads size fuel base vads = some (searchBase vads size restarts base) := by
  induction restarts generalizing base with
  | zero =>
    refine ⟨vads.length + 1, fun fuel enough => ?_⟩
    apply collisionLoop_clear _ enough
    exact searchBase_clear 0 bound
  | succ restarts ih =>
    rw [searchBase]
    cases found : vads.find? fun existing => existing.Collides base size with
    | none =>
      refine ⟨vads.length + 1, fun fuel enough => ?_⟩
      apply collisionLoop_clear _ enough
      simpa using find?_eq_none.mp found
    | some existing =>
      have collides : existing.Collides base size := by simpa using find?_some found
      have fewer := endsAbove_length_lt (mem_of_find?_eq_some found) collides.1
      obtain ⟨least, ends⟩ := @ih existing.endingVa (by omega)
      refine ⟨least + vads.length, fun fuel enough => ?_⟩
      obtain ⟨left, spent, same⟩ := @collisionLoop_collision vads _ _ _ _ found fuel (by omega)
      rw [same]
      exact ends left (by omega)

theorem clearAt_iff (noWrap : base + size < 2 ^ 64) :
    ClearAt vads size base ↔ ∀ vad ∈ vads, ¬ vad.Collides base size := by
  unfold ClearAt MmVad.Collides
  rw [add64_of_lt noWrap]
  apply forall₂_congr
  intro vad _
  omega

/-- The base never passes one that is clear: a VAD that it collides with reaches into every region
that starts between the base and the VAD's end. -/
theorem searchBase_le {restarts base clear : Nat}
    (noWrap : ∀ visited ∈ collisionBases vads size restarts base, visited + size < 2 ^ 64)
    (above : base ≤ clear) (isClear : ClearAt vads size clear) :
    searchBase vads size restarts base ≤ clear := by
  induction restarts generalizing base with
  | zero => exact above
  | succ restarts ih =>
    rw [searchBase]
    rw [collisionBases] at noWrap
    cases found : vads.find? fun existing => existing.Collides base size with
    | none => exact above
    | some existing =>
      rw [found] at noWrap
      have collides : existing.Collides base size := by simpa using find?_some found
      have reaches := collides.2
      rw [add64_of_lt (noWrap base mem_cons_self)] at reaches
      apply ih
      · exact fun visited member => noWrap visited (mem_cons_of_mem _ member)
      · rcases isClear existing (mem_of_find?_eq_some found) with before | behind
        · omega
        · exact behind

theorem searchBase_mem_collisionBases (restarts base : Nat) :
    searchBase vads size restarts base ∈ collisionBases vads size restarts base := by
  induction restarts generalizing base with
  | zero => exact mem_singleton_self base
  | succ restarts ih =>
    rw [searchBase, collisionBases]
    cases vads.find? fun existing => existing.Collides base size with
    | none => exact mem_cons_self
    | some existing => exact mem_cons_of_mem _ (ih existing.endingVa)

theorem le_searchBase (restarts base : Nat) : base ≤ searchBase vads size restarts base := by
  have stops : searchBase vads size restarts base = base ∨
      ∃ vad ∈ vads, base < vad.endingVa ∧ searchBase vads size restarts base = vad.endingVa :=
    searchBase_candidates restarts
  rcases stops with same | ⟨_, _, above, same⟩
  · exact Nat.le_of_eq same.symm
  · omega

theorem searchBase_isLeast
    (noWrap : ∀ visited ∈ collisionBases vads size vads.length base, visited + size < 2 ^ 64) :
    IsLeast {clear | base ≤ clear ∧ ClearAt vads size clear}
      (searchBase vads size vads.length base) := by
  constructor
  · refine ⟨le_searchBase vads.length base, ?_⟩
    rw [clearAt_iff (noWrap _ (searchBase_mem_collisionBases vads.length base))]
    exact searchBase_clear vads.length (length_filter_le _ _)
  · intro clear inside
    exact searchBase_le noWrap inside.1 inside.2

theorem clearAt_iff_sharesNone (positive : 0 < size)
    (nonempty : ∀ vad ∈ vads, vad.startingVa < vad.endingVa) :
    ClearAt vads size base ↔ SharesNone vads size base := by
  apply forall₂_congr
  intro vad member
  have addresses := nonempty vad member
  constructor
  · intro clear va lower upper inside
    omega
  · intro none
    by_contra overlap
    have atBase := none base (Nat.le_refl _) (by omega)
    have atStart := none vad.startingVa
    omega

end Loop

section Allocate

variable {space : AddressSpace} {address regionSize : Nat}

theorem mmAllocateVirtualMemory_eq (allocationType : Nat) (poolHasRoom : Bool)
    (noWrap : chosenBase space address regionSize + roundSize regionSize < 2 ^ 64) :
    mmAllocateVirtualMemory space (some address) regionSize allocationType poolHasRoom =
      if chosenBase space address regionSize + roundSize regionSize ≤ space.highestVa ∧
          poolHasRoom = true then
        (statusSuccess, some (chosenBase space address regionSize),
          { space with
            vads := ⟨chosenBase space address regionSize,
              chosenBase space address regionSize + roundSize regionSize, allocationType⟩ ::
                space.vads
            nextAvailableVa := chosenBase space address regionSize + roundSize regionSize })
      else (statusNoMemory, some address, space) := by
  unfold mmAllocateVirtualMemory
  unfold chosenBase at noWrap ⊢
  dsimp only
  rw [add64_of_lt noWrap]
  by_cases fits : searchBase space.vads (roundSize regionSize) space.vads.length
      (requestedBase space address) + roundSize regionSize ≤ space.highestVa
  · rw [if_neg (Nat.not_lt.mpr fits)]
    cases poolHasRoom with
    | false => rw [if_pos (by rfl), if_neg (fun both => Bool.false_ne_true both.2)]
    | true => rw [if_neg (by decide), if_pos ⟨fits, rfl⟩]
  · rw [if_pos (Nat.lt_of_not_le fits), if_neg (fun both => fits both.1)]

/-- An allocation takes the first base from its starting point on that is clear of the VADs: the
loop ends there, the call succeeds if the region ends below `HighestVa` and there is memory for the
VAD, and otherwise changes nothing. -/
theorem mmAllocateVirtualMemory_firstFit (space : AddressSpace)
    (address regionSize allocationType : Nat) (poolHasRoom : Bool)
    (positive : 0 < roundSize regionSize)
    (noWrap : ∀ visited ∈ collisionBases space.vads (roundSize regionSize) space.vads.length
      (requestedBase space address), visited + roundSize regionSize < 2 ^ 64) :
    ∃ base,
      (∃ least, ∀ fuel ≥ least, collisionLoop space.vads (roundSize regionSize) fuel
        (requestedBase space address) space.vads = some base) ∧
      IsLeast {clear | requestedBase space address ≤ clear ∧
        ClearAt space.vads (roundSize regionSize) clear} base ∧
      ((∀ vad ∈ space.vads, vad.startingVa < vad.endingVa) →
        IsLeast {clear | requestedBase space address ≤ clear ∧
          SharesNone space.vads (roundSize regionSize) clear} base) ∧
      mmAllocateVirtualMemory space (some address) regionSize allocationType poolHasRoom =
        if base + roundSize regionSize ≤ space.highestVa ∧ poolHasRoom = true then
          (statusSuccess, some base,
            { space with
              vads := ⟨base, base + roundSize regionSize, allocationType⟩ :: space.vads
              nextAvailableVa := base + roundSize regionSize })
        else (statusNoMemory, some address, space) := by
  have isLeast := searchBase_isLeast noWrap
  refine ⟨chosenBase space address regionSize, ?_, isLeast, ?_, ?_⟩
  · exact collisionLoop_ends (length_filter_le _ _)
  · intro nonempty
    have same : {clear | requestedBase space address ≤ clear ∧
          SharesNone space.vads (roundSize regionSize) clear} =
        {clear | requestedBase space address ≤ clear ∧
          ClearAt space.vads (roundSize regionSize) clear} := by
      ext clear
      rw [Set.mem_ofPred_eq, Set.mem_ofPred_eq, clearAt_iff_sharesNone positive nonempty]
    rw [same]
    exact isLeast
  · apply mmAllocateVirtualMemory_eq
    exact noWrap _ (searchBase_mem_collisionBases _ _)

/-- Two VADs, the higher one in front. -/
def twoRegions : AddressSpace :=
  ⟨0x100000, [⟨0x13000, 0x15000, 1⟩, ⟨0x10000, 0x12000, 1⟩], 0x15000, mmUserMax⟩

/-- The page between the two is too small for two pages. -/
theorem twoRegions_firstFit : ∃ base,
    (∃ least, ∀ fuel ≥ least, collisionLoop twoRegions.vads (roundSize 0x1001) fuel
      (requestedBase twoRegions 0x11000) twoRegions.vads = some base) ∧
    IsLeast {clear | requestedBase twoRegions 0x11000 ≤ clear ∧
      ClearAt twoRegions.vads (roundSize 0x1001) clear} base ∧
    ((∀ vad ∈ twoRegions.vads, vad.startingVa < vad.endingVa) →
      IsLeast {clear | requestedBase twoRegions 0x11000 ≤ clear ∧
        SharesNone twoRegions.vads (roundSize 0x1001) clear} base) ∧
    mmAllocateVirtualMemory twoRegions (some 0x11000) 0x1001 1 true =
      if base + roundSize 0x1001 ≤ twoRegions.highestVa ∧ true = true then
        (statusSuccess, some base,
          { twoRegions with
            vads := ⟨base, base + roundSize 0x1001, 1⟩ :: twoRegions.vads
            nextAvailableVa := base + roundSize 0x1001 })
      else (statusNoMemory, some 0x11000, twoRegions) :=
  mmAllocateVirtualMemory_firstFit twoRegions 0x11000 0x1001 1 true (by decide) (by decide)

end Allocate

/-- A gap of whole pages, from an address on, that is large enough. -/
def AddressSpace.HasGap (space : AddressSpace) (low size : Nat) : Prop :=
  ∃ gap, low ≤ gap ∧ gap % pageSize = 0 ∧ gap + size ≤ space.highestVa ∧
    ClearAt space.vads size gap

/-- With memory for the VAD, an allocation without a base succeeds. -/
def AddressSpace.FindsRoom (space : AddressSpace) (regionSize allocationType : Nat) : Prop :=
  (mmAllocateVirtualMemory space (some 0) regionSize allocationType true).1 = statusSuccess

/-- What holds in every run: the search starts at a page and goes from page to page. -/
structure AddressSpace.Paged (space : AddressSpace) : Prop where
  highest : space.highestVa = mmUserMax
  next : space.nextAvailableVa % pageSize = 0 ∧ space.nextAvailableVa ≤ space.highestVa
  ends : ∀ vad ∈ space.vads, vad.endingVa % pageSize = 0 ∧ vad.endingVa ≤ space.highestVa

theorem pageAlign_mod (va : Nat) : pageAlign va % pageSize = 0 :=
  Nat.mul_mod_left _ _

theorem add64_mod {left right : Nat} (leftPage : left % pageSize = 0)
    (rightPage : right % pageSize = 0) : add64 left right % pageSize = 0 := by
  unfold add64 pageSize at *
  omega

namespace AddressSpace.Paged

variable {space : AddressSpace} (paged : space.Paged)

include paged

theorem requestedBase_mod (address : Nat) : requestedBase space address % pageSize = 0 := by
  unfold requestedBase
  split
  · exact pageAlign_mod address
  · exact paged.next.1

theorem chosenBase_mod (address regionSize : Nat) :
    chosenBase space address regionSize % pageSize = 0 := by
  have stops := chosenBase_candidates space address regionSize
  rcases stops with same | ⟨vad, member, _, same⟩
  · rw [same]
    exact paged.requestedBase_mod address
  · rw [same]
    exact (paged.ends vad member).1

theorem allocate (baseAddress : Option Nat) (regionSize allocationType : Nat) (poolHasRoom : Bool) :
    (mmAllocateVirtualMemory space baseAddress regionSize allocationType
      poolHasRoom).2.2.Paged := by
  unfold mmAllocateVirtualMemory
  cases baseAddress with
  | none => exact paged
  | some address =>
    dsimp only
    split
    · exact paged
    rename_i passed
    split
    · exact paged
    have fits := Nat.le_of_not_lt passed
    have page := add64_mod (paged.chosenBase_mod address regionSize)
      (pageAlign_mod (add64 regionSize (pageSize - 1)))
    refine ⟨paged.highest, ⟨page, fits⟩, ?_⟩
    intro vad member
    rcases mem_cons.mp member with rfl | old
    · exact ⟨page, fits⟩
    · exact paged.ends vad old

theorem free (baseAddress : Option Nat) : (mmFreeVirtualMemory space baseAddress).2.Paged := by
  unfold mmFreeVirtualMemory
  cases baseAddress with
  | none => exact paged
  | some address =>
    dsimp only
    split
    · refine ⟨paged.highest, paged.next, ?_⟩
      exact fun vad member => paged.ends vad (mem_of_mem_eraseP member)
    · exact paged

theorem run (call : VadCall) : (call.run space).Paged := by
  cases call with
  | allocate baseAddress regionSize allocationType poolHasRoom =>
    exact paged.allocate _ _ _ poolHasRoom
  | mapView baseAddress viewSize poolHasRoom => exact paged.allocate _ _ _ poolHasRoom
  | free baseAddress => exact paged.free _
  | unmapView baseAddress => exact paged.free _

theorem collisionBases_le {size restarts base : Nat} (low : base ≤ space.highestVa) :
    ∀ visited ∈ collisionBases space.vads size restarts base, visited ≤ space.highestVa := by
  induction restarts generalizing base with
  | zero =>
    intro visited member
    rw [collisionBases, mem_singleton] at member
    exact member ▸ low
  | succ restarts ih =>
    intro visited member
    rw [collisionBases] at member
    cases found : space.vads.find? fun existing => existing.Collides base size with
    | none =>
      rw [found, mem_singleton] at member
      exact member ▸ low
    | some existing =>
      rw [found] at member
      rcases mem_cons.mp member with same | later
      · exact same ▸ low
      · exact ih (paged.ends existing (mem_of_find?_eq_some found)).2 visited later

/-- Room is found exactly if it is at or above the next address. -/
theorem findsRoom_iff {regionSize : Nat} (fits : roundSize regionSize ≤ space.highestVa)
    (allocationType : Nat) :
    space.FindsRoom regionSize allocationType ↔
      space.HasGap space.nextAvailableVa (roundSize regionSize) := by
  have highest := paged.highest
  unfold mmUserMax at highest
  have noWrap : ∀ visited ∈ collisionBases space.vads (roundSize regionSize) space.vads.length
      (requestedBase space 0), visited + roundSize regionSize < 2 ^ 64 := by
    intro visited member
    have bound := paged.collisionBases_le paged.next.2 visited member
    omega
  obtain ⟨⟨above, clear⟩, least⟩ := searchBase_isLeast noWrap
  have chosen := noWrap _ (searchBase_mem_collisionBases _ _)
  unfold FindsRoom
  rw [mmAllocateVirtualMemory_eq allocationType true chosen]
  constructor
  · intro succeeds
    by_cases room : chosenBase space 0 regionSize + roundSize regionSize ≤ space.highestVa ∧
        true = true
    · exact ⟨_, above, paged.chosenBase_mod 0 regionSize, room.1, clear⟩
    · rw [if_neg room] at succeeds
      exact absurd succeeds (show statusNoMemory ≠ statusSuccess by decide)
  · rintro ⟨gap, higher, _, below, isClear⟩
    have first : chosenBase space 0 regionSize ≤ gap := least ⟨higher, isClear⟩
    rw [if_pos ⟨by omega, rfl⟩]

end AddressSpace.Paged

/-- Every run keeps the regions on page bounds. -/
theorem run_paged (pml4Pa : Nat) {start : AddressSpace}
    (created : mmCreateAddressSpace pml4Pa = (statusSuccess, some start))
    (calls : List VadCall) : (calls.foldl VadCall.run start).Paged := by
  have initial : start.Paged := by
    unfold mmCreateAddressSpace at created
    split at created
    · simp at created
    · simp only [Prod.mk.injEq, Option.some.injEq, true_and] at created
      subst start
      have first : mmUserBase % pageSize = 0 ∧ mmUserBase ≤ mmUserMax := by decide
      exact ⟨rfl, first, fun vad absent => by cases absent⟩
  clear created
  induction calls generalizing start with
  | nil => exact initial
  | cons call calls ih => exact ih (initial.run call)

/-- After every run, an allocation without a base finds the room there is exactly if some of it is
at or above `NextAvailableVa`. -/
theorem allocationWithoutBase_iff (pml4Pa : Nat) (start : AddressSpace)
    (created : mmCreateAddressSpace pml4Pa = (statusSuccess, some start))
    (calls : List VadCall) (regionSize allocationType : Nat) :
    ((calls.foldl VadCall.run start).HasGap mmUserBase (roundSize regionSize) →
      (calls.foldl VadCall.run start).FindsRoom regionSize allocationType) ↔
    ((calls.foldl VadCall.run start).HasGap mmUserBase (roundSize regionSize) →
      (calls.foldl VadCall.run start).HasGap
        (calls.foldl VadCall.run start).nextAvailableVa (roundSize regionSize)) := by
  have paged := run_paged pml4Pa created calls
  apply imp_congr_right
  rintro ⟨gap, _, _, below, _⟩
  exact paged.findsRoom_iff (by omega) allocationType

/-- The page below `MM_USER_MAX` is allocated and freed. -/
def highestPage : List VadCall :=
  [.allocate (some 0x7FFFFFFFD000) 0x1000 1 true, .free (some 0x7FFFFFFFD000)]

/-- For the highest page, allocated and freed again. -/
theorem highestPage_findsRoom :
    ((highestPage.foldl VadCall.run newSpace).HasGap mmUserBase (roundSize 0x1000) →
      (highestPage.foldl VadCall.run newSpace).FindsRoom 0x1000 1) ↔
    ((highestPage.foldl VadCall.run newSpace).HasGap mmUserBase (roundSize 0x1000) →
      (highestPage.foldl VadCall.run newSpace).HasGap
        (highestPage.foldl VadCall.run newSpace).nextAvailableVa (roundSize 0x1000)) :=
  allocationWithoutBase_iff 0x100000 newSpace rfl highestPage 0x1000 1

/-- The address space is empty again, but has no room. -/
theorem highestPage_noRoom : ¬ ∀ (pml4Pa : Nat) (start : AddressSpace),
    mmCreateAddressSpace pml4Pa = (statusSuccess, some start) →
    ∀ (calls : List VadCall) (regionSize allocationType : Nat),
      (calls.foldl VadCall.run start).HasGap mmUserBase (roundSize regionSize) →
        (calls.foldl VadCall.run start).FindsRoom regionSize allocationType := by
  intro finds
  have room := finds 0x100000 newSpace rfl highestPage 0x1000 1
    ⟨mmUserBase, by decide, by decide, by decide, by decide⟩
  unfold AddressSpace.FindsRoom at room
  exact absurd room (by decide)

end MinNT.Mm
