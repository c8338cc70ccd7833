import Mathlib.Algebra.GroupWithZero.Nat
import Mathlib.Data.List.Pairwise
import MinNT.Mm.PhysicalPage
import MinNT.NtStatus

namespace MinNT.Mm

open List

def mmUserBase : Nat := 0x10000

def mmUserMax : Nat := 0x7FFFFFFFE000

def mmVadCommit : Nat := 0x01

/-- `PAGE_ALIGN`. The `int` mask is sign-extended, so it keeps the upper half
of the word. -/
def pageAlign (va : Nat) : Nat := va / pageSize * pageSize

/-- `left + right` of two 64-bit words. -/
def add64 (left right : Nat) : Nat := (left + right) % 2 ^ 64

/-- `MM_VAD`. Its `Section` is only ever set to `NULL` and never read. -/
structure MmVad where
  startingVa : Nat
  endingVa : Nat
  flags : Nat
deriving DecidableEq, Repr

/-- `MM_ADDRESS_SPACE`, with the VADs linked from `VadRoot` in their order. -/
structure AddressSpace where
  pml4 : Nat
  vads : List MmVad
  nextAvailableVa : Nat
  highestVa : Nat
deriving DecidableEq, Repr

/-- `MmCreateAddressSpace`, given the page that `MmpAllocateUserPml4` returned. -/
def mmCreateAddressSpace (pml4Pa : Nat) : NtStatus × Option AddressSpace :=
  if pml4Pa = 0 then (statusNoMemory, none)
  else
    (statusSuccess,
      some
        { pml4 := pml4Pa
          vads := []
          nextAvailableVa := mmUserBase
          highestVa := mmUserMax })

/-- The rounding of `RegionSize` up to whole pages. -/
def roundSize (regionSize : Nat) : Nat := pageAlign (add64 regionSize (pageSize - 1))

/-- The collision test, in wrapping arithmetic. -/
def MmVad.Collides (existing : MmVad) (base size : Nat) : Prop :=
  base < existing.endingVa ∧ add64 base size > existing.startingVa

instance (existing : MmVad) (base size : Nat) : Decidable (existing.Collides base size) :=
  inferInstanceAs (Decidable (_ ∧ _))

/-- The collision loop. A collision moves the base to the end of the VAD it
meets and starts over at `VadRoot`; `restarts` bounds how often. -/
def searchBase (vads : List MmVad) (size : Nat) : Nat → Nat → Nat
  | 0, base => base
  | restarts + 1, base =>
      match vads.find? (fun existing => existing.Collides base size) with
      | none => base
      | some existing => searchBase vads size restarts existing.endingVa

/-- The base address asked for, before any collision. -/
def requestedBase (space : AddressSpace) (baseAddress : Nat) : Nat :=
  if baseAddress ≠ 0 then pageAlign baseAddress else space.nextAvailableVa

/-- `MmAllocateVirtualMemory`, for a `BaseAddress` that may be `NULL` and a
descriptor that the pool may not have. Returns the status, the value left in
`*BaseAddress` and the address space. -/
def mmAllocateVirtualMemory (space : AddressSpace) (baseAddress : Option Nat)
    (regionSize allocationType : Nat) (poolHasRoom : Bool) :
    NtStatus × Option Nat × AddressSpace :=
  match baseAddress with
  | none => (statusInvalidParameter, none, space)
  | some address =>
      let size := roundSize regionSize
      let base := searchBase space.vads size space.vads.length (requestedBase space address)
      if add64 base size > space.highestVa then (statusNoMemory, some address, space)
      else if !poolHasRoom then (statusNoMemory, some address, space)
      else
        (statusSuccess, some base,
          { space with
            vads := ⟨base, add64 base size, allocationType⟩ :: space.vads
            nextAvailableVa := add64 base size })

/-- `MmFreeVirtualMemory` takes the first VAD that starts at the page out of
the list. -/
def mmFreeVirtualMemory (space : AddressSpace) (baseAddress : Option Nat) :
    NtStatus × AddressSpace :=
  match baseAddress with
  | none => (statusInvalidParameter, space)
  | some address =>
      if space.vads.any (fun vad => vad.startingVa = pageAlign address) then
        (statusSuccess,
          { space with
            vads := space.vads.eraseP (fun vad => vad.startingVa = pageAlign address) })
      else (statusInvalidParameter, space)

def mmMapViewOfSection (space : AddressSpace) (baseAddress : Option Nat) (viewSize : Nat)
    (poolHasRoom : Bool) : NtStatus × Option Nat × AddressSpace :=
  mmAllocateVirtualMemory space baseAddress viewSize mmVadCommit poolHasRoom

def mmUnmapViewOfSection (space : AddressSpace) (baseAddress : Nat) : NtStatus × AddressSpace :=
  mmFreeVirtualMemory space (some baseAddress)

instance neZero_ulong64 : NeZero (2 ^ 64) := ⟨by decide⟩

instance neZero_ulong : NeZero (2 ^ 32) := ⟨by decide⟩

/-- A call on the address space, with its 64-bit arguments and whether the pool
has room for a descriptor. -/
inductive VadCall where
  | allocate (baseAddress : Option (Fin (2 ^ 64))) (regionSize : Fin (2 ^ 64))
      (allocationType : Fin (2 ^ 32)) (poolHasRoom : Bool)
  | mapView (baseAddress : Option (Fin (2 ^ 64))) (viewSize : Fin (2 ^ 64)) (poolHasRoom : Bool)
  | free (baseAddress : Option (Fin (2 ^ 64)))
  | unmapView (baseAddress : Fin (2 ^ 64))
deriving DecidableEq

def VadCall.run (space : AddressSpace) : VadCall → AddressSpace
  | .allocate baseAddress regionSize allocationType poolHasRoom =>
      (mmAllocateVirtualMemory space (baseAddress.map Fin.val) regionSize allocationType
        poolHasRoom).2.2
  | .mapView baseAddress viewSize poolHasRoom =>
      (mmMapViewOfSection space (baseAddress.map Fin.val) viewSize poolHasRoom).2.2
  | .free baseAddress => (mmFreeVirtualMemory space (baseAddress.map Fin.val)).2
  | .unmapView baseAddress => (mmUnmapViewOfSection space baseAddress).2

/-- Neither VAD reaches into the other. -/
def MmVad.Apart (left right : MmVad) : Prop :=
  left.endingVa ≤ right.startingVa ∨ right.endingVa ≤ left.startingVa

/-- The VAD lies in the user part of the address space. -/
def MmVad.Inside (vad : MmVad) (highestVa : Nat) : Prop :=
  mmUserBase ≤ vad.startingVa ∧ vad.startingVa ≤ vad.endingVa ∧ vad.endingVa ≤ highestVa

instance (left right : MmVad) : Decidable (left.Apart right) :=
  inferInstanceAs (Decidable (_ ∨ _))

instance (vad : MmVad) (highestVa : Nat) : Decidable (vad.Inside highestVa) :=
  inferInstanceAs (Decidable (_ ∧ _ ∧ _))

/-- Every VAD is inside the user part and no two of them overlap. -/
def AddressSpace.Sound (space : AddressSpace) : Prop :=
  (∀ vad ∈ space.vads, vad.Inside space.highestVa) ∧ space.vads.Pairwise MmVad.Apart

instance (space : AddressSpace) : Decidable space.Sound :=
  inferInstanceAs (Decidable (_ ∧ _))

/-- The address space is sound after every call of the sequence. -/
def SoundThroughout : AddressSpace → List VadCall → Prop
  | space, [] => space.Sound
  | space, call :: calls => space.Sound ∧ SoundThroughout (call.run space) calls

instance decideSoundThroughout : (space : AddressSpace) → (calls : List VadCall) →
    Decidable (SoundThroughout space calls)
  | space, [] => inferInstanceAs (Decidable space.Sound)
  | space, call :: calls =>
      @instDecidableAnd _ _ inferInstance (decideSoundThroughout (call.run space) calls)

/-- A region of this size at this base runs past the end of the 64-bit space
and comes back to where the bounds check accepts it. -/
def AddressSpace.Wraps (space : AddressSpace) (base size : Nat) : Prop :=
  2 ^ 64 ≤ base + size ∧ base + size ≤ 2 ^ 64 + space.highestVa

/-- A region below the user part that no VAD pushes up. -/
def AddressSpace.FitsBelow (space : AddressSpace) (base size : Nat) : Prop :=
  base < mmUserBase ∧ base + size ≤ space.highestVa ∧
    ∀ vad ∈ space.vads, base + size ≤ vad.startingVa

/-- What an allocation has to respect, when its pointer is not `NULL` and its
descriptor can be had: the region does not wrap, neither at the base asked for
nor behind a VAD above it, and does not fit below the user part. -/
def AddressSpace.Accepts (space : AddressSpace) (baseAddress : Option Nat) (regionSize : Nat)
    (poolHasRoom : Bool) : Prop :=
  ∀ address, baseAddress = some address → poolHasRoom = true →
    ¬ space.Wraps (requestedBase space address) (roundSize regionSize) ∧
    (∀ vad ∈ space.vads, requestedBase space address < vad.endingVa →
      ¬ space.Wraps vad.endingVa (roundSize regionSize)) ∧
    ¬ space.FitsBelow (requestedBase space address) (roundSize regionSize)

/-- The condition on one call. Freeing and unmapping are always in order. -/
def VadCall.Respects (space : AddressSpace) : VadCall → Prop
  | .allocate baseAddress regionSize _ poolHasRoom =>
      space.Accepts (baseAddress.map Fin.val) regionSize poolHasRoom
  | .mapView baseAddress viewSize poolHasRoom =>
      space.Accepts (baseAddress.map Fin.val) viewSize poolHasRoom
  | .free _ => True
  | .unmapView _ => True

/-- Every call of the sequence respects the address space it meets. -/
def RespectsThroughout : AddressSpace → List VadCall → Prop
  | _, [] => True
  | space, call :: calls => call.Respects space ∧ RespectsThroughout (call.run space) calls

theorem pageAlign_le (va : Nat) : pageAlign va ≤ va :=
  Nat.div_mul_le_self va pageSize

theorem roundSize_lt (regionSize : Nat) : roundSize regionSize < 2 ^ 64 := by
  have bound := pageAlign_le (add64 regionSize (pageSize - 1))
  have wrapped : add64 regionSize (pageSize - 1) < 2 ^ 64 := Nat.mod_lt _ (by decide)
  exact Nat.lt_of_le_of_lt bound wrapped

theorem add64_of_lt {left right : Nat} (fits : left + right < 2 ^ 64) :
    add64 left right = left + right :=
  Nat.mod_eq_of_lt fits

theorem add64_of_ge {left right : Nat} (wraps : 2 ^ 64 ≤ left + right)
    (once : left + right < 2 ^ 65) : add64 left right = left + right - 2 ^ 64 := by
  unfold add64
  omega

section Search

variable {vads : List MmVad} {size base : Nat}

theorem searchBase_of_clear (restarts : Nat) (clear : ∀ vad ∈ vads, ¬ vad.Collides base size) :
    searchBase vads size restarts base = base := by
  have none : vads.find? (fun existing => existing.Collides base size) = none := by
    simpa using clear
  cases restarts with
  | zero => rfl
  | succ restarts => simp only [searchBase, none]

theorem searchBase_candidates (restarts : Nat) :
    searchBase vads size restarts base = base ∨
      ∃ vad ∈ vads, base < vad.endingVa ∧
        searchBase vads size restarts base = vad.endingVa := by
  induction restarts generalizing base with
  | zero => exact .inl rfl
  | succ restarts ih =>
    simp only [searchBase]
    cases found : vads.find? (fun existing => existing.Collides base size) with
    | none => exact .inl rfl
    | some existing =>
      have member := mem_of_find?_eq_some found
      have collides : existing.Collides base size := by
        simpa using find?_some found
      have above := collides.1
      have rest : searchBase vads size restarts existing.endingVa = existing.endingVa ∨
          ∃ vad ∈ vads, existing.endingVa < vad.endingVa ∧
            searchBase vads size restarts existing.endingVa = vad.endingVa := ih
      rcases rest with stays | ⟨vad, inside, higher, stops⟩
      · exact .inr ⟨existing, member, above, stays⟩
      · exact .inr ⟨vad, inside, Nat.lt_trans above higher, stops⟩

/-- The VADs that end above a base. -/
def endsAbove (vads : List MmVad) (base : Nat) : List MmVad :=
  vads.filter (fun vad => base < vad.endingVa)

theorem endsAbove_length_lt {existing : MmVad} (member : existing ∈ vads)
    (above : base < existing.endingVa) :
    (endsAbove vads existing.endingVa).length < (endsAbove vads base).length := by
  have twice : endsAbove vads existing.endingVa =
      (endsAbove vads base).filter (fun vad => existing.endingVa < vad.endingVa) := by
    unfold endsAbove
    rw [filter_filter]
    apply filter_congr
    intro vad _
    simp only [← Bool.decide_and, decide_eq_decide]
    omega
  rw [twice, length_filter_lt_length_iff_exists]
  exact ⟨existing, by simp [endsAbove, member, above], by simp⟩

/-- As many restarts as there are VADs above the base are enough: the loop ends
where no VAD collides. -/
theorem searchBase_clear (restarts : Nat) (enough : (endsAbove vads base).length ≤ restarts) :
    ∀ vad ∈ vads, ¬ vad.Collides (searchBase vads size restarts base) size := by
  induction restarts generalizing base with
  | zero =>
    intro vad member collides
    have empty := length_eq_zero_iff.mp (Nat.le_zero.mp enough)
    have above : vad ∈ endsAbove vads base := by
      simpa [endsAbove, member, searchBase] using collides.1
    rw [empty] at above
    cases above
  | succ restarts ih =>
    simp only [searchBase]
    cases found : vads.find? (fun existing => existing.Collides base size) with
    | none => simpa using find?_eq_none.mp found
    | some existing =>
      have member := mem_of_find?_eq_some found
      have collides : existing.Collides base size := by
        simpa using find?_some found
      have fewer := endsAbove_length_lt member collides.1
      exact ih (by omega)

end Search

/-- What every address space met in a sound run satisfies. -/
structure AddressSpace.Healthy (space : AddressSpace) : Prop where
  sound : space.Sound
  highest : space.highestVa = mmUserMax
  nextInside : mmUserBase ≤ space.nextAvailableVa ∧ space.nextAvailableVa ≤ space.highestVa

namespace AddressSpace.Healthy

variable {space : AddressSpace} (healthy : space.Healthy)

include healthy

theorem requestedBase_lt {address : Nat} (word : address < 2 ^ 64) :
    requestedBase space address < 2 ^ 64 := by
  unfold requestedBase
  have next := healthy.nextInside.2
  rw [healthy.highest] at next
  split
  · exact Nat.lt_of_le_of_lt (pageAlign_le address) word
  · exact Nat.lt_of_le_of_lt next (by decide)

theorem endingVa_bounds {vad : MmVad} (member : vad ∈ space.vads) :
    mmUserBase ≤ vad.endingVa ∧ vad.endingVa ≤ mmUserMax := by
  obtain ⟨low, ordered, high⟩ := healthy.sound.1 vad member
  rw [healthy.highest] at high
  exact ⟨Nat.le_trans low ordered, high⟩

theorem startingVa_le {vad : MmVad} (member : vad ∈ space.vads) : vad.startingVa ≤ mmUserMax :=
  Nat.le_trans (healthy.sound.1 vad member).2.1 (healthy.endingVa_bounds member).2

end AddressSpace.Healthy

/-- Where the collision loop of an allocation stops. -/
def chosenBase (space : AddressSpace) (address regionSize : Nat) : Nat :=
  searchBase space.vads (roundSize regionSize) space.vads.length (requestedBase space address)

theorem chosenBase_clear (space : AddressSpace) (address regionSize : Nat) :
    ∀ vad ∈ space.vads, ¬ vad.Collides (chosenBase space address regionSize)
      (roundSize regionSize) :=
  searchBase_clear space.vads.length (length_filter_le _ _)

theorem chosenBase_candidates (space : AddressSpace) (address regionSize : Nat) :
    chosenBase space address regionSize = requestedBase space address ∨
      ∃ vad ∈ space.vads, requestedBase space address < vad.endingVa ∧
        chosenBase space address regionSize = vad.endingVa :=
  searchBase_candidates space.vads.length

section Allocate

variable {space : AddressSpace} {address regionSize : Nat}

/-- An allocation that ends in a wrapped region was already refused by the
condition on the request. -/
theorem wraps_chosenBase_iff (healthy : space.Healthy) (word : address < 2 ^ 64) :
    space.Wraps (chosenBase space address regionSize) (roundSize regionSize) ↔
      space.Wraps (requestedBase space address) (roundSize regionSize) ∨
        ∃ vad ∈ space.vads, requestedBase space address < vad.endingVa ∧
          space.Wraps vad.endingVa (roundSize regionSize) := by
  have sizeWord := roundSize_lt regionSize
  have top := healthy.highest
  have clear := chosenBase_clear space address regionSize
  have stops := chosenBase_candidates space address regionSize
  generalize chosenBase space address regionSize = chosen at *
  generalize roundSize regionSize = size at *
  generalize requestedBase space address = base at *
  constructor
  · intro wraps
    rcases stops with same | ⟨vad, member, above, same⟩
    · exact .inl (same ▸ wraps)
    · exact .inr ⟨vad, member, above, same ▸ wraps⟩
  · -- Once a base wraps, so does every base the loop can move to from it.
    have later : ∀ vad ∈ space.vads, 2 ^ 64 ≤ vad.endingVa + size →
        space.Wraps vad.endingVa size := by
      intro vad member reaches
      have bounds := healthy.endingVa_bounds member
      refine ⟨reaches, ?_⟩
      omega
    have wrapsOr : 2 ^ 64 ≤ chosen + size → base < chosen ∨ space.Wraps base size →
        space.Wraps chosen size := by
      intro reaches higher
      rcases stops with same | ⟨vad, member, _, same⟩
      · rcases higher with higher | wraps
        · omega
        · exact same ▸ wraps
      · subst chosen
        exact later vad member reaches
    intro candidates
    rcases candidates with wraps | ⟨vad, member, above, wraps⟩
    · have reaches := wraps.1
      have rises : base ≤ chosen := by
        rcases stops with same | ⟨vad, _, above, same⟩ <;> omega
      exact wrapsOr (by omega) (.inr wraps)
    · have vadEnd := healthy.endingVa_bounds member
      have vadStart := healthy.startingVa_le member
      have reaches := wraps.1
      have notClear := clear vad member
      by_cases short : chosen + size < 2 ^ 64
      · exfalso
        apply notClear
        refine ⟨by omega, ?_⟩
        rw [add64_of_lt short]
        simp only [mmUserMax] at vadEnd vadStart
        omega
      · by_cases same : base = chosen
        · subst chosen
          refine ⟨by omega, ?_⟩
          omega
        · apply wrapsOr (by omega)
          rcases stops with equal | ⟨_, _, higher, equal⟩ <;> omega

theorem chosenBase_of_fitsBelow
    (below : space.FitsBelow (requestedBase space address) (roundSize regionSize))
    (top : space.highestVa < 2 ^ 64) :
    chosenBase space address regionSize = requestedBase space address := by
  apply searchBase_of_clear
  intro vad member collides
  have apart := below.2.2 vad member
  have overlap := collides.2
  rw [add64_of_lt (by have := below.2.1; omega)] at overlap
  omega

theorem chosenBase_lt (healthy : space.Healthy) (word : address < 2 ^ 64) :
    chosenBase space address regionSize < 2 ^ 64 := by
  have stops := chosenBase_candidates space address regionSize
  rcases stops with same | ⟨vad, member, _, same⟩
  · rw [same]
    exact healthy.requestedBase_lt word
  · rw [same]
    exact Nat.lt_of_le_of_lt (healthy.endingVa_bounds member).2 (by decide)

theorem accepts_iff (healthy : space.Healthy) (word : address < 2 ^ 64) :
    space.Accepts (some address) regionSize true ↔
      ¬ space.Wraps (chosenBase space address regionSize) (roundSize regionSize) ∧
        ¬ space.FitsBelow (requestedBase space address) (roundSize regionSize) := by
  rw [wraps_chosenBase_iff healthy word]
  constructor
  · intro accepts
    obtain ⟨notRequested, notLater, notBelow⟩ := accepts address rfl rfl
    refine ⟨?_, notBelow⟩
    intro wraps
    rcases wraps with requested | ⟨vad, member, above, wraps⟩
    · exact notRequested requested
    · exact notLater vad member above wraps
  · intro fits other same _
    obtain rfl : address = other := Option.some.inj same
    refine ⟨fun wraps => fits.1 (.inl wraps), ?_, fits.2⟩
    intro vad member above wraps
    exact fits.1 (.inr ⟨vad, member, above, wraps⟩)

theorem accepts_of_refused (healthy : space.Healthy) (word : address < 2 ^ 64)
    (refused : add64 (chosenBase space address regionSize) (roundSize regionSize) >
      space.highestVa) : space.Accepts (some address) regionSize true := by
  have sizeWord := roundSize_lt regionSize
  have chosenWord : chosenBase space address regionSize < 2 ^ 64 := chosenBase_lt healthy word
  rw [accepts_iff healthy word]
  constructor
  · intro wraps
    have wrapped := add64_of_ge wraps.1 (by omega)
    have high := wraps.2
    omega
  · intro below
    have top : space.highestVa < 2 ^ 64 := by
      rw [healthy.highest]
      decide
    have bounded := below.2.1
    rw [chosenBase_of_fitsBelow below top, add64_of_lt (by omega)] at refused
    omega

/-- What the bounds check passes lies inside the user part exactly when it
neither wraps nor fits below. -/
theorem inside_iff_accepts (healthy : space.Healthy) (word : address < 2 ^ 64)
    (allocationType : Nat)
    (passed : add64 (chosenBase space address regionSize) (roundSize regionSize) ≤
      space.highestVa) :
    MmVad.Inside ⟨chosenBase space address regionSize,
        add64 (chosenBase space address regionSize) (roundSize regionSize), allocationType⟩
        space.highestVa ↔
      space.Accepts (some address) regionSize true := by
  have sizeWord := roundSize_lt regionSize
  have chosenWord : chosenBase space address regionSize < 2 ^ 64 := chosenBase_lt healthy word
  have top : space.highestVa < 2 ^ 64 := by
    rw [healthy.highest]
    decide
  rw [accepts_iff healthy word]
  constructor
  · intro inside
    obtain ⟨low, ordered, _⟩ := inside
    dsimp only at low ordered
    constructor
    · intro wraps
      have reaches := wraps.1
      rw [add64_of_ge reaches (by omega)] at ordered
      omega
    · intro below
      rw [chosenBase_of_fitsBelow below top] at low
      have under := below.1
      omega
  · intro fits
    have short : chosenBase space address regionSize + roundSize regionSize < 2 ^ 64 := by
      by_contra long
      have wrapped := add64_of_ge (Nat.le_of_not_lt long) (by omega)
      apply fits.1
      exact ⟨Nat.le_of_not_lt long, by omega⟩
    rw [add64_of_lt short] at passed ⊢
    refine ⟨?_, Nat.le_add_right _ _, passed⟩
    have stops := chosenBase_candidates space address regionSize
    rcases stops with same | ⟨vad, member, _, same⟩
    · -- A base that was never moved is low only if the region fits below every VAD.
      by_contra low
      apply fits.2
      have clear := chosenBase_clear space address regionSize
      dsimp only at low
      rw [same] at low passed clear short
      refine ⟨by omega, passed, ?_⟩
      intro vad member
      have above := (healthy.endingVa_bounds member).1
      have notColliding := clear vad member
      by_contra overlap
      apply notColliding
      refine ⟨by omega, ?_⟩
      rw [add64_of_lt short]
      omega
    · dsimp only
      rw [same]
      exact (healthy.endingVa_bounds member).1

theorem chosenBase_apart (allocationType : Nat) :
    ∀ vad ∈ space.vads, MmVad.Apart ⟨chosenBase space address regionSize,
      add64 (chosenBase space address regionSize) (roundSize regionSize), allocationType⟩ vad := by
  intro vad member
  have notColliding := chosenBase_clear space address regionSize vad member
  unfold MmVad.Collides at notColliding
  unfold MmVad.Apart
  dsimp only
  omega

theorem allocate_sound_iff (healthy : space.Healthy) (baseAddress : Option (Fin (2 ^ 64)))
    (allocationType : Nat) (poolHasRoom : Bool) :
    (mmAllocateVirtualMemory space (baseAddress.map Fin.val) regionSize allocationType
        poolHasRoom).2.2.Sound ↔
      space.Accepts (baseAddress.map Fin.val) regionSize poolHasRoom := by
  cases baseAddress with
  | none =>
    apply iff_of_true healthy.sound
    intro address named
    cases named
  | some address =>
    cases poolHasRoom with
    | false =>
      apply iff_of_true
      · simp only [Option.map_some, mmAllocateVirtualMemory]
        split
        · exact healthy.sound
        · exact healthy.sound
      · intro _ _ room
        cases room
    | true =>
      have word := address.isLt
      simp only [Option.map_some, mmAllocateVirtualMemory]
      split
      · rename_i refused
        exact iff_of_true healthy.sound (accepts_of_refused healthy word refused)
      rename_i passed
      rw [← inside_iff_accepts healthy word allocationType (Nat.le_of_not_lt passed)]
      constructor
      · intro sound
        exact sound.1 _ mem_cons_self
      · intro inside
        constructor
        · intro vad member
          rcases mem_cons.mp member with same | old
          · rw [same]
            exact inside
          · exact healthy.sound.1 vad old
        · exact pairwise_cons.mpr
            ⟨chosenBase_apart allocationType, healthy.sound.2⟩

theorem allocate_healthy (healthy : space.Healthy) (baseAddress : Option Nat)
    (allocationType : Nat) (poolHasRoom : Bool)
    (sound : (mmAllocateVirtualMemory space baseAddress regionSize allocationType
      poolHasRoom).2.2.Sound) :
    (mmAllocateVirtualMemory space baseAddress regionSize allocationType
      poolHasRoom).2.2.Healthy := by
  unfold mmAllocateVirtualMemory at sound ⊢
  cases baseAddress with
  | none => exact healthy
  | some address =>
    dsimp only at sound ⊢
    split
    · exact healthy
    rename_i passed
    rw [if_neg passed] at sound
    split
    · exact healthy
    · rename_i room
      rw [if_neg room] at sound
      have inside := sound.1 _ mem_cons_self
      exact ⟨sound, healthy.highest, Nat.le_trans inside.1 inside.2.1, inside.2.2⟩

end Allocate

variable {space : AddressSpace}

theorem mmFreeVirtualMemory_healthy (healthy : space.Healthy)
    (baseAddress : Option Nat) : (mmFreeVirtualMemory space baseAddress).2.Healthy := by
  unfold mmFreeVirtualMemory
  cases baseAddress with
  | none => exact healthy
  | some address =>
    dsimp only
    split
    · have sub : (space.vads.eraseP (fun vad => vad.startingVa = pageAlign address)).Sublist
          space.vads := eraseP_sublist
      refine ⟨⟨?_, healthy.sound.2.sublist sub⟩, healthy.highest, healthy.nextInside⟩
      intro vad member
      exact healthy.sound.1 vad (sub.subset member)
    · exact healthy

theorem VadCall.run_sound_iff (healthy : space.Healthy) (call : VadCall) :
    (call.run space).Sound ↔ call.Respects space := by
  cases call with
  | allocate baseAddress regionSize allocationType poolHasRoom =>
    exact allocate_sound_iff healthy baseAddress allocationType poolHasRoom
  | mapView baseAddress viewSize poolHasRoom =>
    exact allocate_sound_iff healthy baseAddress mmVadCommit poolHasRoom
  | free baseAddress | unmapView baseAddress =>
    exact iff_of_true (mmFreeVirtualMemory_healthy healthy _).sound trivial

theorem VadCall.run_healthy (healthy : space.Healthy) (call : VadCall)
    (sound : (call.run space).Sound) : (call.run space).Healthy := by
  cases call with
  | allocate baseAddress regionSize allocationType poolHasRoom
  | mapView baseAddress viewSize poolHasRoom =>
    exact allocate_healthy healthy _ _ poolHasRoom sound
  | free baseAddress | unmapView baseAddress => exact mmFreeVirtualMemory_healthy healthy _

/-- Along a run, from any healthy space. -/
theorem soundThroughout_iff (healthy : space.Healthy) (calls : List VadCall) :
    SoundThroughout space calls ↔ RespectsThroughout space calls := by
  induction calls generalizing space with
  | nil => exact iff_of_true healthy.sound trivial
  | cons call calls ih =>
    have step := call.run_sound_iff healthy
    constructor
    · intro throughout
      have later := throughout.2
      have sound : (call.run space).Sound := by
        cases calls with
        | nil => exact later
        | cons _ _ => exact later.1
      exact ⟨step.mp sound, (ih (call.run_healthy healthy sound)).mp later⟩
    · intro respects
      have sound := step.mpr respects.1
      exact ⟨healthy.sound, (ih (call.run_healthy healthy sound)).mpr respects.2⟩

/-- In every run on a new address space the VADs stay inside the user part and
apart from one another exactly as long as the calls respect the space. -/
theorem virtualAddressDescriptors_sound (pml4Pa : Nat) (space : AddressSpace)
    (created : mmCreateAddressSpace pml4Pa = (statusSuccess, some space)) (calls : List VadCall) :
    SoundThroughout space calls ↔ RespectsThroughout space calls := by
  apply soundThroughout_iff
  unfold mmCreateAddressSpace at created
  split at created
  · simp at created
  · simp only [Prod.mk.injEq, Option.some.injEq, true_and] at created
    subst space
    have ordered : mmUserBase ≤ mmUserMax := by decide
    exact ⟨⟨by simp, List.Pairwise.nil⟩, rfl, Nat.le_refl _, ordered⟩

/-- The address space over the page at 1 MB. -/
def newSpace : AddressSpace := ⟨0x100000, [], mmUserBase, mmUserMax⟩

/-- A view asked for in the middle of a region goes behind it. -/
def viewBehindRegion : List VadCall :=
  [.allocate (some 0) 0x1000 1 true, .allocate (some 0x20000) 0x2000 1 true,
    .mapView (some 0x21000) 0x1000 true, .unmapView 0x20000]

/-- A region, and a view behind it. -/
theorem viewBehindRegion_respects :
    mmCreateAddressSpace 0x100000 = (statusSuccess, some newSpace) ∧
      RespectsThroughout newSpace viewBehindRegion :=
  ⟨rfl, (virtualAddressDescriptors_sound 0x100000 newSpace rfl viewBehindRegion).mp (by decide)⟩

/-- A single allocation at `0x1000` leaves a VAD below `MM_USER_BASE`. -/
theorem lowRegion_unsound :
    mmCreateAddressSpace 0x100000 = (statusSuccess, some newSpace) ∧
      ¬ SoundThroughout newSpace [.allocate (some 0x1000) 0x1000 1 true] :=
  ⟨rfl, by decide⟩

end MinNT.Mm
