import MinNT.Mm.MapPage

open ByteMemory

/-! What becomes of the other pages when a walk adds tables, and when an entry of a page table is
written. -/

namespace MinNT.Mm

/-- The tables on the way to a page lead no other page to the same slot, and to no large page. -/
structure Owned (memory : ByteMemory) (cr3 va : Nat) : Prop where
  canonical : Canonical va
  small : ∀ level slot, Visits memory cr3 va (level + 1) slot →
    HasBit (entryAt memory slot) ptePresent → ¬ HasBit (entryAt memory slot) pteLarge
  own : ∀ other level slot, Canonical other → Visits memory cr3 va level slot →
    Visits memory cr3 other level slot → SameBelow level va other → pageOf other = pageOf va

theorem Owned.of_absent {memory : ByteMemory} {cr3 va : Nat} (canonical : Canonical va)
    (absent : ¬ HasBit (entryAt memory (slotOf (frameOf cr3) va 3)) ptePresent) :
    Owned memory cr3 va := by
  have only : ∀ level slot, Visits memory cr3 va level slot →
      level = 3 ∧ slot = slotOf (frameOf cr3) va 3 := by
    intro level slot visits
    induction visits with
    | top => exact ⟨rfl, rfl⟩
    | next _ present _ ih =>
      rw [ih.2] at present
      exact absurd present absent
  constructor
  · exact canonical
  · intro level slot visits present
    rw [(only _ _ visits).2] at present
    exact absurd present absent
  · intro other level slot canonical' visits visits' below
    obtain ⟨rfl, rfl⟩ := only _ _ visits
    have index := slotOf_inj visits'.slot_top
    have same := (sameBelow_succ 3 va other).mpr ⟨index, below⟩
    exact (pageOf_eq_of_sameBelow canonical canonical' same).symm

/-- A state with more tables: the ways of pages are still there, and so are the entries they end
in. -/
structure Grown (cr3 : Nat) (before after : MmState) : Prop where
  hierarchy : Hierarchy after cr3
  owned : ∀ va, Owned before.memory cr3 va → Owned after.memory cr3 va
  visits : ∀ va level slot, Visits before.memory cr3 va level slot →
    Visits after.memory cr3 va level slot
  leaves : ∀ va slot, Visits before.memory cr3 va 0 slot →
    entryAt after.memory slot = entryAt before.memory slot

theorem Grown.refl {cr3 : Nat} {mm : MmState} (hierarchy : Hierarchy mm cr3) : Grown cr3 mm mm :=
  ⟨hierarchy, fun _ owned => owned, fun _ _ _ visits => visits, fun _ _ _ => rfl⟩

theorem Grown.trans {cr3 : Nat} {first second third : MmState} (left : Grown cr3 first second)
    (right : Grown cr3 second third) : Grown cr3 first third where
  hierarchy := right.hierarchy
  owned := fun va owned => right.owned va (left.owned va owned)
  visits :=
    fun va level slot visits => right.visits va level slot (left.visits va level slot visits)
  leaves := by
    intro va slot visits
    rw [right.leaves va slot (left.visits va 0 slot visits), left.leaves va slot visits]

theorem Grown.of_taken {cr3 : Nat} {before after : MmState} (hierarchy : Hierarchy before cr3)
    (memory : after.memory = before.memory)
    (fewer : ∀ pfn, after.pfnDatabase.Free pfn → before.pfnDatabase.Free pfn) :
    Grown cr3 before after where
  hierarchy := by
    constructor
    · rw [memory]
      exact hierarchy.graded
    · rw [memory]
      exact fun va level slot visits free => hierarchy.held va level slot visits (fewer _ free)
    · rw [memory]
      exact hierarchy.reserved
  owned := by
    rw [memory]
    exact fun _ owned => owned
  visits := by
    rw [memory]
    exact fun _ _ _ visits => visits
  leaves := by
    rw [memory]
    exact fun _ _ _ => rfl

theorem slotOf_tablePage (pfn address level : Nat) :
    toPfn (slotOf (pfn * pageSize) address level) = pfn := by
  rw [slotOf_page (Nat.mul_mod_left _ _)]
  exact Nat.mul_div_cancel pfn (by decide)

section LinkTable

variable {mm : MmState} {cr3 va level slot pfn : Nat} (hierarchy : Hierarchy mm cr3)
  (visits : Visits mm.memory cr3 va (level + 1) slot)
  (absent : ¬ HasBit (entryAt mm.memory slot) ptePresent) (free : mm.pfnDatabase.Free pfn)

variable {other lower visited : Nat}

include hierarchy free in
theorem visits_outside (there : Visits mm.memory cr3 other lower visited) : toPfn visited ≠ pfn :=
  fun same => hierarchy.held other lower visited there (same ▸ free)

include hierarchy visits free in
theorem linkTable_visited
    (there : Visits mm.memory cr3 other lower visited) (different : visited ≠ slot) :
    entryAt (linkTable mm slot pfn).memory visited = entryAt mm.memory visited :=
  linkTable_other visits.slot_mod there.slot_mod different (visits_outside hierarchy free there)

include hierarchy visits free in
theorem linkTable_empty (other : Nat) :
    entryAt (linkTable mm slot pfn).memory (slotOf (pfn * pageSize) other level) = 0 := by
  have aligned : pfn * pageSize % pageSize = 0 := Nat.mul_mod_left _ _
  have page := slotOf_tablePage pfn other level
  apply linkTable_fresh visits.slot_mod (slotOf_mod aligned other level) _ page
  intro same
  exact visits_outside hierarchy free visits (same ▸ page)

include hierarchy visits absent free

theorem visits_linkTable (there : Visits mm.memory cr3 other lower visited) :
    Visits (linkTable mm slot pfn).memory cr3 other lower visited := by
  induction there with
  | top => exact .top
  | next above present small ih =>
    have different : _ ≠ slot := fun same => absent (same ▸ present)
    have kept := linkTable_visited hierarchy visits free above different
    rw [← kept] at present small ⊢
    exact .next ih present small

theorem visits_of_linkTable
    (there : Visits (linkTable mm slot pfn).memory cr3 other lower visited) :
    Visits mm.memory cr3 other lower visited ∨
      lower = level ∧ visited = slotOf (pfn * pageSize) other level ∧
        Visits mm.memory cr3 other (level + 1) slot := by
  induction there with
  | top => exact .inl .top
  | @next lower visited above present small ih =>
    rcases ih with old | ⟨_, rfl, _⟩
    · by_cases here : visited = slot
      · subst here
        have same := hierarchy.graded _ _ _ _ _ _ old visits rfl
        obtain rfl : lower = level := by omega
        rw [linkTable_slot free.small, frameOf_tableEntry free.small]
        exact .inr ⟨rfl, rfl, old⟩
      · rw [linkTable_visited hierarchy visits free old here] at present small ⊢
        exact .inl (.next old present small)
    · rw [linkTable_empty hierarchy visits free other] at present
      exact absurd present (by decide)

theorem linkTable_hierarchy : Hierarchy (linkTable mm slot pfn) cr3 where
  graded := by
    intro other other' lower lower' visited visited' there there' samePage
    rcases visits_of_linkTable hierarchy visits absent free there with old | ⟨rfl, rfl, _⟩
    · rcases visits_of_linkTable hierarchy visits absent free there' with old' | ⟨rfl, rfl, _⟩
      · exact hierarchy.graded _ _ _ _ _ _ old old' samePage
      · rw [slotOf_tablePage] at samePage
        exact absurd samePage (visits_outside hierarchy free old)
    · rcases visits_of_linkTable hierarchy visits absent free there' with old' | ⟨rfl, rfl, _⟩
      · rw [slotOf_tablePage] at samePage
        exact absurd samePage.symm (visits_outside hierarchy free old')
      · rfl
  held := by
    intro other lower visited there
    rw [linkTable_free free]
    rcases visits_of_linkTable hierarchy visits absent free there with old | ⟨rfl, rfl, _⟩
    · exact fun still => hierarchy.held other lower visited old still.2
    · exact fun still => still.1 (slotOf_tablePage pfn other _)
  reserved := by
    intro other
    by_cases here : slotOf (frameOf cr3) other 3 = slot
    · rw [here, linkTable_slot free.small]
      exact tableEntry_small pfn
    · rw [linkTable_visited hierarchy visits free (.top : Visits mm.memory cr3 other 3 _) here]
      exact hierarchy.reserved other

theorem linkTable_owned {other : Nat} (owned : Owned mm.memory cr3 other) :
    Owned (linkTable mm slot pfn).memory cr3 other where
  canonical := owned.canonical
  small := by
    intro lower visited there present
    rcases visits_of_linkTable hierarchy visits absent free there with old | ⟨_, rfl, _⟩
    · by_cases same : visited = slot
      · rw [same, linkTable_slot free.small]
        exact tableEntry_small pfn
      · rw [linkTable_visited hierarchy visits free old same] at present ⊢
        exact owned.small lower visited old present
    · rw [linkTable_empty hierarchy visits free other] at present
      exact absurd present (by decide)
  own := by
    intro another lower visited canonical there there' below
    rcases visits_of_linkTable hierarchy visits absent free there with old | ⟨rfl, rfl, up⟩
    · rcases visits_of_linkTable hierarchy visits absent free there' with old' | ⟨rfl, rfl, _⟩
      · exact owned.own another lower visited canonical old old' below
      · exact absurd (slotOf_tablePage pfn another _) (visits_outside hierarchy free old)
    · rcases visits_of_linkTable hierarchy visits absent free there' with old' | ⟨_, same, up'⟩
      · exact absurd (slotOf_tablePage pfn other _) (visits_outside hierarchy free old')
      · apply owned.own another (lower + 1) slot canonical up up'
        exact (sameBelow_succ lower other another).mpr ⟨slotOf_inj same, below⟩

theorem linkTable_grown : Grown cr3 mm (linkTable mm slot pfn) where
  hierarchy := linkTable_hierarchy hierarchy visits absent free
  owned := fun _ owned => linkTable_owned hierarchy visits absent free owned
  visits := fun _ _ _ there => visits_linkTable hierarchy visits absent free there
  leaves := by
    intro other leaf there
    apply linkTable_visited hierarchy visits free there
    rintro rfl
    have same := hierarchy.graded _ _ _ _ _ _ there visits rfl
    omega

end LinkTable

section Walk

variable {mm : MmState} {cr3 va : Nat}

section Hierarchy

variable (hierarchy : Hierarchy mm cr3)
include hierarchy

theorem mmAllocatePhysicalPage_grown (none : (mmAllocatePhysicalPage mm).1 = 0) :
    Grown cr3 mm (mmAllocatePhysicalPage mm).2 := by
  unfold mmAllocatePhysicalPage at none ⊢
  split
  · exact Grown.refl hierarchy
  rename_i pfn found
  rw [found] at none
  have free := (searchFree_some found).1
  dsimp only at none ⊢
  apply Grown.of_taken hierarchy
  · rw [if_pos none]
  · intro page still
    rw [PfnDatabase.free_set_iff _ _ _ _ free.lt] at still
    by_cases same : page = pfn
    · rw [if_pos same] at still
      cases still
    · rwa [if_neg same] at still

/-- One level of the walk adds a table at most, and leads on in the tables the processor comes
to. -/
theorem mmpNextTable_grown {level slot : Nat}
    (owned : Owned mm.memory cr3 va) (visits : Visits mm.memory cr3 va (level + 1) slot)
    {next : Option Nat} {after : MmState} (stepped : mmpNextTable mm slot = (next, after)) :
    Grown cr3 mm after ∧ ∀ table ∈ next, table % pageSize = 0 ∧
      Visits after.memory cr3 va level (slotOf table va level) := by
  cases next with
  | some table =>
    rcases mmpNextTable_cases stepped with
      ⟨present, rfl, rfl⟩ | ⟨absent, pfn, _, free, rfl, rfl⟩
    · refine ⟨Grown.refl hierarchy, fun table same => ?_⟩
      cases same
      exact ⟨frameOf_mod _, .next visits present (owned.small level slot visits present)⟩
    · have grown := linkTable_grown hierarchy visits absent free
      refine ⟨grown, fun table same => ?_⟩
      cases same
      have linked := @linkTable_slot mm slot pfn free.small
      have onward := Visits.next (grown.visits va (level + 1) slot visits)
        (linked.symm ▸ tableEntry_present pfn) (linked.symm ▸ tableEntry_small pfn)
      rw [linked, frameOf_tableEntry free.small] at onward
      exact ⟨Nat.mul_mod_left _ _, onward⟩
  | none =>
    refine ⟨?_, fun table absent => by cases absent⟩
    unfold mmpNextTable at stepped
    split at stepped
    · obtain ⟨-, rfl⟩ := Prod.mk.inj stepped
      exact Grown.refl hierarchy
    dsimp only at stepped
    split at stepped
    · rename_i empty
      cases stepped
      exact mmAllocatePhysicalPage_grown hierarchy empty
    · rename_i taken
      obtain ⟨pfn, positive, free, allocated⟩ := mmAllocatePhysicalPage_taken taken
      simp only [allocated, tableEntry_eq, entryAt_store_same _ slot (tableEntry_lt free.small),
        frameOf_tableEntry free.small, nonNull, Prod.mk.injEq] at stepped
      have frame : pfn * pageSize ≠ 0 :=
        Nat.mul_ne_zero (Nat.pos_iff_ne_zero.mp positive) (by decide)
      rw [if_neg frame] at stepped
      cases stepped.1

theorem mmpDescend_grown {level table : Nat} (owned : Owned mm.memory cr3 va)
    (visits : Visits mm.memory cr3 va level (slotOf table va level)) {result : Option Nat}
    {after : MmState} (descended : mmpDescend va level table mm = (result, after)) :
    Grown cr3 mm after ∧ ∀ pte ∈ result, Visits after.memory cr3 va 0 pte := by
  induction level generalizing table mm with
  | zero =>
    rw [mmpDescend] at descended
    cases descended
    refine ⟨Grown.refl hierarchy, fun pte same => ?_⟩
    cases same
    exact visits
  | succ level ih =>
    rw [mmpDescend] at descended
    cases stepped : mmpNextTable mm (slotOf table va (level + 1)) with
    | mk next middle =>
    obtain ⟨grown, onward⟩ := mmpNextTable_grown hierarchy owned visits stepped
    rw [stepped] at descended
    cases next with
    | none =>
      cases descended
      exact ⟨grown, fun pte absent => by cases absent⟩
    | some next =>
      obtain ⟨rest, found⟩ :=
        ih grown.hierarchy (grown.owned va owned) (onward next rfl).2 descended
      exact ⟨grown.trans rest, found⟩

theorem mmpWalkToPte_grown (owned : Owned mm.memory cr3 va)
    {result : Option Nat} {after : MmState} (walked : mmpWalkToPte mm va cr3 = (result, after)) :
    Grown cr3 mm after ∧ ∀ pte ∈ result, Visits after.memory cr3 va 0 pte := by
  rw [mmpWalkToPte_eq] at walked
  exact mmpDescend_grown hierarchy owned .top walked

end Hierarchy

end Walk

section Leaf

variable {mm : MmState} {cr3 va pte entry : Nat}

/-- The state after an entry of a page table has been written. -/
def writeLeaf (mm : MmState) (pte entry : Nat) : MmState :=
  { mm with memory := store mm.memory 8 pte entry }

variable (hierarchy : Hierarchy mm cr3) (visits : Visits mm.memory cr3 va 0 pte)

include hierarchy visits

theorem writeLeaf_above {other level slot : Nat}
    (there : Visits mm.memory cr3 other (level + 1) slot) :
    entryAt (writeLeaf mm pte entry).memory slot = entryAt mm.memory slot := by
  apply entryAt_store_other _ _ visits.slot_mod there.slot_mod
  rintro rfl
  have same := hierarchy.graded _ _ _ _ _ _ there visits rfl
  omega

theorem visits_writeLeaf {other level slot : Nat} :
    Visits (writeLeaf mm pte entry).memory cr3 other level slot ↔
      Visits mm.memory cr3 other level slot := by
  constructor
  · intro there
    induction there with
    | top => exact .top
    | next _ present small ih =>
      rw [writeLeaf_above hierarchy visits ih] at present small ⊢
      exact .next ih present small
  · intro there
    induction there with
    | top => exact .top
    | next above present small ih =>
      have kept := @writeLeaf_above _ _ _ _ entry hierarchy visits _ _ _ above
      rw [← kept] at present small ⊢
      exact .next ih present small

theorem writeLeaf_hierarchy : Hierarchy (writeLeaf mm pte entry) cr3 where
  graded := by
    intro other other' level level' slot slot' there there'
    rw [visits_writeLeaf hierarchy visits] at there there'
    exact hierarchy.graded _ _ _ _ _ _ there there'
  held := by
    intro other level slot there
    rw [visits_writeLeaf hierarchy visits] at there
    exact hierarchy.held other level slot there
  reserved := by
    intro other
    rw [writeLeaf_above hierarchy visits (.top : Visits mm.memory cr3 other (2 + 1) _)]
    exact hierarchy.reserved other

theorem writeLeaf_owned {other : Nat} (owned : Owned mm.memory cr3 other) :
    Owned (writeLeaf mm pte entry).memory cr3 other where
  canonical := owned.canonical
  small := by
    intro level slot there
    rw [visits_writeLeaf hierarchy visits] at there
    rw [writeLeaf_above hierarchy visits there]
    exact owned.small level slot there
  own := by
    intro another level slot canonical there there'
    rw [visits_writeLeaf hierarchy visits] at there there'
    exact owned.own another level slot canonical there there'

omit hierarchy in
theorem writeLeaf_other {other slot : Nat} (owned : Owned mm.memory cr3 va)
    (canonical : Canonical other) (there : Visits mm.memory cr3 other 0 slot)
    (different : pageOf other ≠ pageOf va) :
    entryAt (writeLeaf mm pte entry).memory slot = entryAt mm.memory slot := by
  apply entryAt_store_other _ _ visits.slot_mod there.slot_mod
  rintro rfl
  exact different (owned.own other 0 slot canonical visits there (sameBelow_zero va other))

end Leaf

theorem translate_leaf {memory : ByteMemory} {cr3 va pte : Nat} (canonical : Canonical va)
    (visits : Visits memory cr3 va 0 pte) (present : HasBit (entryAt memory pte) ptePresent) :
    translate memory cr3 va = some ⟨0, entryAt memory pte⟩ := by
  rw [translate, if_pos canonical, visits.hardwareWalk_eq, hardwareWalk, if_pos present]

end MinNT.Mm
