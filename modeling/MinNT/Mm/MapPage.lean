import MinNT.Mm.PageTable
import MinNT.Mm.VirtualMemory

open ByteMemory

namespace MinNT.Mm

/-- The tables that `CR3` leads to make up a hierarchy: a page serves as a table
of one level only, none of them is a page the allocator may hand out, and the
reserved bit of the PML4 entries is clear. Tables may be shared, as the boot
stub shares its PDPT. The code walks and clears tables at their physical addresses:
the tables and the free pages are taken to be identity mapped. -/
structure Hierarchy (mm : MmState) (cr3 : Nat) : Prop where
  graded : ∀ va va' level level' slot slot', Visits mm.memory cr3 va level slot →
    Visits mm.memory cr3 va' level' slot' → toPfn slot = toPfn slot' → level = level'
  held : ∀ va level slot, Visits mm.memory cr3 va level slot →
    ¬ mm.pfnDatabase.Free (toPfn slot)
  reserved : ∀ va, ¬ HasBit (entryAt mm.memory (slotOf (frameOf cr3) va 3)) pteLarge

/-- The processor finds the page at the physical address, under an entry for a
4 KB page with these flags. -/
def MapsTo (memory : ByteMemory) (cr3 va pa flags : Nat) : Prop :=
  ∃ entry, translate memory cr3 va = some ⟨0, entry⟩ ∧ frameOf entry = pa ∧
    flagsOf entry = flags

/-- No address outside the page is translated differently. -/
def KeepsOthers (before after : ByteMemory) (cr3 va : Nat) : Prop :=
  ∀ other, other < 2 ^ 64 → pageOf other ≠ pageOf va →
    translate after cr3 other = translate before cr3 other

/-- The slot in which the code's walk stops following entries, with its level:
the first whose entry is not present, or the page table's. -/
def stopAt (memory : ByteMemory) (va : Nat) : Nat → Nat → Nat × Nat
  | 0, slot => (0, slot)
  | level + 1, slot =>
      if HasBit (entryAt memory slot) ptePresent then
        stopAt memory va level (slotOf (frameOf (entryAt memory slot)) va level)
      else (level + 1, slot)

/-- Another page is translated through the slot, with the same indices below. -/
def Shares (memory : ByteMemory) (cr3 va level slot : Nat) : Prop :=
  ∃ other, Canonical other ∧ pageOf other ≠ pageOf va ∧ SameBelow level va other ∧
    Visits memory cr3 other level slot

/-- When `MmMapPage` does what it is for: the arguments are those of a page, no
large page is in the way, and the slot belongs to this page alone, unless it
holds the entry already. Tables and free pages are taken to be identity mapped. -/
structure Mappable (memory : ByteMemory) (cr3 va pa flags : Nat) : Prop where
  canonical : Canonical va
  physical : pa < 2 ^ 52
  flagBits : frameOf flags = 0
  small : ∀ leaf, translate memory cr3 va = some leaf → leaf.level = 0
  own : ¬ Shares memory cr3 va (stopAt memory va 3 (slotOf (frameOf cr3) va 3)).1
      (stopAt memory va 3 (slotOf (frameOf cr3) va 3)).2 ∨
    entryAt memory (stopAt memory va 3 (slotOf (frameOf cr3) va 3)).2 =
      pa / 2 ^ 12 * 2 ^ 12 ||| flags

section LeafEntry

variable {pa flags : Nat}

theorem leafEntry_lt (paWord : pa < 2 ^ 64) (flagWord : flags < 2 ^ 64) :
    pa / 2 ^ 12 * 2 ^ 12 ||| flags < 2 ^ 64 := by
  apply Nat.or_lt_two_pow
  · omega
  · exact flagWord

theorem leafEntry_present (present : HasBit flags ptePresent) :
    HasBit (pa / 2 ^ 12 * 2 ^ 12 ||| flags) ptePresent := by
  simp only [HasBit, ptePresent, Nat.div_one] at *
  have even : pa / 2 ^ 12 * 2 ^ 12 % 2 ^ 1 = 0 := by omega
  have low : (pa / 2 ^ 12 * 2 ^ 12 ||| flags) % 2 ^ 1 =
      pa / 2 ^ 12 * 2 ^ 12 % 2 ^ 1 ||| flags % 2 ^ 1 := Nat.or_mod_two_pow
  rw [even, Nat.pow_one, present, Nat.zero_or] at low
  exact low

theorem leafEntry_eq (aligned : pa % pageSize = 0) (physical : pa < 2 ^ 52)
    (flagBits : frameOf flags = 0) : pa / 2 ^ 12 * 2 ^ 12 ||| flags = pa + flags := by
  have parts : flags = 2 ^ 52 * (flags / 2 ^ 52) + flags % 2 ^ 12 := by
    simp only [frameOf] at flagBits
    omega
  have low : flags % 2 ^ 12 < 2 ^ 12 := Nat.mod_lt _ (by decide)
  have whole : pa = 2 ^ 12 * (pa / 2 ^ 12) := by
    simp only [pageSize] at aligned
    omega
  have inner : 2 ^ 12 * (pa / 2 ^ 12) ||| flags % 2 ^ 12 = pa + flags % 2 ^ 12 := by
    rw [← Nat.two_pow_add_eq_or_of_lt low, ← whole]
  have bound : pa + flags % 2 ^ 12 < 2 ^ 52 := by
    simp only [pageSize] at aligned
    omega
  calc
    pa / 2 ^ 12 * 2 ^ 12 ||| flags
        = 2 ^ 12 * (pa / 2 ^ 12) ||| (2 ^ 52 * (flags / 2 ^ 52) + flags % 2 ^ 12) := by
          rw [Nat.mul_comm, ← parts]
    _ = 2 ^ 12 * (pa / 2 ^ 12) ||| (2 ^ 52 * (flags / 2 ^ 52) ||| flags % 2 ^ 12) := by
          rw [Nat.two_pow_add_eq_or_of_lt (by omega)]
    _ = 2 ^ 52 * (flags / 2 ^ 52) ||| (2 ^ 12 * (pa / 2 ^ 12) ||| flags % 2 ^ 12) := by
          rw [← Nat.or_assoc, ← Nat.or_assoc, Nat.or_comm (2 ^ 12 * (pa / 2 ^ 12))]
    _ = 2 ^ 52 * (flags / 2 ^ 52) + (pa + flags % 2 ^ 12) := by
          rw [inner, ← Nat.two_pow_add_eq_or_of_lt bound]
    _ = pa + flags := by omega

theorem frameOf_leafEntry (aligned : pa % pageSize = 0) (physical : pa < 2 ^ 52)
    (flagBits : frameOf flags = 0) : frameOf (pa + flags) = pa := by
  unfold frameOf pageSize at *
  have shifted : (pa + flags) / 2 ^ 12 = pa / 2 ^ 12 + 2 ^ 40 * (flags / 2 ^ 52) := by omega
  have small : pa / 2 ^ 12 < 2 ^ 40 := by omega
  rw [shifted, Nat.add_mul_mod_self_left, Nat.mod_eq_of_lt small]
  exact Nat.div_mul_cancel (Nat.dvd_of_mod_eq_zero aligned)

theorem flagsOf_leafEntry (aligned : pa % pageSize = 0) (physical : pa < 2 ^ 52)
    (flagBits : frameOf flags = 0) : flagsOf (pa + flags) = flags := by
  unfold frameOf pageSize at *
  unfold flagsOf
  omega

theorem frameOf_flagsOf (entry : Nat) : frameOf (flagsOf entry) = 0 := by
  simp only [frameOf, flagsOf]
  omega

theorem frameOf_lt (entry : Nat) : frameOf entry < 2 ^ 52 := by
  simp only [frameOf]
  omega

end LeafEntry

section LinkTable

variable {mm : MmState} {slot pfn other : Nat}

theorem linkTable_slot (small : pfn < 2 ^ 24) :
    entryAt (linkTable mm slot pfn).memory slot = pfn * pageSize + 3 :=
  entryAt_store_same _ _ (tableEntry_lt small)

theorem linkTable_other (aligned : slot % 8 = 0) (aligned' : other % 8 = 0)
    (different : other ≠ slot) (outside : toPfn other ≠ pfn) :
    entryAt (linkTable mm slot pfn).memory other = entryAt mm.memory other := by
  rw [linkTable, entryAt_store_other _ _ aligned aligned' different,
    entryAt_zeroPage_outside _ aligned' outside]

theorem linkTable_fresh (aligned : slot % 8 = 0) (aligned' : other % 8 = 0)
    (different : other ≠ slot) (inside : toPfn other = pfn) :
    entryAt (linkTable mm slot pfn).memory other = 0 := by
  rw [linkTable, entryAt_store_other _ _ aligned aligned' different,
    entryAt_zeroPage_inside _ aligned' inside]

theorem linkTable_free (free : mm.pfnDatabase.Free pfn) (page : Nat) :
    (linkTable mm slot pfn).pfnDatabase.Free page ↔ page ≠ pfn ∧ mm.pfnDatabase.Free page := by
  rw [linkTable, PfnDatabase.free_set_iff _ _ _ _ free.lt]
  by_cases same : page = pfn <;> simp [same]

theorem tableEntry_present (pfn : Nat) : HasBit (pfn * pageSize + 3) ptePresent := by
  simp only [HasBit, ptePresent, pageSize]
  omega

theorem tableEntry_small (pfn : Nat) : ¬ HasBit (pfn * pageSize + 3) pteLarge := by
  simp only [HasBit, pteLarge, pageSize]
  omega

end LinkTable

/-- What the call has made of the slot where the walk stopped: the page is
mapped through it, nothing else is, and the slot is the only entry outside the
new tables that has changed. -/
structure MapEffect (mm : MmState) (after : ByteMemory) (va level slot entry : Nat) : Prop where
  leaf : hardwareWalk after va level slot = some ⟨0, entry⟩
  nothingElse : ∀ va', ¬ SameBelow level va va' → hardwareWalk after va' level slot = none
  same : ∀ other, other % 8 = 0 → other ≠ slot → ¬ mm.pfnDatabase.Free (toPfn other) →
    entryAt after other = entryAt mm.memory other

/-- What the call has made of an empty table. -/
structure TableEffect (mm : MmState) (after : ByteMemory) (va level table entry : Nat) :
    Prop where
  leaf : hardwareWalk after va level (slotOf table va level) = some ⟨0, entry⟩
  nothingElse : ∀ va', ¬ SameBelow (level + 1) va va' →
    hardwareWalk after va' level (slotOf table va' level) = none
  same : ∀ other, other % 8 = 0 → toPfn other ≠ toPfn table →
    ¬ mm.pfnDatabase.Free (toPfn other) → entryAt after other = entryAt mm.memory other

section Effect

variable {mm : MmState} {after : ByteMemory} {va entry : Nat}

theorem hardwareWalk_absent {memory : ByteMemory} {level slot : Nat}
    (absent : ¬ HasBit (entryAt memory slot) ptePresent) :
    hardwareWalk memory va level slot = none := by
  cases level <;> simp only [hardwareWalk, absent, not_false_eq_true, ↓reduceIte]

theorem hardwareWalk_linked {memory : ByteMemory} {level slot pfn : Nat} (small : pfn < 2 ^ 24)
    (linked : entryAt memory slot = pfn * pageSize + 3) :
    hardwareWalk memory va (level + 1) slot =
      hardwareWalk memory va level (slotOf (pfn * pageSize) va level) := by
  simp only [hardwareWalk, linked, tableEntry_present, tableEntry_small, not_true_eq_false,
    frameOf_tableEntry small, ↓reduceIte]

theorem MapEffect.of_linkTable {level slot pfn : Nat} (aligned : slot % 8 = 0)
    (held : ¬ mm.pfnDatabase.Free (toPfn slot)) (free : mm.pfnDatabase.Free pfn)
    (table : TableEffect (linkTable mm slot pfn) after va level (pfn * pageSize) entry) :
    MapEffect mm after va (level + 1) slot entry := by
  have small := free.small
  have page : toPfn (pfn * pageSize) = pfn := Nat.mul_div_cancel pfn (by decide)
  have kept : ∀ other, other % 8 = 0 → ¬ mm.pfnDatabase.Free (toPfn other) →
      entryAt after other = entryAt (linkTable mm slot pfn).memory other := by
    intro other otherAligned otherHeld
    have outside : toPfn other ≠ pfn := fun same => otherHeld (same ▸ free)
    apply table.same other otherAligned (page.symm ▸ outside)
    rw [linkTable_free free]
    exact fun still => otherHeld still.2
  have linked : entryAt after slot = pfn * pageSize + 3 := by
    rw [kept slot aligned held, linkTable_slot small]
  constructor
  · rw [hardwareWalk_linked small linked]
    exact table.leaf
  · intro va' different
    rw [hardwareWalk_linked small linked]
    exact table.nothingElse va' different
  · intro other otherAligned different otherHeld
    have outside : toPfn other ≠ pfn := fun same => otherHeld (same ▸ free)
    rw [kept other otherAligned otherHeld, linkTable_other aligned otherAligned different outside]

/-- What the call makes of an empty table, from what it makes of the level below. -/
theorem tableEffect_of_empty {level table pte : Nat} {final : MmState}
    (present : HasBit entry ptePresent) (word : entry < 2 ^ 64)
    (aligned : table % pageSize = 0) (held : ¬ mm.pfnDatabase.Free (toPfn table))
    (empty : ∀ other, other % 8 = 0 → toPfn other = toPfn table → entryAt mm.memory other = 0)
    (found : mmpDescend va level table mm = (some pte, final)) :
    TableEffect mm (store final.memory 8 pte entry) va level table entry := by
  have absent : ¬ HasBit 0 ptePresent := by decide
  induction level generalizing table mm with
  | zero =>
    simp only [mmpDescend, Prod.mk.injEq, Option.some.injEq] at found
    obtain ⟨rfl, rfl⟩ := found
    have slotAligned := slotOf_mod aligned va 0
    constructor
    · simp only [hardwareWalk, entryAt_store_same _ _ word, present, ↓reduceIte]
    · intro va' different
      have index : indexAt va 0 ≠ indexAt va' 0 := by
        intro same
        exact different ((sameBelow_succ 0 va va').mpr ⟨same, sameBelow_zero va va'⟩)
      apply hardwareWalk_absent
      rw [entryAt_store_other _ _ slotAligned (slotOf_mod aligned va' 0)
        (fun same => index (slotOf_inj same).symm),
        empty _ (slotOf_mod aligned va' 0) (slotOf_page aligned va' 0)]
      exact absent
    · intro other otherAligned outside _
      apply entryAt_store_other _ _ slotAligned otherAligned
      rintro rfl
      exact outside (slotOf_page aligned va 0)
  | succ level ih =>
    have slotAligned := slotOf_mod aligned va (level + 1)
    have slotPage := slotOf_page aligned va (level + 1)
    have slotHeld : ¬ mm.pfnDatabase.Free (toPfn (slotOf table va (level + 1))) := by
      rw [slotPage]
      exact held
    simp only [mmpDescend] at found
    split at found
    · cases found
    rename_i next middle opened
    rcases mmpNextTable_cases opened with ⟨some, _, _⟩ | ⟨_, pfn, _, free, rfl, rfl⟩
    · rw [empty _ slotAligned slotPage] at some
      exact absurd some absent
    have page : toPfn (pfn * pageSize) = pfn := Nat.mul_div_cancel pfn (by decide)
    have apart : toPfn (slotOf table va (level + 1)) ≠ pfn :=
      fun same => slotHeld (same ▸ free)
    have inner := ih (Nat.mul_mod_left _ _)
      (by rw [page, linkTable_free free]; exact fun still => still.1 rfl)
      (by
        intro other otherAligned inside
        rw [page] at inside
        apply linkTable_fresh slotAligned otherAligned _ inside
        rintro rfl
        exact apart inside) found
    have effect := MapEffect.of_linkTable slotAligned slotHeld free inner
    constructor
    · exact effect.leaf
    · intro va' different
      by_cases index : indexAt va (level + 1) = indexAt va' (level + 1)
      · have below : ¬ SameBelow (level + 1) va va' := by
          intro same
          exact different ((sameBelow_succ (level + 1) va va').mpr ⟨index, same⟩)
        have sameSlot : slotOf table va' (level + 1) = slotOf table va (level + 1) := by
          rw [slotOf, slotOf, index]
        rw [sameSlot]
        exact effect.nothingElse va' below
      · have otherSlot : slotOf table va' (level + 1) ≠ slotOf table va (level + 1) :=
          fun same => index (slotOf_inj same).symm
        apply hardwareWalk_absent
        rw [effect.same _ (slotOf_mod aligned va' _) otherSlot
          (by rw [slotOf_page aligned]; exact held),
          empty _ (slotOf_mod aligned va' _) (slotOf_page aligned va' _)]
        exact absent
    · intro other otherAligned outside otherHeld
      apply effect.same other otherAligned _ otherHeld
      rintro rfl
      exact outside slotPage

end Effect

section Follow

variable {mm : MmState} {cr3 va entry : Nat}

theorem Visits.level_le {memory : ByteMemory} {level slot : Nat}
    (visits : Visits memory cr3 va level slot) : level ≤ 3 := by
  induction visits with
  | top => exact Nat.le_refl 3
  | next _ _ _ ih => omega

theorem Visits.slot_top {memory : ByteMemory} {slot : Nat}
    (visits : Visits memory cr3 va 3 slot) : slot = slotOf (frameOf cr3) va 3 := by
  cases visits with
  | top => rfl
  | next above _ _ =>
    have bound := above.level_le
    omega

theorem Hierarchy.narrow (hierarchy : Hierarchy mm cr3) (canonical : Canonical va)
    (small : ∀ leaf, translate mm.memory cr3 va = some leaf → leaf.level = 0)
    {level slot : Nat} (visits : Visits mm.memory cr3 va (level + 1) slot)
    (present : HasBit (entryAt mm.memory slot) ptePresent) :
    ¬ HasBit (entryAt mm.memory slot) pteLarge := by
  intro large
  by_cases top : level = 2
  · subst level
    rw [visits.slot_top] at large
    exact hierarchy.reserved va large
  · have leaf : translate mm.memory cr3 va = some ⟨level + 1, entryAt mm.memory slot⟩ := by
      rw [translate, if_pos canonical, visits.hardwareWalk_eq]
      simp only [hardwareWalk, present, large, top, not_true_eq_false, ↓reduceIte]
    have bottom := small _ leaf
    cases bottom

/-- The walk stops in a slot the processor comes to as well, and the call has
the effect of a mapping there. -/
theorem mapEffect_of_walk {level table pte : Nat} {final : MmState} (hierarchy : Hierarchy mm cr3)
    (narrow : ∀ level slot, Visits mm.memory cr3 va (level + 1) slot →
      HasBit (entryAt mm.memory slot) ptePresent → ¬ HasBit (entryAt mm.memory slot) pteLarge)
    (present : HasBit entry ptePresent) (word : entry < 2 ^ 64) (aligned : table % pageSize = 0)
    (visits : Visits mm.memory cr3 va level (slotOf table va level))
    (found : mmpDescend va level table mm = (some pte, final)) :
    Visits mm.memory cr3 va (stopAt mm.memory va level (slotOf table va level)).1
        (stopAt mm.memory va level (slotOf table va level)).2 ∧
      MapEffect mm (store final.memory 8 pte entry) va
        (stopAt mm.memory va level (slotOf table va level)).1
        (stopAt mm.memory va level (slotOf table va level)).2 entry := by
  induction level generalizing table with
  | zero =>
    simp only [mmpDescend, Prod.mk.injEq, Option.some.injEq] at found
    obtain ⟨rfl, rfl⟩ := found
    refine ⟨visits, ?_⟩
    constructor
    · simp only [stopAt, hardwareWalk, entryAt_store_same _ _ word, present, ↓reduceIte]
    · intro va' different
      exact absurd (sameBelow_zero va va') different
    · intro other otherAligned different _
      exact entryAt_store_other _ _ visits.slot_mod otherAligned different
  | succ level ih =>
    simp only [mmpDescend] at found
    split at found
    · cases found
    rename_i next middle opened
    rcases mmpNextTable_cases opened with
      ⟨follows, rfl, rfl⟩ | ⟨absent, pfn, _, free, rfl, rfl⟩
    · simp only [stopAt, follows, ↓reduceIte]
      exact ih (frameOf_mod _) (.next visits follows (narrow level _ visits follows)) found
    simp only [stopAt, absent, ↓reduceIte]
    refine ⟨visits, ?_⟩
    have held := hierarchy.held va _ _ visits
    have page : toPfn (pfn * pageSize) = pfn := Nat.mul_div_cancel pfn (by decide)
    have apart : toPfn (slotOf table va (level + 1)) ≠ pfn := fun same => held (same ▸ free)
    apply MapEffect.of_linkTable visits.slot_mod held free
    apply tableEffect_of_empty present word (Nat.mul_mod_left _ _) _ _ found
    · rw [page, linkTable_free free]
      exact fun still => still.1 rfl
    · intro other otherAligned inside
      rw [page] at inside
      apply linkTable_fresh visits.slot_mod otherAligned _ inside
      rintro rfl
      exact apart inside

theorem stopAt_absent (memory : ByteMemory) (va level slot : Nat)
    (above : (stopAt memory va level slot).1 ≠ 0) :
    ¬ HasBit (entryAt memory (stopAt memory va level slot).2) ptePresent := by
  induction level generalizing slot with
  | zero => exact absurd rfl above
  | succ level ih =>
    by_cases present : HasBit (entryAt memory slot) ptePresent
    · simp only [stopAt, present, ↓reduceIte] at above ⊢
      exact ih _ above
    · simpa only [stopAt, present, ↓reduceIte] using present

end Follow

section Others

variable {mm : MmState} {after : ByteMemory} {cr3 va level slot entry : Nat}

theorem MapEffect.visits_after (effect : MapEffect mm after va level slot entry)
    (hierarchy : Hierarchy mm cr3) (own : Visits mm.memory cr3 va level slot) {other : Nat}
    (visits : Visits mm.memory cr3 other level slot) : Visits after cr3 other level slot := by
  apply visits.transfer
  intro higher upper above visitsUpper
  apply effect.same upper visitsUpper.slot_mod _ (hierarchy.held other higher upper visitsUpper)
  rintro rfl
  have same := hierarchy.graded _ _ _ _ _ _ visitsUpper own rfl
  omega

theorem MapEffect.translate_apart (effect : MapEffect mm after va level slot entry)
    (hierarchy : Hierarchy mm cr3) {other : Nat}
    (apart : ∀ lower, ¬ Visits mm.memory cr3 other lower slot) :
    translate after cr3 other = translate mm.memory cr3 other := by
  unfold translate
  split
  · apply hardwareWalk_congr .top
    intro lower visited visits
    apply effect.same visited visits.slot_mod _ (hierarchy.held other lower visited visits)
    rintro rfl
    exact apart lower visits
  · rfl

theorem hardwareWalk_neighbour {memory : ByteMemory} {va va' level slot : Nat} {leaf : Leaf}
    (same : ∀ level, indexAt va (level + 1) = indexAt va' (level + 1))
    (found : hardwareWalk memory va level slot = some leaf) (large : leaf.level ≠ 0) :
    hardwareWalk memory va' level slot = some leaf := by
  induction level generalizing slot with
  | zero => exact found
  | succ level ih =>
    simp only [hardwareWalk] at found ⊢
    split at found
    · cases found
    rename_i present
    rw [if_neg present]
    split at found
    · rename_i wide
      rw [if_pos wide]
      exact found
    · rename_i narrow
      rw [if_neg narrow]
      cases level with
      | zero =>
        simp only [hardwareWalk] at found
        split at found
        · cases found
          exact absurd rfl large
        · cases found
      | succ level =>
        rw [slotOf, ← same level]
        exact ih found

/-- An address in the other half of the 8 KB around. -/
def neighbour (va : Nat) : Nat := if pageOf va % 2 = 0 then va + 2 ^ 12 else va - 2 ^ 12

theorem neighbour_pageOf (va : Nat) :
    pageOf (neighbour va) ≠ pageOf va ∧ pageOf (neighbour va) / 2 = pageOf va / 2 := by
  unfold neighbour pageOf
  split <;> omega

theorem neighbour_canonical {va : Nat} (canonical : Canonical va) : Canonical (neighbour va) := by
  unfold neighbour pageOf Canonical at *
  split <;> omega

theorem neighbour_indexAt (va level : Nat) :
    indexAt va (level + 1) = indexAt (neighbour va) (level + 1) := by
  have split : (512 : Nat) ^ (level + 1) = 2 * (256 * 512 ^ level) := by
    rw [Nat.pow_succ]
    omega
  rw [indexAt_eq, indexAt_eq, split, ← Nat.div_div_eq_div_mul (pageOf va),
    ← Nat.div_div_eq_div_mul (pageOf (neighbour va)), (neighbour_pageOf va).2]

/-- If the others keep their translations, no large page was in the way of a
page that is mapped in the end. -/
theorem small_of_keepsOthers {before : ByteMemory} {leafEntry : Nat}
    (canonical : Canonical va) (mapped : translate after cr3 va = some ⟨0, leafEntry⟩)
    (keeps : KeepsOthers before after cr3 va) (leaf : Leaf)
    (found : translate before cr3 va = some leaf) : leaf.level = 0 := by
  by_contra large
  have away := neighbour_canonical canonical
  have different := (neighbour_pageOf va).1
  have bound : neighbour va < 2 ^ 64 := by
    unfold Canonical at away
    omega
  have slots : slotOf (frameOf cr3) (neighbour va) 3 = slotOf (frameOf cr3) va 3 := by
    rw [slotOf, slotOf, neighbour_indexAt va 2]
  rw [translate, if_pos canonical] at found mapped
  have beside : translate before cr3 (neighbour va) = some leaf := by
    rw [translate, if_pos away, slots]
    exact hardwareWalk_neighbour (neighbour_indexAt va) found large
  have still : translate after cr3 (neighbour va) = some leaf := by
    rw [keeps _ bound different, beside]
  rw [translate, if_pos away, slots] at still
  have back := hardwareWalk_neighbour (fun level => (neighbour_indexAt va level).symm) still large
  rw [back] at mapped
  cases mapped
  exact large rfl

theorem hardwareWalk_bottom {memory : ByteMemory} {leafEntry : Nat}
    (found : hardwareWalk memory va 0 slot = some ⟨0, leafEntry⟩) :
    entryAt memory slot = leafEntry := by
  simp only [hardwareWalk] at found
  split at found
  · simpa only [Option.some.injEq, Leaf.mk.injEq, true_and] using found
  · cases found

/-- If the others keep their translations, the slot was not shared, unless it
held the entry already. -/
theorem MapEffect.own_of_keepsOthers (effect : MapEffect mm after va level slot entry)
    (hierarchy : Hierarchy mm cr3) (own : Visits mm.memory cr3 va level slot)
    (stopped : level ≠ 0 → ¬ HasBit (entryAt mm.memory slot) ptePresent)
    (keeps : KeepsOthers mm.memory after cr3 va) :
    ¬ Shares mm.memory cr3 va level slot ∨ entryAt mm.memory slot = entry := by
  by_contra neither
  rw [not_or, not_not] at neither
  obtain ⟨⟨other, canonical, different, below, visits⟩, changed⟩ := neither
  have bound : other < 2 ^ 64 := by
    unfold Canonical at canonical
    omega
  have later := effect.visits_after hierarchy own visits
  have same := keeps other bound different
  rw [translate, if_pos canonical, later.hardwareWalk_eq, hardwareWalk_sameBelow below,
    effect.leaf, translate, if_pos canonical, visits.hardwareWalk_eq] at same
  cases level with
  | zero => exact changed (hardwareWalk_bottom same.symm)
  | succ level =>
    rw [hardwareWalk_absent (stopped (Nat.succ_ne_zero level))] at same
    cases same

/-- In a slot of its own, or one that holds the entry already, a mapping leaves
the others alone. -/
theorem MapEffect.keepsOthers (effect : MapEffect mm after va level slot entry)
    (hierarchy : Hierarchy mm cr3) (own : Visits mm.memory cr3 va level slot)
    (stopped : level ≠ 0 → ¬ HasBit (entryAt mm.memory slot) ptePresent)
    (present : HasBit entry ptePresent)
    (alone : ¬ Shares mm.memory cr3 va level slot ∨ entryAt mm.memory slot = entry) :
    KeepsOthers mm.memory after cr3 va := by
  intro other _ different
  by_cases canonical : Canonical other
  · by_cases comes : ∃ lower, Visits mm.memory cr3 other lower slot
    · obtain ⟨lower, visits⟩ := comes
      obtain rfl := hierarchy.graded _ _ _ _ _ _ visits own rfl
      have later := effect.visits_after hierarchy own visits
      rw [translate, if_pos canonical, later.hardwareWalk_eq, translate, if_pos canonical,
        visits.hardwareWalk_eq]
      by_cases below : SameBelow lower va other
      · rw [hardwareWalk_sameBelow below, effect.leaf]
        rcases alone with notShared | already
        · exact absurd ⟨other, canonical, different, below, visits⟩ notShared
        · cases lower with
          | zero => simp only [hardwareWalk, already, present, ↓reduceIte]
          | succ lower =>
            have missing := stopped (Nat.succ_ne_zero lower)
            rw [already] at missing
            exact absurd present missing
      · have above : lower ≠ 0 := by
          rintro rfl
          exact below (sameBelow_zero va other)
        rw [effect.nothingElse other below, hardwareWalk_absent (stopped above)]
    · apply effect.translate_apart hierarchy
      intro lower visits
      exact comes ⟨lower, visits⟩
  · rw [translate, translate, if_neg canonical, if_neg canonical]

end Others

/-- Without a large page in the way, a successful call has its effect in the
slot where the walk stops. -/
theorem mmMapPage_effect {mm after : MmState} {cr3 va pa flags : Nat} (hierarchy : Hierarchy mm cr3)
    (paWord : pa < 2 ^ 64) (flagWord : flags < 2 ^ 64) (present : HasBit flags ptePresent)
    (mapped : mmMapPage mm cr3 va pa flags = (statusSuccess, after)) (canonical : Canonical va)
    (small : ∀ leaf, translate mm.memory cr3 va = some leaf → leaf.level = 0) :
    Visits mm.memory cr3 va (stopAt mm.memory va 3 (slotOf (frameOf cr3) va 3)).1
        (stopAt mm.memory va 3 (slotOf (frameOf cr3) va 3)).2 ∧
      MapEffect mm after.memory va (stopAt mm.memory va 3 (slotOf (frameOf cr3) va 3)).1
        (stopAt mm.memory va 3 (slotOf (frameOf cr3) va 3)).2
        (pa / 2 ^ 12 * 2 ^ 12 ||| flags) := by
  unfold mmMapPage at mapped
  split at mapped
  · simp [statusSuccess, statusNoMemory] at mapped
  · rename_i pte middle found
    simp only [Prod.mk.injEq, true_and] at mapped
    subst after
    rw [mmpWalkToPte_eq] at found
    exact mapEffect_of_walk hierarchy (fun _ _ visits => hierarchy.narrow canonical small visits)
      (leafEntry_present present) (leafEntry_lt paWord flagWord) (frameOf_mod _) .top found

/-- `MmMapPage` that returns success maps the page, and leaves every other
address alone, exactly when the page is mappable. -/
theorem mmMapPage_maps_iff (mm after : MmState) (cr3 va pa flags : Nat)
    (hierarchy : Hierarchy mm cr3) (aligned : pa % pageSize = 0) (paWord : pa < 2 ^ 64)
    (flagWord : flags < 2 ^ 64) (present : HasBit flags ptePresent)
    (mapped : mmMapPage mm cr3 va pa flags = (statusSuccess, after)) :
    MapsTo after.memory cr3 va pa flags ∧ KeepsOthers mm.memory after.memory cr3 va ↔
      Mappable mm.memory cr3 va pa flags := by
  have effect := mmMapPage_effect hierarchy paWord flagWord present mapped
  have stopped := stopAt_absent mm.memory va 3 (slotOf (frameOf cr3) va 3)
  constructor
  · intro correct
    obtain ⟨⟨entry, walk, frame, bits⟩, keeps⟩ := correct
    have canonical : Canonical va := by
      by_contra other
      rw [translate, if_neg other] at walk
      cases walk
    have small := small_of_keepsOthers canonical walk keeps
    obtain ⟨own, made⟩ := effect canonical small
    have physical : pa < 2 ^ 52 := by
      rw [← frame]
      exact frameOf_lt entry
    have flagBits : frameOf flags = 0 := by
      rw [← bits]
      exact frameOf_flagsOf entry
    exact ⟨canonical, physical, flagBits, small,
      made.own_of_keepsOthers hierarchy own stopped keeps⟩
  · intro mappable
    obtain ⟨own, made⟩ := effect mappable.canonical mappable.small
    have leafWord := leafEntry_eq aligned mappable.physical mappable.flagBits
    constructor
    · refine ⟨pa + flags, ?_, frameOf_leafEntry aligned mappable.physical mappable.flagBits,
        flagsOf_leafEntry aligned mappable.physical mappable.flagBits⟩
      rw [translate, if_pos mappable.canonical,
        (made.visits_after hierarchy own own).hardwareWalk_eq, made.leaf, leafWord]
    · exact made.keepsOthers hierarchy own stopped (leafEntry_present present) mappable.own

/-- A machine with an empty PML4 at `0x1000` and three free pages. -/
def threePageMm : MmState where
  pfnDatabase :=
    ⟨List.replicate 0x100 ⟨.pfnReservedHw, 0⟩ ++ List.replicate 3 ⟨.pfnFree, 0⟩, by decide +kernel⟩
  freePages := 3
  hintPfn := 0x100
  memory := fun _ => 0

theorem zeroMemory_visits {cr3 va level slot : Nat}
    (visits : Visits (fun _ => 0) cr3 va level slot) :
    level = 3 ∧ slot = slotOf (frameOf cr3) va 3 := by
  cases visits with
  | top => exact ⟨rfl, rfl⟩
  | next _ present _ =>
    rw [zeroMemory_entry] at present
    exact absurd present (by decide)

/-- That machine once its pages are the tables for an address. -/
def threePageTables (va : Nat) : MmState where
  pfnDatabase := ((threePageMm.pfnDatabase.set 0x100 ⟨.pfnActive, 1⟩).set 0x101
    ⟨.pfnActive, 1⟩).set 0x102 ⟨.pfnActive, 1⟩
  freePages := 0
  hintPfn := 0x103
  memory := zeroTables 0x1000 va 0x100 0x101 0x102

theorem threePageMm_walk (va : Nat) :
    mmpWalkToPte threePageMm va 0x1000 = (some (slotOf 0x102000 va 0), threePageTables va) :=
  @mmpWalkToPte_zero threePageMm rfl 0x1000 va 0x100 0x101 0x102 (by decide +kernel)
    (by decide +kernel) (by decide +kernel) (by decide +kernel)

theorem threePageMm_hierarchy : Hierarchy threePageMm 0x1000 where
  graded := by
    intro va va' level level' slot slot' visits visits' _
    rw [(zeroMemory_visits visits).1, (zeroMemory_visits visits').1]
  held := by
    intro va level slot visits
    rw [(zeroMemory_visits visits).2, slotOf_page (frameOf_mod _)]
    decide +kernel
  reserved := by
    intro va
    rw [threePageMm, zeroMemory_entry]
    decide

theorem threePageMm_mappable :
    Mappable threePageMm.memory 0x1000 0x200000 0xFEE00000 0x13 where
  canonical := by decide
  physical := by decide
  flagBits := by decide
  small := by
    intro leaf found
    rw [translate, if_pos (by decide), hardwareWalk_absent
      (by rw [threePageMm, zeroMemory_entry]; decide)] at found
    cases found
  own := by
    left
    rintro ⟨other, canonical, different, below, visits⟩
    have stop : stopAt threePageMm.memory 0x200000 3 (slotOf (frameOf 0x1000) 0x200000 3) =
        (3, slotOf (frameOf 0x1000) 0x200000 3) := by
      simp only [stopAt, threePageMm, zeroMemory_entry]
      rfl
    rw [stop] at below visits
    have index := slotOf_inj (zeroMemory_visits visits).2
    have same := (sameBelow_succ 3 0x200000 other).mpr ⟨index, below⟩
    exact different (pageOf_eq_of_sameBelow (by decide) canonical same).symm

/-- The call made on that machine. -/
def deviceMapped : NtStatus × MmState := mmMapPage threePageMm 0x1000 0x200000 0xFEE00000 0x13

theorem deviceMapped_eq :
    mmMapPage threePageMm 0x1000 0x200000 0xFEE00000 0x13 = (statusSuccess, deviceMapped.2) := by
  rw [deviceMapped, mmMapPage, threePageMm_walk]

/-- A device page in an address space without tables. -/
theorem deviceMapped_maps :
    MapsTo deviceMapped.2.memory 0x1000 0x200000 0xFEE00000 0x13 ∧
      KeepsOthers threePageMm.memory deviceMapped.2.memory 0x1000 0x200000 :=
  (mmMapPage_maps_iff threePageMm deviceMapped.2 0x1000 0x200000 0xFEE00000 0x13
    threePageMm_hierarchy (by decide) (by decide) (by decide) (by decide)
    deviceMapped_eq).mpr threePageMm_mappable

/-- A machine with a piece of the hierarchy the boot stub builds: the PML4 at
`0x1000`, the PDPT at `0x2000` and at `0x3000` a page directory that maps the
second 2 MB of memory by one large page. -/
def bootMm : MmState :=
  { threePageMm with
    memory := store (store (store (fun _ => 0) 8 0x1000 0x2003) 8 0x2000 0x3003) 8 0x3008 0x200083 }

/-- Mapping a page inside it anew reports success and leaves the large page in
place. -/
theorem largePage_unmapped :
    (mmMapPage bootMm 0x1000 0x200000 0xFEE00000 0x13).1 = statusSuccess ∧
      ¬ MapsTo (mmMapPage bootMm 0x1000 0x200000 0xFEE00000 0x13).2.memory
        0x1000 0x200000 0xFEE00000 0x13 := by
  have walk : translate (mmMapPage bootMm 0x1000 0x200000 0xFEE00000 0x13).2.memory
      0x1000 0x200000 = some ⟨1, 0x200083⟩ := by decide +kernel
  constructor
  · decide +kernel
  · rintro ⟨entry, found, _, _⟩
    rw [walk, Option.some.injEq, Leaf.mk.injEq] at found
    exact absurd found.1 (by decide)

end MinNT.Mm
