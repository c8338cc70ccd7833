import MinNT.Mm.AccessFault
import MinNT.Mm.PhysicalRun

open ByteMemory

/-! Pages taken one by one from the allocator, and given back. -/

namespace MinNT.Mm

open List PfnDatabase

/-- The free page frames at or above the hint, in the order the allocator hands them out. -/
def freeFrames (mm : MmState) : List Nat :=
  (List.range' mm.hintPfn (mm.pfnDatabase.highestPfn - mm.hintPfn)).filter
    (fun pfn => mm.pfnDatabase.Free pfn)

/-- The frames have been handed out, in this order, and nothing else has changed but the bytes in
them. -/
structure Took (before : MmState) (frames : List Nat) (after : MmState) : Prop where
  order : freeFrames before = frames ++ freeFrames after
  active : ∀ pfn ∈ frames, after.pfnDatabase.stateOf pfn = some .pfnActive
  others : ∀ pfn, pfn ∉ frames →
    after.pfnDatabase.stateOf pfn = before.pfnDatabase.stateOf pfn
  memory : ∀ address, toPfn address ∉ frames → after.memory address = before.memory address
  positive : 0 < after.hintPfn

/-- The frames have been given back. -/
structure Released (before : MmState) (frames : List Nat) (after : MmState) : Prop where
  free : ∀ pfn ∈ frames, after.pfnDatabase.Free pfn
  others : ∀ pfn, pfn ∉ frames →
    after.pfnDatabase.stateOf pfn = before.pfnDatabase.stateOf pfn
  memory : after.memory = before.memory
  lowered : after.hintPfn ≤ before.hintPfn
  low : ∀ pfn ∈ frames, after.hintPfn ≤ pfn
  positive : 0 < after.hintPfn

/-- `MmFreePhysicalPage` for one page after the other. -/
def freePages (mm : MmState) (pages : List Nat) : Except BugCheck MmState :=
  pages.foldlM mmFreePhysicalPage mm

section FreeFrames

variable {mm : MmState}

theorem mem_freeFrames {pfn : Nat} :
    pfn ∈ freeFrames mm ↔ mm.hintPfn ≤ pfn ∧ mm.pfnDatabase.Free pfn := by
  simp only [freeFrames, mem_filter, mem_range'_1, decide_eq_true_eq]
  constructor
  · rintro ⟨range, free⟩
    exact ⟨range.1, free⟩
  · rintro ⟨lower, free⟩
    have upper := free.lt
    exact ⟨⟨lower, by omega⟩, free⟩

theorem freeFrames_nodup (mm : MmState) : (freeFrames mm).Nodup :=
  List.Pairwise.filter _ (nodup_range' 1)

theorem freeFrames_eq_cons {pfn : Nat} (lower : mm.hintPfn ≤ pfn) (free : mm.pfnDatabase.Free pfn)
    (first : ∀ earlier, mm.hintPfn ≤ earlier → earlier < pfn → ¬ mm.pfnDatabase.Free earlier) :
    freeFrames mm = pfn :: (List.range' (pfn + 1) (mm.pfnDatabase.highestPfn - (pfn + 1))).filter
      (fun pfn => mm.pfnDatabase.Free pfn) := by
  have upper := free.lt
  have parts : mm.pfnDatabase.highestPfn - mm.hintPfn =
      (pfn - mm.hintPfn) + (mm.pfnDatabase.highestPfn - (pfn + 1) + 1) := by omega
  have middle : mm.hintPfn + (pfn - mm.hintPfn) = pfn := by omega
  have before : (List.range' mm.hintPfn (pfn - mm.hintPfn)).filter
      (fun pfn => decide (mm.pfnDatabase.Free pfn)) = [] := by
    rw [filter_eq_nil_iff]
    intro earlier member
    have range := mem_range'_1.mp member
    simpa only [decide_eq_true_eq] using first earlier range.1 (by omega)
  rw [freeFrames, parts, ← List.range'_append_1, filter_append, before, middle,
    List.range'_succ, nil_append,
    filter_cons_of_pos (by simpa only [decide_eq_true_eq] using free)]

/-- One page is taken, or none is free. -/
theorem mmAllocatePhysicalPage_took (aboveZero : 0 < mm.hintPfn) :
    (freeFrames mm = [] ∧ mmAllocatePhysicalPage mm = (0, mm)) ∨
      ∃ pfn after, 0 < pfn ∧ mmAllocatePhysicalPage mm = (pfn * pageSize, after) ∧
        Took mm [pfn] after := by
  rcases mmAllocatePhysicalPage_cases mm aboveZero with
    ⟨result, none⟩ | ⟨pfn, lower, free, first, result⟩
  · left
    refine ⟨?_, result⟩
    rw [eq_nil_iff_forall_not_mem]
    intro pfn member
    obtain ⟨lower, free⟩ := mem_freeFrames.mp member
    exact none pfn lower free
  · right
    refine ⟨pfn, _, by omega, result, ?_⟩
    have rest : (List.range' (pfn + 1) (mm.pfnDatabase.highestPfn - (pfn + 1))).filter
          (fun other => decide (mm.pfnDatabase.Free other)) =
        (List.range' (pfn + 1) (mm.pfnDatabase.highestPfn - (pfn + 1))).filter
          (fun other => decide ((mm.pfnDatabase.set pfn ⟨.pfnActive, 1⟩).Free other)) := by
      apply filter_congr
      intro other member
      have above := (mem_range'_1.mp member).1
      rw [decide_eq_decide, free_set_iff _ _ _ _ free.lt, if_neg (by omega)]
    constructor
    · rw [freeFrames_eq_cons lower free first, rest]
      simp only [freeFrames, set_highestPfn, singleton_append]
    · intro other member
      rw [mem_singleton.mp member]
      exact stateOf_set_same _ _ _ free.lt
    · intro other outside
      exact stateOf_set_other _ _ _ _ (fun same => outside (by simp [same]))
    · intro address outside
      apply write_outside
      have different : toPfn address ≠ pfn := fun same => outside (by simp [same])
      rw [length_replicate]
      unfold toPfn pageSize at *
      omega
    · exact Nat.succ_pos pfn

theorem Took.refl (aboveZero : 0 < mm.hintPfn) : Took mm [] mm where
  order := rfl
  active := by
    intro pfn member
    cases member
  others := fun _ _ => rfl
  memory := fun _ _ => rfl
  positive := aboveZero

end FreeFrames

section Took

variable {before middle after : MmState} {frames more : List Nat}

section Took

variable (took : Took before frames after)
include took

theorem Took.isFree {pfn : Nat} (member : pfn ∈ frames) : before.pfnDatabase.Free pfn := by
  have listed : pfn ∈ freeFrames before := by
    rw [took.order]
    exact mem_append_left _ member
  exact (mem_freeFrames.mp listed).2

theorem Took.nodup : frames.Nodup := by
  have all := freeFrames_nodup before
  rw [took.order] at all
  exact (nodup_append.mp all).1

theorem Took.pos (aboveZero : 0 < before.hintPfn) {pfn : Nat}
    (member : pfn ∈ frames) : 0 < pfn := by
  have listed : pfn ∈ freeFrames before := by
    rw [took.order]
    exact mem_append_left _ member
  have lower := (mem_freeFrames.mp listed).1
  omega

theorem Took.free_iff (pfn : Nat) :
    after.pfnDatabase.Free pfn ↔ before.pfnDatabase.Free pfn ∧ pfn ∉ frames := by
  by_cases member : pfn ∈ frames
  · unfold PfnDatabase.Free
    rw [took.active pfn member]
    simp [member]
  · unfold PfnDatabase.Free
    rw [took.others pfn member]
    simp [member]

end Took

theorem Took.trans (left : Took before frames middle) (right : Took middle more after) :
    Took before (frames ++ more) after where
  order := by rw [left.order, right.order, append_assoc]
  active := by
    intro pfn member
    by_cases last : pfn ∈ more
    · exact right.active pfn last
    · rw [right.others pfn last]
      exact left.active pfn ((mem_append.mp member).resolve_right last)
  others := by
    intro pfn outside
    rw [mem_append, not_or] at outside
    rw [right.others pfn outside.2, left.others pfn outside.1]
  memory := by
    intro address outside
    rw [mem_append, not_or] at outside
    rw [right.memory address outside.2, left.memory address outside.1]
  positive := right.positive

/-- Pages given back are free again. -/
theorem freePages_released (positive : 0 < before.hintPfn) (once : frames.Nodup)
    (above : ∀ pfn ∈ frames, 0 < pfn)
    (active : ∀ pfn ∈ frames, before.pfnDatabase.stateOf pfn = some .pfnActive) :
    ∃ after, freePages before (frames.map (· * pageSize)) = .ok after ∧
      Released before frames after := by
  induction frames generalizing before with
  | nil =>
    refine ⟨before, rfl, ?_, fun _ _ => rfl, rfl, Nat.le_refl _, ?_, positive⟩
    · intro pfn member
      cases member
    · intro pfn member
      cases member
  | cons pfn rest ih =>
    obtain ⟨fresh, restOnce⟩ := nodup_cons.mp once
    have here := active pfn (mem_cons_self)
    have inside := stateOf_lt here
    have given := mmFreePhysicalPage_active before (pfn * pageSize)
      (by rw [toPfn_address]; exact here)
    rw [toPfn_address] at given
    have pfnAbove := above pfn mem_cons_self
    obtain ⟨after, done, released⟩ := @ih
      { before with
        pfnDatabase := before.pfnDatabase.set pfn ⟨.pfnFree, 0⟩
        freePages := (before.freePages + 1) % 2 ^ 64
        hintPfn := min pfn before.hintPfn }
      (by dsimp only; omega) restOnce
      (fun other member => above other (mem_cons_of_mem _ member))
      (by
        intro other member
        have different : other ≠ pfn := fun same => fresh (same ▸ member)
        dsimp only
        rw [stateOf_set_other _ _ _ _ different]
        exact active other (mem_cons_of_mem _ member))
    have lowered := released.lowered
    dsimp only at lowered
    refine ⟨after, ?_, ?_, ?_, released.memory, by omega, ?_, released.positive⟩
    · rw [map_cons, freePages, foldlM_cons, given]
      exact done
    · intro other member
      rcases mem_cons.mp member with rfl | later
      · unfold PfnDatabase.Free
        rw [released.others other fresh]
        exact stateOf_set_same _ _ _ inside
      · exact released.free other later
    · intro other outside
      rw [mem_cons, not_or] at outside
      rw [released.others other outside.2]
      exact stateOf_set_other _ _ _ _ outside.1
    · intro other member
      rcases mem_cons.mp member with rfl | later
      · omega
      · exact released.low other later

theorem Released.free_iff (released : Released before frames after) (pfn : Nat) :
    after.pfnDatabase.Free pfn ↔ before.pfnDatabase.Free pfn ∨ pfn ∈ frames := by
  by_cases member : pfn ∈ frames
  · simp [released.free pfn member, member]
  · unfold PfnDatabase.Free
    rw [released.others pfn member]
    simp [member]

theorem Took.released (took : Took before frames middle) (released : Released middle frames after)
    (pfn : Nat) : after.pfnDatabase.Free pfn ↔ before.pfnDatabase.Free pfn := by
  rw [released.free_iff, took.free_iff]
  constructor
  · rintro (⟨free, _⟩ | member)
    · exact free
    · exact took.isFree member
  · intro free
    by_cases member : pfn ∈ frames
    · exact .inr member
    · exact .inl ⟨free, member⟩

end Took

/-- The first free page frame the allocator comes to, and the frames that follow it are free. -/
structure FreeRunAt (mm : MmState) (first pages : Nat) : Prop where
  head : (freeFrames mm).head? = some first
  free : ∀ index < pages, mm.pfnDatabase.Free (first + index)

theorem freeFrames_first {mm : MmState} {first : Nat} (head : (freeFrames mm).head? = some first) :
    mm.hintPfn ≤ first ∧ mm.pfnDatabase.Free first ∧
      ∀ earlier, mm.hintPfn ≤ earlier → earlier < first → ¬ mm.pfnDatabase.Free earlier := by
  obtain ⟨rest, list⟩ := head?_eq_some_iff.mp head
  have sorted : (freeFrames mm).Pairwise (· < ·) := List.Pairwise.filter _ (pairwise_lt_range' 1)
  have member : first ∈ freeFrames mm := by simp [list]
  obtain ⟨lower, free⟩ := mem_freeFrames.mp member
  refine ⟨lower, free, ?_⟩
  intro earlier above below freeEarlier
  have listed := mem_freeFrames.mpr ⟨above, freeEarlier⟩
  rw [list] at sorted listed
  rcases mem_cons.mp listed with rfl | later
  · omega
  · have after := (pairwise_cons.mp sorted).1 earlier later
    omega

/-- A free run at the hint is what the free frames begin with. -/
theorem FreeRunAt.take {mm : MmState} {first pages : Nat} (run : FreeRunAt mm first pages) :
    (freeFrames mm).take pages = List.range' first pages := by
  obtain ⟨lower, free, earlier⟩ := freeFrames_first run.head
  have upper := free.lt
  have inside : first + pages ≤ mm.pfnDatabase.highestPfn := by
    cases pages with
    | zero => omega
    | succ pages =>
      have last := (run.free pages (Nat.lt_succ_self pages)).lt
      omega
  have whole : freeFrames mm = (List.range' first (mm.pfnDatabase.highestPfn - first)).filter
      (fun pfn => mm.pfnDatabase.Free pfn) := by
    have parts : mm.pfnDatabase.highestPfn - first =
        mm.pfnDatabase.highestPfn - (first + 1) + 1 := by omega
    rw [freeFrames_eq_cons lower free earlier, parts, List.range'_succ,
      filter_cons_of_pos (by simpa only [decide_eq_true_eq] using free)]
  have parts : mm.pfnDatabase.highestPfn - first =
      pages + (mm.pfnDatabase.highestPfn - (first + pages)) := by omega
  have neighbours : (List.range' first pages).filter
      (fun pfn => decide (mm.pfnDatabase.Free pfn)) = List.range' first pages := by
    rw [filter_eq_self]
    intro pfn member
    have range := mem_range'_1.mp member
    have position : first + (pfn - first) = pfn := by omega
    have here := run.free (pfn - first) (by omega)
    rw [position] at here
    exact decide_eq_true here
  rw [whole, parts, ← List.range'_append_1, filter_append, neighbours]
  exact take_left' (length_range' ..)

/-- No table that `CR3` leads to lies in a page the allocator may hand out. -/
def TablesHeld (mm : MmState) (cr3 : Nat) : Prop :=
  ∀ va level slot, Visits mm.memory cr3 va level slot → ¬ mm.pfnDatabase.Free (toPfn slot)

/-- All the tables that `CR3` leads to hold the same entries. -/
def KeepsTables (before after : ByteMemory) (cr3 : Nat) : Prop :=
  ∀ va level slot, Visits before cr3 va level slot → entryAt after slot = entryAt before slot

/-- Where the processor finds the byte at a virtual address. -/
def physicalAt (memory : ByteMemory) (cr3 va : Nat) : Option Nat :=
  (translate memory cr3 va).map (fun leaf => leaf.physical va)

section KeepsTables

variable {before middle after : ByteMemory} {cr3 : Nat}

theorem KeepsTables.refl (memory : ByteMemory) (cr3 : Nat) : KeepsTables memory memory cr3 :=
  fun _ _ _ _ => rfl

theorem KeepsTables.visits_iff (kept : KeepsTables before after cr3) {va level slot : Nat} :
    Visits after cr3 va level slot ↔ Visits before cr3 va level slot := by
  constructor
  · intro visits
    induction visits with
    | top => exact .top
    | next above present small ih =>
      rw [kept _ _ _ ih] at present small ⊢
      exact .next ih present small
  · intro visits
    exact visits.transfer (fun higher other _ there => kept va higher other there)

theorem KeepsTables.trans (left : KeepsTables before middle cr3)
    (right : KeepsTables middle after cr3) : KeepsTables before after cr3 := by
  intro va level slot visits
  rw [right va level slot (left.visits_iff.mpr visits), left va level slot visits]

theorem KeepsTables.translate (kept : KeepsTables before after cr3) (va : Nat) :
    translate after cr3 va = translate before cr3 va := by
  unfold Mm.translate
  split
  · exact hardwareWalk_congr .top (fun lower other visits => kept va lower other visits)
  · rfl

theorem KeepsTables.physicalAt (kept : KeepsTables before after cr3) (va : Nat) :
    physicalAt after cr3 va = physicalAt before cr3 va := by
  rw [Mm.physicalAt, Mm.physicalAt, kept.translate va]

theorem KeepsTables.of_outside
    (same : ∀ va level slot, Visits before cr3 va level slot →
      ∀ address, toPfn address = toPfn slot → after address = before address) :
    KeepsTables before after cr3 := by
  intro va level slot visits
  apply load_congr
  intro address lower upper
  apply same va level slot visits
  have aligned := visits.slot_mod
  unfold toPfn pageSize
  omega

theorem Took.keepsTables {start mm : MmState} {frames : List Nat} (took : Took start frames mm)
    (held : TablesHeld start cr3) : KeepsTables start.memory mm.memory cr3 := by
  apply KeepsTables.of_outside
  intro va level slot visits address page
  apply took.memory
  intro member
  rw [page] at member
  exact held va level slot visits (took.isFree member)

end KeepsTables

end MinNT.Mm
