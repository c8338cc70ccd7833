import Mathlib.Data.List.Nodup
import Mathlib.Data.Nat.Find
import MinNT.Mm.BootTables

namespace MinNT.Dma

open ByteMemory List MinNT.Mm

/-- The processor finds every byte of the buffer where the device does, in pages that were free
before the call, are in use after it and hold no table. -/
structure BufferOwned (before after : MmState) (cr3 virtualAddress physicalAddress length : Nat) :
    Prop where
  translated : ∀ i < length,
    physicalAt after.memory cr3 (virtualAddress + i) = some (physicalAddress + i)
  wasFree : ∀ i < length, before.pfnDatabase.Free (toPfn (physicalAddress + i))
  inUse : ∀ i < length, after.pfnDatabase.stateOf (toPfn (physicalAddress + i)) = some .pfnActive
  noTable : ∀ i < length, ∀ va level slot, Visits after.memory cr3 va level slot →
    toPfn slot ≠ toPfn (physicalAddress + i)

/-- Every page that was free before is free again. -/
def NothingTaken (before after : MmState) : Prop :=
  ∀ pfn, before.pfnDatabase.Free pfn → after.pfnDatabase.Free pfn

/-- How many pages hold the bytes. -/
def dmaPages (bytes : Nat) : Nat := (bytes + (pageSize - 1)) / pageSize

/-- The same, where the sum is one of `bits` bits. -/
def wrappedPages (bits bytes : Nat) : Nat := (bytes + (pageSize - 1)) % 2 ^ bits / pageSize

theorem wrappedPages_eq {bits bytes : Nat} (small : bytes + (pageSize - 1) < 2 ^ bits) :
    wrappedPages bits bytes = dmaPages bytes := by
  rw [wrappedPages, Nat.mod_eq_of_lt small, dmaPages]

def ptePcd : Nat := 0x10

/-- `dma_va_next`, with the memory manager under it. -/
structure AhciDma where
  mm : MmState
  dmaVaNext : Nat
  aligned : dmaVaNext % pageSize = 0

/-- What ends a call without a return: an `ASSERT`, or an address that is not mapped. -/
inductive Stopped where
  | bugCheck (crash : BugCheck)
  | pageFault (va : Nat)

def asserted {α : Type} : Except BugCheck α → Except Stopped α
  | .ok value => .ok value
  | .error crash => .error (.bugCheck crash)

/-- The status, and what is stored through `virt` and `phys` on success. -/
structure AhciBuffer where
  status : NtStatus
  virt : Nat
  phys : Nat

/-- The loop that fills `pa_array`, with `count` pages to go; `none` where it runs out of pages and
has given back what it took. -/
def takePages : Nat → List Nat → MmState → Except BugCheck (Option (List Nat) × MmState)
  | 0, taken, mm => .ok (some taken, mm)
  | count + 1, taken, mm =>
      let page := mmAllocatePhysicalPage mm
      if page.1 = 0 then (freePages page.2 taken).map fun mm => (none, mm)
      else takePages count (taken ++ [page.1]) page.2

/-- The loop that maps `pa_array[i]` and the pages behind it. Where `MmMapPage` refuses page `i`,
the pages up to it are given back. -/
def mapPages (cr3 virtAddr : Nat) (paArray : List Nat) :
    Nat → List Nat → MmState → Except BugCheck (NtStatus × MmState)
  | _, [], mm => .ok (statusSuccess, mm)
  | i, pa :: rest, mm =>
      let mapped := mmMapPage mm cr3 ((virtAddr + i * pageSize) % 2 ^ 64) pa (pteWrite ||| ptePcd)
      if ntSuccess mapped.1 then mapPages cr3 virtAddr paArray (i + 1) rest mapped.2
      else (freePages mapped.2 (paArray.take (i + 1))).map fun mm => (mapped.1, mm)

/-- `RtlZeroMemory` on virtual addresses. -/
def zeroVirtual (cr3 : Nat) : Nat → Nat → ByteMemory → Except Stopped ByteMemory
  | _, 0, memory => .ok memory
  | va, count + 1, memory =>
      match physicalAt memory cr3 va with
      | none => .error (.pageFault va)
      | some pa => zeroVirtual cr3 (va + 1) count (memory.write pa [0])

theorem aligned_next {next pages : Nat} (aligned : next % pageSize = 0) :
    (next + pages * pageSize) % 2 ^ 64 % pageSize = 0 := by
  simp only [pageSize] at *
  omega

/-- `dma_va_next += pages * PAGE_SIZE`. -/
def AhciDma.advance (dma : AhciDma) (pages : Nat) : AhciDma :=
  ⟨dma.mm, (dma.dmaVaNext + pages * pageSize) % 2 ^ 64, aligned_next dma.aligned⟩

def AhciDma.withMm (dma : AhciDma) (mm : MmState) : AhciDma := ⟨mm, dma.dmaVaNext, dma.aligned⟩

/-- `AhciAllocDmaBuffer`, in the hierarchy `CR3` points to. -/
def ahciAllocDmaBuffer (dma : AhciDma) (cr3 size virt phys : Nat) :
    Except Stopped (AhciBuffer × AhciDma) :=
  if size = 0 ∨ virt = 0 ∨ phys = 0 then .ok (⟨statusInvalidParameter, 0, 0⟩, dma)
  else
    let pages := wrappedPages 64 size
    if pages > 256 then .ok (⟨statusNoMemory, 0, 0⟩, dma)
    else do
      match ← asserted (takePages pages [] dma.mm) with
      | (none, mm) => .ok (⟨statusNoMemory, 0, 0⟩, dma.withMm mm)
      | (some paArray, mm) =>
          let virtAddr := dma.dmaVaNext
          let dma := dma.advance pages
          let (status, mm) ← asserted (mapPages cr3 virtAddr paArray 0 paArray mm)
          if ntSuccess status then
            let memory ← zeroVirtual cr3 virtAddr size mm.memory
            .ok (⟨statusSuccess, virtAddr, paArray.headD 0⟩,
              dma.withMm { mm with memory := memory })
          else .ok (⟨status, 0, 0⟩, dma.withMm mm)

/-- What a call owes its caller: it returns, with the buffer on success and with all pages back on
failure. -/
def AhciKept (before : MmState) (cr3 size : Nat) :
    Except Stopped (AhciBuffer × AhciDma) → Prop
  | .error _ => False
  | .ok (buffer, after) =>
      if ntSuccess buffer.status then
        BufferOwned before after.mm cr3 buffer.virt buffer.phys size
      else NothingTaken before after.mm

/-- The boot stub maps the addresses by pages of 2 MB; in none of these pages is a table, and no
table is at physical address 0. -/
structure LargeWindow (memory : ByteMemory) (cr3 virt pages : Nat) : Prop where
  large : ∀ i < pages, ∃ entry, translate memory cr3 (virt + i * pageSize) = some ⟨1, entry⟩
  apart : ∀ i < pages, ∀ leaf, translate memory cr3 (virt + i * pageSize) = some leaf →
    ∀ va level slot, Visits memory cr3 va level slot →
      slot / 2 ^ 21 ≠ frameOf leaf.entry / 2 ^ 21
  linked : ∀ va level slot, Visits memory cr3 va level slot → 0 < toPfn slot

/-- `MmMapPage` takes the page of 2 MB at physical address 0 for a missing table. -/
def Refused (memory : ByteMemory) (cr3 va : Nat) : Prop :=
  ∃ leaf, translate memory cr3 va = some leaf ∧ frameOf leaf.entry = 0

section Window

variable {memory before after : ByteMemory} {mm : MmState} {cr3 va virt pages : Nat}

theorem LargeWindow.kept (window : LargeWindow before cr3 virt pages)
    (kept : KeepsTables before after cr3) : LargeWindow after cr3 virt pages where
  large := by
    intro i inside
    rw [kept.translate]
    exact window.large i inside
  apart := by
    intro i inside leaf found va level slot visits
    rw [kept.translate] at found
    exact window.apart i inside leaf found va level slot (kept.visits_iff.mp visits)
  linked := fun va level slot visits => window.linked va level slot (kept.visits_iff.mp visits)

theorem refused_kept (kept : KeepsTables before after cr3) :
    Refused after cr3 va ↔ Refused before cr3 va := by
  rw [Refused, Refused, kept.translate]

theorem visits_of_large {level slot entry : Nat} (visits : Visits memory cr3 va level slot)
    (found : hardwareWalk memory va level slot = some ⟨1, entry⟩) :
    ∃ last, Visits memory cr3 va 1 last ∧ entryAt memory last = entry ∧
      HasBit entry ptePresent := by
  induction level generalizing slot with
  | zero =>
    simp only [hardwareWalk] at found
    split at found
    · simp at found
    · cases found
  | succ level ih =>
    simp only [hardwareWalk] at found
    split at found
    · cases found
    rename_i present
    rw [not_not] at present
    split at found
    · split at found
      · cases found
      · simp only [Option.some.injEq, Leaf.mk.injEq] at found
        obtain ⟨bottom, rfl⟩ := found
        obtain rfl : level = 0 := by omega
        exact ⟨slot, visits, rfl, present⟩
    · rename_i small
      exact ih (.next visits present small) found

theorem mmpDescend_visits {level slot : Nat} (visits : Visits mm.memory cr3 va level slot)
    (linked : ∀ level slot, Visits mm.memory cr3 va level slot → 0 < toPfn slot) :
    ∃ table, slot = slotOf table va level ∧
      mmpDescend va 3 (frameOf cr3) mm = mmpDescend va level table mm := by
  induction visits with
  | top => exact ⟨frameOf cr3, rfl, rfl⟩
  | @next level slot above present small ih =>
    obtain ⟨table, rfl, same⟩ := ih
    have next := linked level _ (.next above present small)
    rw [slotOf_page (frameOf_mod _)] at next
    have nonzero : frameOf (entryAt mm.memory (slotOf table va (level + 1))) ≠ 0 := by
      intro zero
      rw [zero] at next
      exact absurd next (by decide)
    refine ⟨_, rfl, ?_⟩
    rw [same, mmpDescend, mmpNextTable, if_pos present, nonNull, if_neg nonzero]

theorem mmMapPage_large {entry pa flags : Nat}
    (found : translate mm.memory cr3 va = some ⟨1, entry⟩)
    (linked : ∀ level slot, Visits mm.memory cr3 va level slot → 0 < toPfn slot) :
    mmMapPage mm cr3 va pa flags =
      if frameOf entry = 0 then (statusNoMemory, mm)
      else (statusSuccess, { mm with
        memory := store mm.memory 8 (slotOf (frameOf entry) va 0)
          (pa / 2 ^ 12 * 2 ^ 12 ||| flags) }) := by
  have walk : hardwareWalk mm.memory va 3 (slotOf (frameOf cr3) va 3) = some ⟨1, entry⟩ := by
    unfold Mm.translate at found
    split at found
    · exact found
    · cases found
  obtain ⟨last, visits, rfl, present⟩ := visits_of_large .top walk
  obtain ⟨table, rfl, same⟩ := mmpDescend_visits visits linked
  unfold mmMapPage
  rw [mmpWalkToPte_eq, same, mmpDescend, mmpNextTable, if_pos present, nonNull]
  by_cases zero : frameOf (entryAt mm.memory (slotOf table va 1)) = 0
  · rw [if_pos zero, if_pos zero]
  · rw [if_neg zero, if_neg zero]
    simp only [mmpDescend]

theorem translate_canonical {leaf : Leaf} (found : translate memory cr3 va = some leaf) :
    Canonical va := by
  unfold Mm.translate at found
  split at found
  · assumption
  · cases found

theorem translate_page {va' : Nat} (same : pageOf va' = pageOf va) :
    translate memory cr3 va' = translate memory cr3 va := by
  have canonical : Canonical va' ↔ Canonical va := by
    unfold pageOf at same
    unfold Canonical
    omega
  have below : SameBelow 3 va va' := by rw [SameBelow, same]
  have slots : slotOf (frameOf cr3) va' 3 = slotOf (frameOf cr3) va 3 := by
    rw [slotOf, slotOf, indexAt_eq, indexAt_eq, same]
  unfold Mm.translate
  rw [slots, hardwareWalk_sameBelow below]
  by_cases here : Canonical va
  · rw [if_pos here, if_pos (canonical.mpr here)]
  · rw [if_neg here, if_neg (fun there => here (canonical.mp there))]

theorem LargeWindow.write_kept (window : LargeWindow memory cr3 virt pages) {i : Nat}
    (inside : i < pages) {leaf : Leaf}
    (found : translate memory cr3 (virt + i * pageSize) = some leaf)
    (same : ∀ address, address / 2 ^ 21 ≠ frameOf leaf.entry / 2 ^ 21 →
      after address = memory address) : KeepsTables memory after cr3 := by
  apply KeepsTables.of_outside
  intro va level slot visits address page
  apply same
  have apart := window.apart i inside leaf found va level slot visits
  unfold toPfn pageSize at page
  omega

end Window

/-- As many pages are taken as asked for, or none are kept. -/
theorem takePages_spec {start : MmState} (aboveZero : 0 < start.hintPfn) (count : Nat)
    {taken : List Nat} {mm : MmState} (took : Took start taken mm) :
    (count ≤ (freeFrames mm).length →
      ∃ after, takePages count (taken.map (· * pageSize)) mm =
          .ok (some ((taken ++ (freeFrames mm).take count).map (· * pageSize)), after) ∧
        Took start (taken ++ (freeFrames mm).take count) after) ∧
    ((freeFrames mm).length < count →
      ∃ after, takePages count (taken.map (· * pageSize)) mm = .ok (none, after) ∧
        ∀ pfn, after.pfnDatabase.Free pfn ↔ start.pfnDatabase.Free pfn) := by
  induction count generalizing taken mm with
  | zero =>
    refine ⟨fun _ => ⟨mm, ?_, ?_⟩, fun short => absurd short (Nat.not_lt_zero _)⟩
    · rw [take_zero, append_nil]
      rfl
    · rw [take_zero, append_nil]
      exact took
  | succ count ih =>
    rcases mmAllocatePhysicalPage_took took.positive with
      ⟨empty, result⟩ | ⟨pfn, middle, positive, result, one⟩
    · constructor
      · intro enough
        rw [empty] at enough
        exact absurd enough (Nat.not_succ_le_zero _)
      · intro _
        obtain ⟨after, done, released⟩ := freePages_released took.positive took.nodup
          (fun pfn member => took.pos aboveZero member) took.active
        refine ⟨after, ?_, took.released released⟩
        rw [takePages, result, if_pos rfl, done]
        rfl
    · have nonzero : pfn * pageSize ≠ 0 := by
        simp only [pageSize]
        omega
      have next := ih (took.trans one)
      have order := one.order
      rw [map_append, map_singleton] at next
      rw [takePages, result, if_neg nonzero, order, singleton_append, take_succ_cons, length_cons]
      constructor
      · intro enough
        obtain ⟨after, done, all⟩ := next.1 (Nat.le_of_succ_le_succ enough)
        rw [append_assoc, singleton_append] at done all
        exact ⟨after, done, all⟩
      · intro short
        exact next.2 (Nat.lt_of_succ_lt_succ short)

section AhciLoops

variable {before memory : ByteMemory} {mm : MmState} {cr3 virt pages : Nat}

theorem mmMapPage_window (window : LargeWindow before cr3 virt pages)
    (kept : KeepsTables before mm.memory cr3) {i pa flags : Nat} (inside : i < pages) :
    (Refused before cr3 (virt + i * pageSize) →
      mmMapPage mm cr3 ((virt + i * pageSize) % 2 ^ 64) pa flags = (statusNoMemory, mm)) ∧
    (¬ Refused before cr3 (virt + i * pageSize) →
      ∃ memory, mmMapPage mm cr3 ((virt + i * pageSize) % 2 ^ 64) pa flags =
          (statusSuccess, { mm with memory := memory }) ∧ KeepsTables before memory cr3) := by
  have here := window.kept kept
  obtain ⟨entry, found⟩ := here.large i inside
  have canonical := translate_canonical found
  have word : (virt + i * pageSize) % 2 ^ 64 = virt + i * pageSize := by
    apply Nat.mod_eq_of_lt
    unfold Canonical at canonical
    omega
  have refused : Refused before cr3 (virt + i * pageSize) ↔ frameOf entry = 0 := by
    rw [← refused_kept kept, Refused, found]
    simp
  have mapped :=
    @mmMapPage_large mm cr3 _ entry pa flags found (fun level slot => here.linked _ _ _)
  rw [word, mapped, refused]
  constructor
  · intro zero
    rw [if_pos zero]
  · intro nonzero
    refine ⟨_, if_neg nonzero, kept.trans (here.write_kept inside found ?_)⟩
    intro address apart
    apply write_outside
    have aligned := frameOf_mod entry
    have index := indexAt_lt (virt + i * pageSize) 0
    rw [encodeLE_length]
    unfold slotOf pageSize at *
    dsimp only at apart
    omega

/-- All pages of a window are mapped, or the first refused one ends the loop. -/
theorem mapPages_spec (window : LargeWindow before cr3 virt pages) (paArray : List Nat)
    (rest : List Nat) {i : Nat} (all : i + rest.length = pages)
    (kept : KeepsTables before mm.memory cr3) :
    ((∀ k, i ≤ k → k < pages → ¬ Refused before cr3 (virt + k * pageSize)) →
      ∃ memory, mapPages cr3 virt paArray i rest mm =
          .ok (statusSuccess, { mm with memory := memory }) ∧ KeepsTables before memory cr3) ∧
    ∀ j, i ≤ j → j < pages → Refused before cr3 (virt + j * pageSize) →
      (∀ k, i ≤ k → k < j → ¬ Refused before cr3 (virt + k * pageSize)) →
      ∃ memory, mapPages cr3 virt paArray i rest mm =
        (freePages { mm with memory := memory } (paArray.take (j + 1))).map
          fun after => (statusNoMemory, after) := by
  induction rest generalizing i mm with
  | nil =>
    rw [length_nil] at all
    refine ⟨fun _ => ⟨mm.memory, rfl, kept⟩, ?_⟩
    intro j lower upper
    omega
  | cons pa rest ih =>
    rw [length_cons] at all
    have step := @mmMapPage_window _ mm _ _ _ window kept i pa (pteWrite ||| ptePcd) (by omega)
    have success : ntSuccess statusSuccess = true := by decide
    have failure : ¬ ntSuccess statusNoMemory = true := by decide
    constructor
    · intro none
      obtain ⟨memory, mapped, keptNext⟩ := step.2 (none i (Nat.le_refl i) (by omega))
      obtain ⟨final, done, keptLast⟩ := (@ih { mm with memory := memory } (i + 1) (by omega)
        keptNext).1 (fun k lower upper => none k (by omega) upper)
      refine ⟨final, ?_, keptLast⟩
      rw [mapPages, mapped, if_pos success]
      exact done
    · intro j lower upper refused earlier
      by_cases here : i = j
      · subst here
        refine ⟨mm.memory, ?_⟩
        rw [mapPages, step.1 refused, if_neg failure]
      · obtain ⟨memory, mapped, keptNext⟩ := step.2 (earlier i (Nat.le_refl i) (by omega))
        obtain ⟨final, done⟩ := (@ih { mm with memory := memory } (i + 1) (by omega)
          keptNext).2 j (by omega) upper refused (fun k low high => earlier k (by omega) high)
        refine ⟨final, ?_⟩
        rw [mapPages, mapped, if_pos success]
        exact done

theorem zeroVirtual_spec (window : LargeWindow before cr3 virt pages)
    (aligned : virt % pageSize = 0) (count : Nat) {offset : Nat}
    (inside : offset + count ≤ pages * pageSize) (kept : KeepsTables before memory cr3) :
    ∃ after, zeroVirtual cr3 (virt + offset) count memory = .ok after ∧
      KeepsTables before after cr3 := by
  induction count generalizing offset memory with
  | zero => exact ⟨memory, rfl, kept⟩
  | succ count ih =>
    have page : offset / pageSize < pages := Nat.div_lt_of_lt_mul (by
      rw [Nat.mul_comm]
      omega)
    have here := window.kept kept
    obtain ⟨entry, found⟩ := here.large _ page
    have same : pageOf (virt + offset) = pageOf (virt + offset / pageSize * pageSize) := by
      unfold pageOf pageSize at *
      omega
    have byte : physicalAt memory cr3 (virt + offset) =
        some ((⟨1, entry⟩ : Leaf).physical (virt + offset)) := by
      rw [physicalAt, translate_page same, found]
      rfl
    have next : KeepsTables memory
        (memory.write ((⟨1, entry⟩ : Leaf).physical (virt + offset)) [0]) cr3 := by
      apply here.write_kept page found
      intro address apart
      apply write_outside
      rw [length_singleton]
      unfold Leaf.physical at *
      dsimp only at apart ⊢
      omega
    obtain ⟨after, done, keptLast⟩ := @ih _ (offset + 1) (by omega) (kept.trans next)
    refine ⟨after, ?_, keptLast⟩
    rw [zeroVirtual, byte]
    exact done

end AhciLoops

theorem dmaPages_lt {length i : Nat} (inside : i < length) : i / pageSize < dmaPages length := by
  unfold dmaPages pageSize
  omega

theorem dmaPages_start {length index : Nat} (inside : index < dmaPages length) :
    index * pageSize < length := by
  unfold dmaPages pageSize at *
  omega

theorem toPfn_inside (first i : Nat) : toPfn (first * pageSize + i) = first + i / pageSize := by
  rw [toPfn, Nat.mul_comm, Nat.mul_add_div (by decide)]

/-- The first free pages are a buffer exactly if they are neighbours and the addresses led to them
before the call. -/
theorem bufferOwned_iff {before after : MmState} {cr3 va first length : Nat}
    (held : TablesHeld before cr3) (kept : KeepsTables before.memory after.memory cr3)
    (head : (freeFrames before).head? = some first)
    (active : ∀ pfn ∈ (freeFrames before).take (dmaPages length),
      after.pfnDatabase.stateOf pfn = some .pfnActive) :
    BufferOwned before after cr3 va (first * pageSize) length ↔
      FreeRunAt before first (dmaPages length) ∧
        ∀ i < length, physicalAt before.memory cr3 (va + i) = some (first * pageSize + i) := by
  constructor
  · intro owned
    refine ⟨⟨head, ?_⟩, ?_⟩
    · intro index inside
      have free := owned.wasFree (index * pageSize) (dmaPages_start inside)
      rw [toPfn_inside, Nat.mul_div_cancel _ (by decide)] at free
      exact free
    · intro i inside
      rw [← kept.physicalAt]
      exact owned.translated i inside
  · rintro ⟨run, there⟩
    constructor
    · intro i inside
      rw [kept.physicalAt]
      exact there i inside
    · intro i inside
      rw [toPfn_inside]
      exact run.free _ (dmaPages_lt inside)
    · intro i inside
      apply active
      rw [run.take, toPfn_inside, mem_range'_1]
      exact ⟨Nat.le_add_right _ _, Nat.add_lt_add_left (dmaPages_lt inside) first⟩
    · intro i inside va level slot visits same
      apply held va level slot (kept.visits_iff.mp visits)
      rw [same, toPfn_inside]
      exact run.free _ (dmaPages_lt inside)

/-- When a call of `AhciAllocDmaBuffer` does its part: it is refused before it takes a page or for
the last page it maps, or the first free pages are neighbours to which the window leads already. -/
inductive AhciFits (dma : AhciDma) (cr3 size virt phys : Nat) : Prop
  | noRequest (none : size = 0 ∨ virt = 0 ∨ phys = 0)
  | tooLarge (large : 256 < dmaPages size)
  | noPages (short : (freeFrames dma.mm).length < dmaPages size)
  | lastRefused (j : Nat) (last : j + 1 = dmaPages size)
      (refused : Refused dma.mm.memory cr3 (dma.dmaVaNext + j * pageSize))
      (mapped : ∀ k < j, ¬ Refused dma.mm.memory cr3 (dma.dmaVaNext + k * pageSize))
  | contiguous (first : Nat) (run : FreeRunAt dma.mm first (dmaPages size))
      (mapped : ∀ k < dmaPages size, ¬ Refused dma.mm.memory cr3 (dma.dmaVaNext + k * pageSize))
      (there : ∀ i < size,
        physicalAt dma.mm.memory cr3 (dma.dmaVaNext + i) = some (first * pageSize + i))

theorem nothingTaken_iff {before middle mapped after : MmState} {frames : List Nat} {j : Nat}
    (took : Took before frames middle) (same : mapped.pfnDatabase = middle.pfnDatabase)
    (inside : j < frames.length) (released : Released mapped (frames.take (j + 1)) after) :
    NothingTaken before after ↔ j + 1 = frames.length := by
  constructor
  · intro all
    by_contra short
    have next : j + 1 < frames.length := by omega
    have member : frames[j + 1] ∈ frames := getElem_mem next
    have free := all _ (took.isFree member)
    rw [released.free_iff, same, took.free_iff] at free
    rcases free with ⟨_, outside⟩ | given
    · exact outside member
    · obtain ⟨i, place, equal⟩ := mem_take_iff_getElem.mp given
      have index := (took.nodup.getElem_inj_iff).mp equal
      omega
  · intro last pfn free
    rw [last, List.take_length] at released
    rw [released.free_iff, same, took.free_iff]
    by_cases member : pfn ∈ frames
    · exact .inr member
    · exact .inl ⟨free, member⟩

theorem exists_first {p : Nat → Prop} {bound : Nat} (some : ∃ j < bound, p j) :
    ∃ j < bound, p j ∧ ∀ k < j, ¬ p k := by
  classical
  obtain ⟨j, inside, here⟩ := some
  have found : ∃ j, p j := ⟨j, here⟩
  exact ⟨Nat.find found, Nat.lt_of_le_of_lt (Nat.find_min' found here) inside, Nat.find_spec found,
    fun k before => Nat.find_min found before⟩

section Ahci

variable {dma after : AhciDma} {before : MmState} {status : NtStatus} {cr3 size virt phys : Nat}

theorem ahciKept_failed (failed : ¬ ntSuccess status = true) :
    AhciKept before cr3 size (.ok (⟨status, virt, phys⟩, after)) ↔
      NothingTaken before after.mm := by
  simp only [AhciKept, failed, Bool.false_eq_true, ↓reduceIte]

theorem ahciKept_succeeded (succeeded : ntSuccess status = true) :
    AhciKept before cr3 size (.ok (⟨status, virt, phys⟩, after)) ↔
      BufferOwned before after.mm cr3 virt phys size := by
  simp only [AhciKept, succeeded, ↓reduceIte]

/-- There is a page for every part of the buffer. -/
structure AhciPages (dma : AhciDma) (cr3 size : Nat) : Prop where
  hintAbove : 0 < dma.mm.hintPfn
  held : TablesHeld dma.mm cr3
  window : LargeWindow dma.mm.memory cr3 dma.dmaVaNext (dmaPages size)
  enough : dmaPages size ≤ (freeFrames dma.mm).length

theorem ahciAllocDmaBuffer_short (request : ¬ (size = 0 ∨ virt = 0 ∨ phys = 0))
    (fits : ¬ 256 < dmaPages size) (small : size + (pageSize - 1) < 2 ^ 64)
    (aboveZero : 0 < dma.mm.hintPfn) (short : (freeFrames dma.mm).length < dmaPages size) :
    ∃ after, ahciAllocDmaBuffer dma cr3 size virt phys =
        .ok (⟨statusNoMemory, 0, 0⟩, dma.withMm after) ∧
      ∀ pfn, after.pfnDatabase.Free pfn ↔ dma.mm.pfnDatabase.Free pfn := by
  obtain ⟨after, taken, same⟩ := (takePages_spec aboveZero (dmaPages size)
    (Took.refl aboveZero)).2 short
  rw [map_nil] at taken
  refine ⟨after, ?_, same⟩
  unfold ahciAllocDmaBuffer
  rw [if_neg request]
  dsimp only
  rw [wrappedPages_eq small, if_neg fits, taken]
  rfl

section Pages

variable (request : ¬ (size = 0 ∨ virt = 0 ∨ phys = 0)) (fits : ¬ 256 < dmaPages size)
  (small : size + (pageSize - 1) < 2 ^ 64) (pages : AhciPages dma cr3 size)

include pages in
theorem AhciPages.take_length : ((freeFrames dma.mm).take (dmaPages size)).length =
    dmaPages size := by
  rw [length_take]
  exact Nat.min_eq_left pages.enough

include pages in
/-- Both loops, over the first free pages. -/
theorem AhciPages.taken : ∃ middle, takePages (dmaPages size) [] dma.mm =
      .ok (some (((freeFrames dma.mm).take (dmaPages size)).map (· * pageSize)), middle) ∧
    Took dma.mm ((freeFrames dma.mm).take (dmaPages size)) middle := by
  have taken := (takePages_spec pages.hintAbove (dmaPages size)
    (Took.refl pages.hintAbove)).1 pages.enough
  rwa [map_nil, nil_append] at taken

include request fits small pages

/-- A page that cannot be mapped ends the call with the pages before it mapped. -/
theorem ahciAllocDmaBuffer_refused {j : Nat} (inside : j < dmaPages size)
    (refused : Refused dma.mm.memory cr3 (dma.dmaVaNext + j * pageSize))
    (earlier : ∀ k < j, ¬ Refused dma.mm.memory cr3 (dma.dmaVaNext + k * pageSize)) :
    ∃ after, ahciAllocDmaBuffer dma cr3 size virt phys =
        .ok (⟨statusNoMemory, 0, 0⟩, (dma.advance (dmaPages size)).withMm after) ∧
      (NothingTaken dma.mm after ↔ j + 1 = dmaPages size) := by
  obtain ⟨middle, taken, took⟩ := pages.taken
  have count := pages.take_length
  obtain ⟨memory, done⟩ := (@mapPages_spec _ middle _ _ _ pages.window
    (((freeFrames dma.mm).take (dmaPages size)).map (· * pageSize))
    (((freeFrames dma.mm).take (dmaPages size)).map (· * pageSize)) 0
    (by rw [length_map, count, Nat.zero_add]) (took.keepsTables pages.held)).2 j
    (Nat.zero_le j) inside refused (fun k _ => earlier k)
  obtain ⟨final, given, released⟩ := @freePages_released { middle with memory := memory }
    (((freeFrames dma.mm).take (dmaPages size)).take (j + 1)) took.positive
    (took.nodup.sublist (take_sublist _ _))
    (fun pfn member => took.pos pages.hintAbove (mem_of_mem_take member))
    (fun pfn member => took.active pfn (mem_of_mem_take member))
  have answer := @nothingTaken_iff _ middle { middle with memory := memory } final _ j took rfl
    (by rw [count]; exact inside) released
  rw [count] at answer
  refine ⟨final, ?_, answer⟩
  unfold ahciAllocDmaBuffer
  rw [if_neg request]
  dsimp only
  rw [wrappedPages_eq small, if_neg fits, taken]
  dsimp only [asserted, bind, Except.bind]
  rw [done, ← map_take, given]
  dsimp only [Except.map]
  rw [if_neg (by decide)]

theorem ahciAllocDmaBuffer_mapped
    (mapped : ∀ k < dmaPages size, ¬ Refused dma.mm.memory cr3 (dma.dmaVaNext + k * pageSize)) :
    ∃ first middle memory, (freeFrames dma.mm).head? = some first ∧
      Took dma.mm ((freeFrames dma.mm).take (dmaPages size)) middle ∧
      KeepsTables dma.mm.memory memory cr3 ∧
      ahciAllocDmaBuffer dma cr3 size virt phys =
        .ok (⟨statusSuccess, dma.dmaVaNext, first * pageSize⟩,
          (dma.advance (dmaPages size)).withMm { middle with memory := memory }) := by
  have success : ntSuccess statusSuccess = true := by decide
  obtain ⟨middle, taken, took⟩ := pages.taken
  obtain ⟨memory, done, keptMapped⟩ := (@mapPages_spec _ middle _ _ _ pages.window
    (((freeFrames dma.mm).take (dmaPages size)).map (· * pageSize))
    (((freeFrames dma.mm).take (dmaPages size)).map (· * pageSize)) 0
    (by rw [length_map, pages.take_length, Nat.zero_add])
    (took.keepsTables pages.held)).1 (fun k _ => mapped k)
  obtain ⟨final, zeroed, keptFinal⟩ := @zeroVirtual_spec _ _ _ _ _ pages.window dma.aligned size 0
    (by unfold dmaPages pageSize; omega) keptMapped
  have positive : 0 < dmaPages size := by
    unfold dmaPages pageSize
    omega
  have enough := pages.enough
  obtain ⟨first, rest, list⟩ : ∃ first rest, freeFrames dma.mm = first :: rest :=
    exists_cons_of_length_pos (by omega)
  have base : (((freeFrames dma.mm).take (dmaPages size)).map (· * pageSize)).headD 0 =
      first * pageSize := by
    obtain ⟨less, same⟩ := Nat.exists_eq_succ_of_ne_zero (Nat.ne_of_gt positive)
    rw [list, same, take_succ_cons, map_cons, headD_cons]
  rw [Nat.add_zero] at zeroed
  refine ⟨first, middle, final, by rw [list, head?_cons], took, keptFinal, ?_⟩
  unfold ahciAllocDmaBuffer
  rw [if_neg request]
  dsimp only
  rw [wrappedPages_eq small, if_neg fits, taken]
  dsimp only [asserted, bind, Except.bind]
  rw [done]
  dsimp only
  rw [if_pos success, zeroed]
  dsimp only
  rw [base]

/-- In mapped windows the call keeps its promise exactly if the buffer fits. -/
theorem ahciMapped_kept_iff : AhciKept dma.mm cr3 size (ahciAllocDmaBuffer dma cr3 size virt phys) ↔
    AhciFits dma cr3 size virt phys := by
  by_cases some : ∃ j < dmaPages size, Refused dma.mm.memory cr3 (dma.dmaVaNext + j * pageSize)
  · obtain ⟨j, inside, refused, earlier⟩ := exists_first some
    obtain ⟨after, result, answer⟩ :=
      ahciAllocDmaBuffer_refused request fits small pages inside refused earlier
    rw [result, ahciKept_failed (by decide)]
    show NothingTaken dma.mm after ↔ _
    rw [answer]
    constructor
    · intro finish
      exact .lastRefused j finish refused earlier
    · intro good
      cases good with
      | noRequest none => exact absurd none request
      | tooLarge large => exact absurd large fits
      | noPages short => exact absurd short (Nat.not_lt.mpr pages.enough)
      | lastRefused last finish refusedLast mapped =>
        rcases Nat.lt_trichotomy j last with before | same | after
        · exact absurd refused (mapped j before)
        · omega
        · exact absurd refusedLast (earlier last after)
      | contiguous first run mapped there => exact absurd refused (mapped j inside)
  · have none : ∀ k < dmaPages size,
        ¬ Refused dma.mm.memory cr3 (dma.dmaVaNext + k * pageSize) :=
      fun k inside refused => some ⟨k, inside, refused⟩
    obtain ⟨first, middle, memory, head, took, kept, result⟩ :=
      ahciAllocDmaBuffer_mapped request fits small pages none
    have owned := @bufferOwned_iff dma.mm { middle with memory := memory } cr3 dma.dmaVaNext first
      size pages.held kept head took.active
    rw [result, ahciKept_succeeded (by decide)]
    show BufferOwned dma.mm { middle with memory := memory } cr3 dma.dmaVaNext (first * pageSize)
      size ↔ _
    rw [owned]
    constructor
    · rintro ⟨run, there⟩
      exact .contiguous first run none there
    · intro good
      cases good with
      | noRequest none => exact absurd none request
      | tooLarge large => exact absurd large fits
      | noPages short => exact absurd short (Nat.not_lt.mpr pages.enough)
      | lastRefused last finish refused mapped => exact absurd refused (none last (by omega))
      | contiguous other run mapped there =>
        obtain rfl : first = other := Option.some.inj (head.symm.trans run.head)
        exact ⟨run, there⟩

end Pages

/-- The AHCI allocator, from any tables that hold. -/
theorem ahciAllocDmaBuffer_kept_iff (aboveZero : 0 < dma.mm.hintPfn) (held : TablesHeld dma.mm cr3)
    (window : dmaPages size ≤ 256 → LargeWindow dma.mm.memory cr3 dma.dmaVaNext (dmaPages size))
    (small : size + (pageSize - 1) < 2 ^ 64) :
    AhciKept dma.mm cr3 size (ahciAllocDmaBuffer dma cr3 size virt phys) ↔
      AhciFits dma cr3 size virt phys := by
  have badRequest : ¬ ntSuccess statusInvalidParameter = true := by decide
  have failure : ¬ ntSuccess statusNoMemory = true := by decide
  by_cases request : size = 0 ∨ virt = 0 ∨ phys = 0
  · refine iff_of_true ?_ (.noRequest request)
    unfold ahciAllocDmaBuffer
    rw [if_pos request, ahciKept_failed badRequest]
    exact fun _ free => free
  · by_cases large : 256 < dmaPages size
    · refine iff_of_true ?_ (.tooLarge large)
      unfold ahciAllocDmaBuffer
      rw [if_neg request]
      dsimp only
      rw [wrappedPages_eq small, if_pos large, ahciKept_failed failure]
      exact fun _ free => free
    · by_cases short : (freeFrames dma.mm).length < dmaPages size
      · refine iff_of_true ?_ (.noPages short)
        obtain ⟨after, result, same⟩ := @ahciAllocDmaBuffer_short _ cr3 _ _ _ request large small
          aboveZero short
        rw [result, ahciKept_failed failure]
        exact fun pfn free => (same pfn).mpr free
      · exact ahciMapped_kept_iff request large small
          ⟨aboveZero, held, window (Nat.not_lt.mp large), Nat.not_lt.mp short⟩

end Ahci

structure NdisDmaBuffer where
  virtualAddress : Nat
  physicalAddress : Nat
  length : Nat
  pages : Nat
  mapped : Bool
  direction : Bool
deriving DecidableEq, Repr

/-- `BasePa + (i << PAGE_SHIFT)`, where `i` is a `ULONG`. -/
def followingPa (basePa i : Nat) : Nat := (basePa + i * pageSize % 2 ^ 32) % 2 ^ 64

/-- The pages that are given back when page `i` does not follow the others. -/
def strayPages (basePa i pa : Nat) : List Nat :=
  (List.range i).map (followingPa basePa) ++ if pa = 0 then [] else [pa]

/-- The loop for the pages behind the first, with `count` of them to go: `BasePa` and `Pages`
afterwards. -/
def takeFollowing (basePa pages : Nat) :
    Nat → Nat → MmState → Except BugCheck ((Nat × Nat) × MmState)
  | 0, _, mm => .ok ((basePa, pages), mm)
  | count + 1, i, mm =>
      let page := mmAllocatePhysicalPage mm
      if page.1 ≠ 0 ∧ page.1 = followingPa basePa i then
        takeFollowing basePa pages count (i + 1) page.2
      else
        (freePages page.2 (strayPages basePa i page.1)).map fun mm =>
          let again := mmAllocatePhysicalPage mm
          ((again.1, 1), again.2)

/-- `NdisMAllocateDmaBuffer`, in the state that the allocation of the descriptor leaves; it is
`none` where the pool has none. -/
def ndisMAllocateDmaBuffer (mm : MmState) (descriptor : Option Nat) (length : Nat) :
    Except BugCheck (Option NdisDmaBuffer × MmState) :=
  if length = 0 then .ok (none, mm)
  else
    let pages := wrappedPages 32 length
    match descriptor with
    | none => .ok (none, mm)
    | some _ =>
        let base := mmAllocatePhysicalPage mm
        if base.1 = 0 then .ok (none, base.2)
        else
          (takeFollowing base.1 pages (pages - 1) 1 base.2).map fun ((basePa, pages), mm) =>
            if basePa = 0 then (none, mm)
            else (some ⟨basePa, basePa, length, pages, false, false⟩, mm)

/-- `NdisMDestroyDmaBuffer`, as far as it is about pages. -/
def ndisMDestroyDmaBuffer (mm : MmState) (buffer : Option NdisDmaBuffer) :
    Except BugCheck MmState :=
  match buffer with
  | none => .ok mm
  | some buffer =>
      if buffer.virtualAddress ≠ 0 ∧ buffer.pages > 0 then
        freePages mm ((List.range buffer.pages).map fun i =>
          (buffer.physicalAddress + i * pageSize) % 2 ^ 64)
      else .ok mm

/-- A page that a call has taken. -/
def TakenBy (before after : MmState) (pfn : Nat) : Prop :=
  before.pfnDatabase.Free pfn ∧ ¬ after.pfnDatabase.Free pfn

/-- Destroying the buffer in any later state in which its pages are still in use frees them. -/
def Destroyable (before after : MmState) (buffer : NdisDmaBuffer) : Prop :=
  ∀ later : MmState, 0 < later.hintPfn →
    (∀ pfn, TakenBy before after pfn → later.pfnDatabase.stateOf pfn = some .pfnActive) →
      ∃ freed, ndisMDestroyDmaBuffer later (some buffer) = .ok freed ∧
        ∀ pfn, TakenBy before after pfn → freed.pfnDatabase.Free pfn

/-- What a call owes its caller: the buffer, whose pages can be given back, or nothing taken. -/
def NdisKept (before : MmState) (cr3 length : Nat) :
    Except BugCheck (Option NdisDmaBuffer × MmState) → Prop
  | .error _ => False
  | .ok (none, after) => NothingTaken before after
  | .ok (some buffer, after) =>
      BufferOwned before after cr3 buffer.virtualAddress buffer.physicalAddress length ∧
        Destroyable before after buffer

/-- When a call of `NdisMAllocateDmaBuffer` does its part: it fails before it has a page, or the
first free pages are neighbours that are mapped to themselves. -/
inductive NdisFits (mm : MmState) (cr3 : Nat) (descriptor : Option Nat) (length : Nat) : Prop
  | noRequest (none : length = 0)
  | noDescriptor (none : descriptor = none)
  | noPage (none : freeFrames mm = [])
  | contiguous (first : Nat) (run : FreeRunAt mm first (dmaPages length))
      (identity : ∀ i < length,
        physicalAt mm.memory cr3 (first * pageSize + i) = some (first * pageSize + i))

section Ndis

variable {start mm : MmState} {cr3 first : Nat}

theorem followingPa_eq {i : Nat} (low : i < 2 ^ 20) (small : first < 2 ^ 24) :
    followingPa (first * pageSize) i = (first + i) * pageSize := by
  unfold followingPa pageSize
  omega

theorem strayPages_eq {i : Nat} (few : i ≤ 2 ^ 20) (small : first < 2 ^ 24) :
    (List.range i).map (followingPa (first * pageSize)) =
      (List.range' first i).map (· * pageSize) := by
  rw [List.range'_eq_map_range, map_map]
  apply map_congr_left
  intro index member
  exact followingPa_eq (Nat.lt_of_lt_of_le (mem_range.mp member) few) small

theorem fallback_spec {frames : List Nat} (aboveZero : 0 < start.hintPfn)
    (took : Took start frames mm) (some : first ∈ frames) {stray : List Nat}
    (all : stray = frames.map (· * pageSize)) :
    ∃ pfn after, ((freePages mm stray).map fun mm =>
        let again := mmAllocatePhysicalPage mm
        ((again.1, 1), again.2)) = .ok ((pfn * pageSize, 1), after) ∧
      0 < pfn ∧ start.pfnDatabase.Free pfn ∧
      ∀ other, after.pfnDatabase.Free other ↔ start.pfnDatabase.Free other ∧ other ≠ pfn := by
  obtain ⟨freed, done, released⟩ := freePages_released took.positive took.nodup
    (fun pfn member => took.pos aboveZero member) took.active
  have same := took.released released
  rw [all, done]
  dsimp only [Except.map]
  rcases mmAllocatePhysicalPage_took released.positive with
    ⟨empty, _⟩ | ⟨pfn, after, positive, result, one⟩
  · have there : first ∈ freeFrames freed :=
      mem_freeFrames.mpr ⟨released.low first some, released.free first some⟩
    rw [empty] at there
    cases there
  · refine ⟨pfn, after, by rw [result], positive, ?_, ?_⟩
    · exact (same pfn).mp (one.isFree (mem_singleton_self pfn))
    · intro other
      rw [one.free_iff, same, mem_singleton]

/-- The loop takes the pages behind the first if they are free; otherwise the call is left with a
single page. -/
theorem takeFollowing_spec {pages : Nat} (aboveZero : 0 < start.hintPfn)
    (head : (freeFrames start).head? = some first) (few : pages ≤ 2 ^ 20) (count : Nat) {i : Nat}
    (positive : 0 < i) (all : i + count = pages) (took : Took start (List.range' first i) mm) :
    ((∀ index < pages, start.pfnDatabase.Free (first + index)) →
      ∃ after, takeFollowing (first * pageSize) pages count i mm =
          .ok ((first * pageSize, pages), after) ∧ Took start (List.range' first pages) after) ∧
    (¬ (∀ index < pages, start.pfnDatabase.Free (first + index)) →
      ∃ pfn after, takeFollowing (first * pageSize) pages count i mm =
          .ok ((pfn * pageSize, 1), after) ∧
        0 < pfn ∧ start.pfnDatabase.Free pfn ∧
        ∀ other, after.pfnDatabase.Free other ↔ start.pfnDatabase.Free other ∧ other ≠ pfn) := by
  have small : first < 2 ^ 24 := (freeFrames_first head).2.1.small
  have member : first ∈ List.range' first i := mem_range'_1.mpr ⟨Nat.le_refl _, by omega⟩
  induction count generalizing i mm with
  | zero =>
    obtain rfl : i = pages := by omega
    refine ⟨fun _ => ⟨mm, rfl, took⟩, fun lost => absurd ?_ lost⟩
    intro index inside
    exact took.isFree (mem_range'_1.mpr ⟨Nat.le_add_right _ _, by omega⟩)
  | succ count ih =>
    have stray := @strayPages_eq first i (by omega) small
    rcases mmAllocatePhysicalPage_took took.positive with
      ⟨empty, result⟩ | ⟨pfn, middle, above, result, one⟩
    · have short : ¬ (∀ index < pages, start.pfnDatabase.Free (first + index)) := by
        intro free
        have run : FreeRunAt start first (i + 1) := ⟨head, fun index _ => free index (by omega)⟩
        have frames := congrArg List.length run.take
        rw [took.order, empty, append_nil, length_take, length_range', length_range'] at frames
        omega
      refine ⟨fun free => absurd free short, fun _ => ?_⟩
      have fallback := fallback_spec aboveZero took member
        (show strayPages (first * pageSize) i 0 = _ by
          rw [strayPages, if_pos rfl, append_nil, stray])
      rw [takeFollowing, result, if_neg (fun both => both.1 rfl)]
      exact fallback
    · have nonzero : pfn * pageSize ≠ 0 := by
        simp only [pageSize]
        omega
      have follows : pfn * pageSize = followingPa (first * pageSize) i ↔ pfn = first + i := by
        rw [followingPa_eq (by omega) small]
        exact Nat.mul_left_inj (by decide)
      have together := took.trans one
      by_cases next : pfn = first + i
      · subst next
        rw [← List.range'_1_concat] at together
        have later := ih (Nat.succ_pos i) (by omega) together
          (mem_range'_1.mpr ⟨Nat.le_refl _, by omega⟩)
        rw [takeFollowing, result, if_pos ⟨nonzero, follows.mpr rfl⟩]
        exact later
      · have short : ¬ (∀ index < pages, start.pfnDatabase.Free (first + index)) := by
          intro free
          have run : FreeRunAt start first (i + 1) := ⟨head, fun index _ => free index (by omega)⟩
          have frames := run.take
          rw [took.order, one.order, singleton_append, take_append,
            length_range', List.range'_1_concat,
            take_of_length_le (by rw [length_range']; omega)] at frames
          have last := append_cancel_left frames
          rw [Nat.add_sub_cancel_left, take_succ_cons, take_zero] at last
          exact next (singleton_inj.mp last)
        refine ⟨fun free => absurd free short, fun _ => ?_⟩
        have fallback := fallback_spec aboveZero together (mem_append_left _ member)
          (show strayPages (first * pageSize) i (pfn * pageSize) = _ by
            rw [strayPages, if_neg nonzero, stray, map_append, map_singleton])
        rw [takeFollowing, result, if_neg (fun both => next (follows.mp both.2))]
        exact fallback

/-- A buffer over a run of taken pages can be destroyed. -/
theorem destroyable_of_took {after : MmState} {pages : Nat} {buffer : NdisDmaBuffer}
    (aboveZero : 0 < start.hintPfn) (took : Took start (List.range' first pages) after)
    (virtual : buffer.virtualAddress ≠ 0) (some : 0 < buffer.pages) (count : buffer.pages = pages)
    (base : buffer.physicalAddress = first * pageSize) : Destroyable start after buffer := by
  have taken : ∀ pfn, TakenBy start after pfn ↔ pfn ∈ List.range' first pages := by
    intro pfn
    unfold TakenBy
    rw [took.free_iff]
    constructor
    · intro both
      by_contra outside
      exact both.2 ⟨both.1, outside⟩
    · intro member
      exact ⟨took.isFree member, fun both => both.2 member⟩
  intro later positive active
  obtain ⟨freed, done, released⟩ := freePages_released positive took.nodup
    (fun pfn member => took.pos aboveZero member)
    (fun pfn member => active pfn ((taken pfn).mpr member))
  have addresses : ((List.range buffer.pages).map fun i =>
      (buffer.physicalAddress + i * pageSize) % 2 ^ 64) =
        (List.range' first pages).map (· * pageSize) := by
    rw [List.range'_eq_map_range, map_map, count]
    apply map_congr_left
    intro index member
    have inside := mem_range.mp member
    have small := (took.isFree (mem_range'_1.mpr
      ⟨Nat.le_add_right first index, Nat.add_lt_add_left inside first⟩)).small
    rw [base, Function.comp_apply]
    unfold pageSize
    omega
  refine ⟨freed, ?_, fun pfn there => released.free pfn ((taken pfn).mp there)⟩
  unfold ndisMDestroyDmaBuffer
  dsimp only
  rw [if_pos ⟨virtual, some⟩, addresses]
  exact done

/-- The NDIS allocator, from any tables that hold. -/
theorem ndisMAllocateDmaBuffer_kept_iff {descriptor : Option Nat} {length : Nat}
    (aboveZero : 0 < mm.hintPfn) (held : TablesHeld mm cr3)
    (small : length + (pageSize - 1) < 2 ^ 32) :
    NdisKept mm cr3 length (ndisMAllocateDmaBuffer mm descriptor length) ↔
      NdisFits mm cr3 descriptor length := by
  have nothing : NothingTaken mm mm := fun _ free => free
  unfold ndisMAllocateDmaBuffer
  by_cases request : length = 0
  · rw [if_pos request]
    exact iff_of_true nothing (.noRequest request)
  rw [if_neg request]
  dsimp only
  cases descriptor with
  | none => exact iff_of_true nothing (.noDescriptor rfl)
  | some address =>
    dsimp only
    rw [wrappedPages_eq small]
    rcases mmAllocatePhysicalPage_took aboveZero with
      ⟨empty, result⟩ | ⟨first, middle, positive, result, one⟩
    · rw [result, if_pos rfl]
      exact iff_of_true nothing (.noPage empty)
    have nonzero : first * pageSize ≠ 0 := by
      simp only [pageSize]
      omega
    have head : (freeFrames mm).head? = some first := by
      rw [one.order]
      rfl
    have pages : 0 < dmaPages length := by
      unfold dmaPages pageSize
      omega
    have few : dmaPages length ≤ 2 ^ 20 := by
      unfold dmaPages pageSize at *
      omega
    have loop := @takeFollowing_spec mm middle first (dmaPages length) aboveZero head few
      (dmaPages length - 1) 1 Nat.one_pos (by omega) one
    rw [result, if_neg nonzero]
    by_cases free : ∀ index < dmaPages length, mm.pfnDatabase.Free (first + index)
    · obtain ⟨after, done, took⟩ := loop.1 free
      have run : FreeRunAt mm first (dmaPages length) := ⟨head, free⟩
      have owned := @bufferOwned_iff mm after cr3 (first * pageSize) first length held
        (took.keepsTables held) head (by rw [run.take]; exact took.active)
      have destroyed := @destroyable_of_took mm first after (dmaPages length)
        ⟨first * pageSize, first * pageSize, length, dmaPages length, false, false⟩ aboveZero
        took nonzero pages rfl rfl
      rw [done]
      dsimp only [Except.map]
      rw [if_neg nonzero]
      show BufferOwned _ _ _ _ _ _ ∧ Destroyable _ _ _ ↔ _
      rw [owned]
      constructor
      · rintro ⟨⟨_, identity⟩, _⟩
        exact .contiguous first run identity
      · intro good
        cases good with
        | noRequest none => exact absurd none request
        | noDescriptor none => cases none
        | noPage none =>
          rw [none] at head
          cases head
        | contiguous other _ identity =>
          rename_i there
          obtain rfl : first = other := Option.some.inj (head.symm.trans there.head)
          exact ⟨⟨run, identity⟩, destroyed⟩
    · obtain ⟨pfn, after, done, above, wasFree, still⟩ := loop.2 free
      have address : pfn * pageSize ≠ 0 := by
        simp only [pageSize]
        omega
      rw [done]
      dsimp only [Except.map]
      rw [if_neg address]
      apply iff_of_false
      · -- The page behind the one taken is still free.
        rintro ⟨owned, _⟩
        have long : pageSize < length := by
          by_contra short
          apply free
          intro index inside
          have zero : index = 0 := by
            have start := dmaPages_start inside
            unfold pageSize at *
            omega
          rw [zero]
          exact (freeFrames_first head).2.1
        have wasFreeNext := owned.wasFree pageSize long
        have inUseNext := owned.inUse pageSize long
        rw [toPfn_inside, Nat.div_self (by decide)] at wasFreeNext inUseNext
        have free' := (still (pfn + 1)).mpr ⟨wasFreeNext, Nat.succ_ne_self pfn⟩
        rw [PfnDatabase.Free, inUseNext] at free'
        cases free'
      · intro good
        cases good with
        | noRequest none => exact request none
        | noDescriptor none => cases none
        | noPage none =>
          rw [none] at head
          cases head
        | contiguous other run identity =>
          obtain rfl : first = other := Option.some.inj (head.symm.trans run.head)
          exact free run.free

end Ndis

section Boot

variable {memory : ByteMemory} {pml4 virt pages : Nat}

theorem largeWindow_of_bootTables (boot : BootTables memory pml4)
    (below : pml4 + 0x42000 ≤ virt / 2 ^ 21 * 2 ^ 21) (inside : virt + pages * pageSize ≤ 2 ^ 32) :
    LargeWindow memory pml4 virt pages := by
  have address : ∀ i < pages, virt + i * pageSize < 2 ^ 32 := by
    intro i index
    unfold pageSize at *
    omega
  constructor
  · intro i index
    have low := address i index
    exact ⟨_, boot.translate_eq (by omega)⟩
  · intro i index leaf found va level slot visits
    have low := address i index
    rw [boot.translate_eq (by omega)] at found
    obtain rfl := Option.some.inj found
    have range := boot.visits_range visits
    dsimp only
    unfold frameOf pageSize at *
    omega
  · intro va level slot visits
    have range := boot.visits_range visits
    have placed := boot.placed
    have aligned := boot.aligned
    unfold toPfn pageSize at *
    omega

end Boot

theorem bootEntries_bounded {states : List PageState} (few : states.length ≤ 256) :
    (replicate 256 (⟨.pfnReservedHw, 0⟩ : Mmpfn) ++
      states.map fun state => (⟨state, 0⟩ : Mmpfn)).length ≤ toPfn mmBootMappedLimit := by
  rw [length_append, length_replicate, length_map]
  exact Nat.le_trans (Nat.add_le_add_left few 256) (by decide)

/-- Before the first call of `AhciAllocDmaBuffer`, with 1 MB in use and behind it pages in these
states. -/
def bootDma (states : List PageState) (few : states.length ≤ 256) : AhciDma where
  mm := ⟨⟨_, bootEntries_bounded few⟩, states.count .pfnFree, 256, wordsMemory bootWord⟩
  dmaVaNext := 0xD0000000
  aligned := by decide

section BootDma

variable {states : List PageState} {few : states.length ≤ 256}

theorem bootDma_stateOf_low {pfn : Nat} (low : pfn < 256) :
    (bootDma states few).mm.pfnDatabase.stateOf pfn = some .pfnReservedHw := by
  show stateIn (_ ++ _) pfn = _
  rw [stateIn, getElem?_append_left (by rw [length_replicate]; exact low),
    getElem?_replicate, if_pos low]
  rfl

theorem bootDma_stateOf (index : Nat) :
    (bootDma states few).mm.pfnDatabase.stateOf (256 + index) = states[index]? := by
  show stateIn (_ ++ _) _ = _
  rw [stateIn, getElem?_append_right (by rw [length_replicate]; omega),
    length_replicate, Nat.add_sub_cancel_left, getElem?_map, Option.map_map]
  exact Option.map_id'

theorem bootDma_head (free : states[0]? = some .pfnFree) :
    (freeFrames (bootDma states few).mm).head? = some 256 := by
  have here : (bootDma states few).mm.pfnDatabase.Free 256 := by
    have state := @bootDma_stateOf states few 0
    rw [free] at state
    exact state
  rw [@freeFrames_eq_cons (bootDma states few).mm 256 (Nat.le_refl 256) here
    (fun earlier low high => absurd low (by
      show ¬ 256 ≤ earlier
      omega)), head?_cons]

theorem bootDma_tablesHeld : TablesHeld (bootDma states few).mm 0x1000 := by
  intro va level slot visits free
  have range := bootTables_bootWord.visits_range visits
  have low : toPfn slot < 256 := by
    unfold toPfn pageSize
    omega
  rw [PfnDatabase.Free, bootDma_stateOf_low low] at free
  cases free

theorem bootDma_window :
    LargeWindow (bootDma states few).mm.memory 0x1000 (bootDma states few).dmaVaNext 2 :=
  @largeWindow_of_bootTables _ _ 0xD0000000 2 bootTables_bootWord (by decide) (by decide)

theorem bootDma_physicalAt {va : Nat} (low : va < 2 ^ 32) :
    physicalAt (bootDma states few).mm.memory 0x1000 va = some va := by
  have there := bootTables_bootWord.physicalAt_eq (show va < 2 ^ 36 by omega)
  rw [Nat.mod_eq_of_lt low] at there
  exact there

theorem bootDma_not_fits (enough : 2 ≤ (freeFrames (bootDma states few).mm).length)
    (free : states[0]? = some .pfnFree) : ¬ AhciFits (bootDma states few) 0x1000 8192 1 1 := by
  have mapped : ∀ k < 2, ¬ Refused (bootDma states few).mm.memory 0x1000
      ((bootDma states few).dmaVaNext + k * pageSize) := by
    rintro k inside ⟨leaf, found, zero⟩
    have there := bootTables_bootWord.translate_eq
      (show 0xD0000000 + k * pageSize < 2 ^ 36 by unfold pageSize; omega)
    obtain rfl := Option.some.inj (there.symm.trans found)
    dsimp only at zero
    unfold frameOf pageSize at zero
    omega
  intro fits
  cases fits with
  | noRequest none => exact absurd none (by decide)
  | tooLarge large => exact absurd large (by decide)
  | noPages short => exact absurd short (Nat.not_lt.mpr enough)
  | lastRefused j last refused _ =>
    rw [show dmaPages 8192 = 2 by decide] at last
    exact mapped j (by omega) refused
  | contiguous first run _ there =>
    have head := Option.some.inj (run.head.symm.trans (@bootDma_head states few free))
    have byte := there 0 (by decide)
    have window := @bootDma_physicalAt states few (0xD0000000 + 0) (by decide)
    have same := Option.some.inj (byte.symm.trans window)
    rw [head] at same
    exact absurd same (by decide)

end BootDma

/-- When the two allocators do their part: the buffer of `AhciAllocDmaBuffer` is mapped only by
where the window leads already, and neither looks for pages that are neighbours. -/
theorem dmaBuffers_kept_iff (dma : AhciDma) (cr3 size virt phys : Nat) (descriptor : Option Nat)
    (aboveZero : 0 < dma.mm.hintPfn) (held : TablesHeld dma.mm cr3)
    (window : dmaPages size ≤ 256 → LargeWindow dma.mm.memory cr3 dma.dmaVaNext (dmaPages size))
    (small : size + (pageSize - 1) < 2 ^ 32) :
    (AhciKept dma.mm cr3 size (ahciAllocDmaBuffer dma cr3 size virt phys) ↔
      AhciFits dma cr3 size virt phys) ∧
    (NdisKept dma.mm cr3 size (ndisMAllocateDmaBuffer dma.mm descriptor size) ↔
      NdisFits dma.mm cr3 descriptor size) :=
  ⟨ahciAllocDmaBuffer_kept_iff aboveZero held window (by omega),
    ndisMAllocateDmaBuffer_kept_iff aboveZero held small⟩

/-- With two free neighbours the buffer of NDIS is one, and that of AHCI is not. -/
theorem dmaBuffers_kept_iff_neighbours :
    ¬ AhciKept (bootDma [.pfnFree, .pfnFree] (by decide)).mm 0x1000 8192
        (ahciAllocDmaBuffer (bootDma [.pfnFree, .pfnFree] (by decide)) 0x1000 8192 1 1) ∧
      NdisKept (bootDma [.pfnFree, .pfnFree] (by decide)).mm 0x1000 8192
        (ndisMAllocateDmaBuffer (bootDma [.pfnFree, .pfnFree] (by decide)).mm
          (some 0x200000) 8192) := by
  have few : [PageState.pfnFree, PageState.pfnFree].length ≤ 256 := by decide
  have both := dmaBuffers_kept_iff (bootDma _ few) 0x1000 8192 1 1 (some 0x200000)
    (Nat.succ_pos 255) (@bootDma_tablesHeld _ few) (fun _ => @bootDma_window _ few) (by decide)
  have long : 2 ≤ (freeFrames (bootDma [.pfnFree, .pfnFree] (by decide)).mm).length := by
    decide +kernel
  rw [both.2]
  refine ⟨mt both.1.mp (bootDma_not_fits long rfl),
    .contiguous 256 ⟨@bootDma_head _ few rfl, ?_⟩ ?_⟩
  · intro index inside
    rw [show dmaPages 8192 = 2 by decide] at inside
    show (bootDma _ few).mm.pfnDatabase.stateOf _ = _
    rw [bootDma_stateOf]
    obtain rfl | rfl : index = 0 ∨ index = 1 := by omega
    · rfl
    · rfl
  · intro i inside
    exact @bootDma_physicalAt _ few _ (by unfold pageSize; omega)

/-- With a page in use between the free ones neither buffer is one. -/
theorem dmaBuffers_gap :
    ¬ AhciKept (bootDma [.pfnFree, .pfnActive, .pfnFree] (by decide)).mm 0x1000 8192
        (ahciAllocDmaBuffer (bootDma [.pfnFree, .pfnActive, .pfnFree] (by decide)) 0x1000 8192
          1 1) ∧
      ¬ NdisKept (bootDma [.pfnFree, .pfnActive, .pfnFree] (by decide)).mm 0x1000 8192
        (ndisMAllocateDmaBuffer (bootDma [.pfnFree, .pfnActive, .pfnFree] (by decide)).mm
          (some 0x200000) 8192) := by
  have few : [PageState.pfnFree, PageState.pfnActive, PageState.pfnFree].length ≤ 256 := by decide
  have above : 0 < (bootDma _ few).mm.hintPfn := Nat.succ_pos 255
  have long : 2 ≤ (freeFrames (bootDma [.pfnFree, .pfnActive, .pfnFree]
      (by decide)).mm).length := by
    decide +kernel
  constructor
  · exact mt (@ahciAllocDmaBuffer_kept_iff (bootDma _ few) 0x1000 8192 1 1 above
      (@bootDma_tablesHeld _ few) (fun _ => @bootDma_window _ few) (by decide)).mp
      (bootDma_not_fits long rfl)
  · apply mt (@ndisMAllocateDmaBuffer_kept_iff (bootDma _ few).mm 0x1000 (some 0x200000) 8192
      above (@bootDma_tablesHeld _ few) (by decide)).mp
    intro fits
    have head := @bootDma_head _ few rfl
    cases fits with
    | noRequest none => exact absurd none (by decide)
    | noDescriptor none => cases none
    | noPage none =>
      rw [none] at head
      cases head
    | contiguous first run _ =>
      obtain rfl : first = 256 := Option.some.inj (run.head.symm.trans head)
      have next := (@bootDma_stateOf _ few 1).symm.trans (run.free 1 (by decide))
      cases next

end MinNT.Dma
