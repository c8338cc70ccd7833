import MinNT.Mm.FreeFrames

open ByteMemory

namespace MinNT.Mm

/-- The tables that the boot stub builds: behind the PML4 the PDPT and 64 page directories, of
pages of 2 MB. The bases of the directories are sums of 32 bits. -/
structure BootTables (memory : ByteMemory) (pml4 : Nat) : Prop where
  aligned : pml4 % pageSize = 0
  placed : 0 < pml4
  below : pml4 + 0x42000 ≤ 2 ^ 32
  top : ∀ k < 512, entryAt memory (pml4 + 8 * k) =
    if k < 64 ∨ k = 511 then pml4 + 0x1003 else 0
  middle : ∀ k < 512, entryAt memory (pml4 + 0x1000 + 8 * k) =
    if k < 64 then pml4 + 0x2003 + k * 0x1000 else 0
  bottom : ∀ k < 64, ∀ j < 512, entryAt memory (pml4 + 0x2000 + k * 0x1000 + 8 * j) =
    k % 4 * 2 ^ 30 + j * 2 ^ 21 + 0x83

/-- Where the walks of the processor come to. -/
def BootSlot (pml4 : Nat) (level slot : Nat) : Prop :=
  (level = 3 ∧ ∃ k < 512, slot = pml4 + 8 * k) ∨
    (level = 2 ∧ ∃ k < 512, slot = pml4 + 0x1000 + 8 * k) ∨
    (level = 1 ∧ ∃ k < 64, ∃ j < 512, slot = pml4 + 0x2000 + k * 0x1000 + 8 * j)

theorem not_present_zero : ¬ HasBit 0 ptePresent := by decide

section BootTables

variable {memory : ByteMemory} {pml4 va : Nat}

theorem frameOf_small {table flags : Nat} (aligned : table % pageSize = 0) (small : table < 2 ^ 52)
    (low : flags < 2 ^ 12) : frameOf (table + flags) = table := by
  unfold frameOf pageSize at *
  omega

section Boot

variable (boot : BootTables memory pml4)
include boot

theorem BootTables.frame_pml4 : frameOf pml4 = pml4 := by
  have below := boot.below
  have aligned := boot.aligned
  unfold frameOf pageSize at *
  omega

theorem BootTables.visits_slot {level slot : Nat}
    (visits : Visits memory pml4 va level slot) : BootSlot pml4 level slot := by
  have below := boot.below
  have aligned := boot.aligned
  induction visits with
  | top =>
    rw [boot.frame_pml4]
    exact .inl ⟨rfl, _, indexAt_lt va 3, rfl⟩
  | @next level slot above present small ih =>
    rcases ih with ⟨here, k, inside, rfl⟩ | ⟨here, k, inside, rfl⟩ | ⟨here, k, inside, j, few, rfl⟩
    · obtain rfl : level = 2 := by omega
      rw [boot.top k inside] at present ⊢
      split at present
      · rename_i used
        have frame : frameOf (pml4 + 0x1003) = pml4 + 0x1000 :=
          @frameOf_small (pml4 + 0x1000) 3 (by unfold pageSize at *; omega) (by omega) (by decide)
        rw [if_pos used, frame]
        exact .inr (.inl ⟨rfl, _, indexAt_lt va 2, rfl⟩)
      · exact absurd present not_present_zero
    · obtain rfl : level = 1 := by omega
      rw [boot.middle k inside] at present ⊢
      split at present
      · rename_i used
        have frame : frameOf (pml4 + 0x2003 + k * 0x1000) = pml4 + 0x2000 + k * 0x1000 := by
          rw [show pml4 + 0x2003 + k * 0x1000 = pml4 + 0x2000 + k * 0x1000 + 3 by omega]
          exact frameOf_small (by unfold pageSize at *; omega) (by omega) (by decide)
        rw [if_pos used, frame]
        exact .inr (.inr ⟨rfl, k, used, _, indexAt_lt va 1, rfl⟩)
      · exact absurd present not_present_zero
    · rw [boot.bottom k inside j few] at small
      exfalso
      apply small
      unfold HasBit pteLarge
      omega

theorem BootTables.visits_range {level slot : Nat}
    (visits : Visits memory pml4 va level slot) : pml4 ≤ slot ∧ slot < pml4 + 0x42000 := by
  rcases boot.visits_slot visits with
    ⟨_, k, inside, rfl⟩ | ⟨_, k, inside, rfl⟩ | ⟨_, k, inside, j, few, rfl⟩ <;> omega

/-- What the boot tables map the first 64 GB to. -/
theorem BootTables.translate_eq (low : va < 2 ^ 36) :
    translate memory pml4 va = some ⟨1, va / 2 ^ 21 * 2 ^ 21 % 2 ^ 32 + 0x83⟩ := by
  have below := boot.below
  have aligned := boot.aligned
  have canonical : Canonical va := .inl (by omega)
  have index3 : indexAt va 3 = 0 := by
    unfold indexAt
    omega
  have index2 : indexAt va 2 = va / 2 ^ 30 := by
    unfold indexAt
    omega
  have topEntry : entryAt memory (slotOf pml4 va 3) = pml4 + 0x1003 := by
    rw [slotOf, index3, boot.top 0 (by decide), if_pos (.inl (by decide))]
  have topFrame : frameOf (pml4 + 0x1003) = pml4 + 0x1000 :=
    @frameOf_small (pml4 + 0x1000) 3 (by unfold pageSize at *; omega) (by omega) (by decide)
  have middleEntry : entryAt memory (slotOf (pml4 + 0x1000) va 2) =
      pml4 + 0x2000 + va / 2 ^ 30 * 0x1000 + 3 := by
    rw [slotOf, index2, boot.middle _ (by omega), if_pos (by omega)]
    omega
  have middleFrame : frameOf (pml4 + 0x2000 + va / 2 ^ 30 * 0x1000 + 3) =
      pml4 + 0x2000 + va / 2 ^ 30 * 0x1000 :=
    frameOf_small (by unfold pageSize at *; omega) (by omega) (by decide)
  have bottomEntry : entryAt memory (slotOf (pml4 + 0x2000 + va / 2 ^ 30 * 0x1000) va 1) =
      va / 2 ^ 21 * 2 ^ 21 % 2 ^ 32 + 0x83 := by
    have index := indexAt_lt va 1
    rw [slotOf, boot.bottom _ (by omega) _ index]
    unfold indexAt
    omega
  have topBits : HasBit (pml4 + 0x1003) ptePresent ∧ ¬ HasBit (pml4 + 0x1003) pteLarge := by
    unfold HasBit ptePresent pteLarge pageSize at *
    omega
  have middleBits : HasBit (pml4 + 0x2000 + va / 2 ^ 30 * 0x1000 + 3) ptePresent ∧
      ¬ HasBit (pml4 + 0x2000 + va / 2 ^ 30 * 0x1000 + 3) pteLarge := by
    unfold HasBit ptePresent pteLarge pageSize at *
    omega
  have bottomBits : HasBit (va / 2 ^ 21 * 2 ^ 21 % 2 ^ 32 + 0x83) ptePresent ∧
      HasBit (va / 2 ^ 21 * 2 ^ 21 % 2 ^ 32 + 0x83) pteLarge := by
    unfold HasBit ptePresent pteLarge
    omega
  rw [translate, if_pos canonical, boot.frame_pml4]
  rw [hardwareWalk, topEntry, if_neg (not_not.mpr topBits.1), if_neg topBits.2, topFrame]
  rw [hardwareWalk, middleEntry, if_neg (not_not.mpr middleBits.1), if_neg middleBits.2,
    middleFrame]
  rw [hardwareWalk, bottomEntry, if_neg (not_not.mpr bottomBits.1), if_pos bottomBits.2,
    if_neg (by decide)]

theorem BootTables.physicalAt_eq (low : va < 2 ^ 36) :
    physicalAt memory pml4 va = some (va % 2 ^ 32) := by
  rw [physicalAt, boot.translate_eq low]
  dsimp only [Option.map, Leaf.physical]
  congr 1
  unfold frameOf
  omega

end Boot

end BootTables

/-- Memory of 64-bit words, by their addresses. -/
def wordsMemory (word : Nat → Nat) : ByteMemory :=
  fun address => UInt8.ofNat (word (address / 8 * 8) / 256 ^ (address % 8))

theorem wordsMemory_entry {word : Nat → Nat} {slot : Nat} (aligned : slot % 8 = 0)
    (small : word slot < 2 ^ 64) : entryAt (wordsMemory word) slot = word slot := by
  have bytes : read (wordsMemory word) slot 8 = encodeLE 8 (word slot) := by
    have here : ∀ index < 8, wordsMemory word (slot + index) =
        UInt8.ofNat (word slot / 256 ^ index) := by
      intro index inside
      unfold wordsMemory
      rw [show (slot + index) / 8 * 8 = slot by omega, show (slot + index) % 8 = index by omega]
    unfold ByteMemory.read
    simp only [List.range, List.range.loop, List.map_cons, List.map_nil, encodeLE,
      Nat.div_div_eq_div_mul]
    rw [here 0 (by decide), here 1 (by decide), here 2 (by decide), here 3 (by decide),
      here 4 (by decide), here 5 (by decide), here 6 (by decide), here 7 (by decide)]
    simp
  rw [entryAt, load, bytes, decodeLE_encodeLE]
  exact Nat.mod_eq_of_lt small

/-- The words of the tables, with the PML4 at `0x1000`. -/
def bootWord (slot : Nat) : Nat :=
  let index := slot % pageSize / 8
  if toPfn slot = 1 then if index < 64 ∨ index = 511 then 0x2003 else 0
  else if toPfn slot = 2 then if index < 64 then 0x3003 + index * 0x1000 else 0
  else if 3 ≤ toPfn slot ∧ toPfn slot < 67 then
    (toPfn slot - 3) % 4 * 2 ^ 30 + index * 2 ^ 21 + 0x83
  else 0

theorem bootWord_lt (slot : Nat) : bootWord slot < 2 ^ 64 := by
  have index : slot % pageSize / 8 < 512 := by
    unfold pageSize
    omega
  unfold bootWord
  dsimp only
  split
  · split <;> decide
  · split
    · split
      · omega
      · decide
    · split
      · omega
      · decide

theorem bootTables_bootWord : BootTables (wordsMemory bootWord) 0x1000 where
  aligned := by decide
  placed := by decide
  below := by decide
  top := by
    intro k inside
    rw [wordsMemory_entry (by omega) (bootWord_lt _)]
    unfold bootWord toPfn pageSize
    dsimp only
    rw [if_pos (by omega), show (0x1000 + 8 * k) % 4096 / 8 = k by omega]
  middle := by
    intro k inside
    rw [wordsMemory_entry (by omega) (bootWord_lt _)]
    unfold bootWord toPfn pageSize
    dsimp only
    rw [if_neg (by omega), if_pos (by omega),
      show (0x1000 + 0x1000 + 8 * k) % 4096 / 8 = k by omega]
  bottom := by
    intro k inside j few
    rw [wordsMemory_entry (by omega) (bootWord_lt _)]
    unfold bootWord toPfn pageSize
    dsimp only
    rw [if_neg (by omega), if_neg (by omega), if_pos (by omega)]
    omega

end MinNT.Mm
