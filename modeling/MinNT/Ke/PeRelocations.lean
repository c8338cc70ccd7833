import MinNT.Ke.PeLoaded

/-! The relocation loop of `PeLoadImage`, over every content of the relocation directory. -/

namespace MinNT.Ke.Pe

open List Traced ByteMemory

/-- The number of entries behind the header of a block. -/
def blockEntries (memory : ByteMemory) (block : Nat) : Nat :=
  (load memory 4 (block + 4) - sizeofBaseRelocation) / 2

/-- What entry `j` of a block relocates. -/
def dir64Target? (memory : ByteMemory) (block j : Nat) : Option Nat :=
  let entry := load memory 2 (block + sizeofBaseRelocation + j * 2)
  if entry / 2 ^ 12 = imageRelBasedDir64 then some (load memory 4 block + entry % 2 ^ 12) else none

def dir64Targets (memory : ByteMemory) (block : Nat) : List Nat :=
  (range (blockEntries memory block)).flatMap (fun j => (dir64Target? memory block j).toList)

/-- The `DIR64` targets that a directory lists from a block on to its end. -/
inductive Lists (memory : ByteMemory) (relocEnd : Nat) : Nat → List Nat → Prop
  | behind {block : Nat} (ended : relocEnd ≤ block) : Lists memory relocEnd block []
  | block {block : Nat} {targets : List Nat} (before : block < relocEnd)
      (rest : Lists memory relocEnd (block + load memory 4 (block + 4)) targets) :
      Lists memory relocEnd block (dir64Targets memory block ++ targets)

def addDelta (delta : Nat) (memory : ByteMemory) (target : Nat) : ByteMemory :=
  store memory 8 target (load memory 8 target + delta)

/-- The write to a target. -/
def patchWrite (target : Nat) : Access := ⟨.image, true, target, 8⟩

def writes {β : Type} (run : Traced Access β) : List Access :=
  run.touched.filter (fun access => access.write)

def relocRva (file : ByteMemory) : Nat :=
  ntField file (offsetofDataDirectory imageDirectoryEntryBasereloc) 4

def relocSize (file : ByteMemory) : Nat :=
  ntField file (offsetofDataDirectory imageDirectoryEntryBasereloc + 4) 4

/-- `imageBase - OptHeader->ImageBase`. -/
def loadDelta (file : ByteMemory) : Nat :=
  (ntField file offsetofImageBase 8 + (2 ^ 64 - ntField file offsetofImageBase 8)) % 2 ^ 64

/-- The relocations of `PeLoadImage`, which maps an image at its preferred base. -/
def runRelocations (fuel : Nat) (file memory : ByteMemory) : Traced Access (Option ByteMemory) :=
  applyRelocations fuel file (ntHeaders file) (ntField file offsetofImageBase 8) memory

/-- What is read of the image, other than what is relocated, is in the directory. -/
def Access.InDirectory (first behind : Nat) (access : Access) : Prop :=
  access.region = .image → access.size ≠ 8 →
    first ≤ access.offset ∧ access.offset + access.size ≤ behind

/-- The loop ends, interprets only bytes of the directory, and adds the delta once to
each target that is listed. -/
structure RelocationsSound (file memory : ByteMemory) : Prop where
  ends : ∃ fuel, (runRelocations fuel file memory).value.isSome
  inside : ∀ fuel, (runRelocations fuel file memory).All
    (Access.InDirectory (relocRva file) (relocRva file + relocSize file))
  once : relocRva file ≠ 0 → relocSize file ≠ 0 → ∀ fuel after targets,
    (runRelocations fuel file memory).value = some after →
    Lists memory (relocRva file + relocSize file) (relocRva file) targets →
    writes (runRelocations fuel file memory) = targets.map patchWrite ∧
      after = targets.foldl (addDelta (loadDelta file)) memory

/-- A block has room for its own header, and its entries are in the directory. -/
structure WholeBlock (memory : ByteMemory) (relocEnd block : Nat) : Prop where
  size : sizeofBaseRelocation ≤ load memory 4 (block + 4)
  entries : block + sizeofBaseRelocation + blockEntries memory block * 2 ≤ relocEnd

/-- The blocks that the loop reaches are whole, and a directory that lists something
does not run over the end of the address space. -/
structure DirectoryWhole (file memory : ByteMemory) : Prop where
  blocks : ∀ block, RelocBlock memory (ntField file offsetofImageBase 8)
    (relocRva file + relocSize file) (relocRva file) block →
      WholeBlock memory (relocRva file + relocSize file) block
  addresses : (ntField file offsetofImageBase 8 + (relocRva file + relocSize file)) % 2 ^ 64 ≤
      (ntField file offsetofImageBase 8 + relocRva file) % 2 ^ 64 →
    ∀ targets, Lists memory (relocRva file + relocSize file) (relocRva file) targets → targets = []

section Writes

variable {β γ : Type}

@[simp] theorem writes_pure (value : β) : writes (pure value) = [] := rfl

@[simp] theorem writes_bind (first : Traced Access β) (next : β → Traced Access γ) :
    writes (first >>= next) = writes first ++ writes (next first.value) :=
  filter_append ..

@[simp] theorem writes_readFile (file : ByteMemory) (offset width : Nat) :
    writes (readFile file offset width) = [] := rfl

@[simp] theorem writes_readImage (memory : ByteMemory) (offset width : Nat) :
    writes (readImage memory offset width) = [] := rfl

theorem writes_foldlM {memory : ByteMemory} {turn : ByteMemory → Nat → Traced Access ByteMemory}
    {items : List Nat} (fixed : ∀ item, (turn memory item).value = memory) :
    writes (items.foldlM turn memory) = items.flatMap (fun item => writes (turn memory item)) := by
  induction items with
  | nil => rfl
  | cons item items ih =>
    rw [foldlM_cons, writes_bind, fixed, ih, flatMap_cons]

end Writes

section Blocks

variable {file memory : ByteMemory} {imageBase first relocEnd block : Nat}

theorem all_relocEntry_inDirectory (j : Nat) :
    (relocEntry 0 block memory j).All (Access.InDirectory first relocEnd) ↔
      (first ≤ block + sizeofBaseRelocation + j * 2 ∧
        block + sizeofBaseRelocation + j * 2 + 2 ≤ relocEnd) ∧
      ((dir64Target? memory block j).isSome → first ≤ block ∧ block + 4 ≤ relocEnd) := by
  unfold relocEntry dir64Target? readImage
  simp only [all_ite_pure, all_bind, all_touch, touch_value, Access.InDirectory]
  simp

/-- The header and the entries of a block are read inside the directory exactly if the
block is whole. -/
theorem all_relocBlock_inDirectory (few : relocEnd < first + 2 ^ 32) (behind : first ≤ block) :
    BlockHolds (Access.InDirectory first relocEnd) memory block ↔
      WholeBlock memory relocEnd block := by
  have sizeWord := load_lt memory 4 (block + 4)
  simp only [BlockHolds, mem_range, all_relocEntry_inDirectory]
  constructor
  · intro inside
    obtain ⟨header, entries⟩ := inside
    have reach := (header rfl (show 4 ≠ 8 by decide)).2
    dsimp only at reach
    have room : sizeofBaseRelocation ≤ load memory 4 (block + 4) := by
      by_contra small
      have many := entryCount_of_lt (Nat.lt_of_not_le small)
      have last := (entries (2 ^ 32 - 5) (by omega)).1.2
      omega
    have count := entryCount_eq sizeWord room
    refine ⟨room, ?_⟩
    unfold blockEntries
    by_cases empty : entryCount (load memory 4 (block + 4)) = 0
    · unfold sizeofBaseRelocation at *
      omega
    · have last := (entries (entryCount (load memory 4 (block + 4)) - 1) (by omega)).1.2
      omega
  · intro whole
    have count := entryCount_eq sizeWord whole.size
    have entries := whole.entries
    unfold blockEntries at entries
    unfold sizeofBaseRelocation at entries count ⊢
    refine ⟨?_, ?_⟩
    · intro _ _
      dsimp only
      omega
    · intro j less
      exact ⟨by omega, fun _ => by omega⟩

theorem writes_relocEntry (j : Nat) : writes (relocEntry 0 block memory j) =
    (dir64Target? memory block j).toList.map patchWrite := by
  unfold relocEntry dir64Target?
  by_cases patched : load memory 2 (block + sizeofBaseRelocation + j * 2) / 2 ^ 12 =
    imageRelBasedDir64
  · simp only [writes_bind, writes_readImage, readImage_value, patched, ne_eq, not_true_eq_false,
      if_false, if_true, nil_append]
    rfl
  · simp only [writes_bind, writes_readImage, readImage_value, patched, ne_eq, not_false_eq_true,
      if_true, if_false, nil_append]
    rfl

theorem writes_relocEntries (whole : WholeBlock memory relocEnd block) :
    writes ((range (entryCount (load memory 4 (block + 4)))).foldlM (relocEntry 0 block)
      memory) = (dir64Targets memory block).map patchWrite := by
  rw [writes_foldlM (fun j => relocEntry_value block j),
    entryCount_eq (load_lt memory 4 (block + 4)) whole.size]
  unfold dir64Targets blockEntries
  simp only [writes_relocEntry, map_flatMap]

end Blocks

section Loop

variable {memory : ByteMemory} {imageBase first relocEnd block : Nat}

section Whole

variable (whole : ∀ later, RelocBlock memory imageBase relocEnd block later →
  WholeBlock memory relocEnd later)
include whole

theorem whole_next (before : (imageBase + block) % 2 ^ 64 < (imageBase + relocEnd) % 2 ^ 64) :
    ∀ later, RelocBlock memory imageBase relocEnd (block + load memory 4 (block + 4)) later →
      WholeBlock memory relocEnd later :=
  fun later walked => whole later (RelocBlock.of_next before walked)

/-- The loop over the blocks ends. -/
theorem relocBlocks_ends :
    ∃ fuel, (relocBlocks imageBase relocEnd 0 fuel block memory).value.isSome := by
  induction distance : relocEnd - block using Nat.strongRecOn generalizing block with
  | _ distance ih =>
    by_cases before : (imageBase + block) % 2 ^ 64 < (imageBase + relocEnd) % 2 ^ 64
    · have here := whole block (.first before)
      have size := here.size
      have entries := here.entries
      unfold sizeofBaseRelocation at size entries
      obtain ⟨fuel, ends⟩ := ih (relocEnd - (block + load memory 4 (block + 4))) (by omega)
        (whole_next whole before) rfl
      refine ⟨fuel + 1, ?_⟩
      rw [relocBlocks, if_pos before]
      simp only [bind_value, readImage_value, relocEntries_value]
      exact ends
    · refine ⟨0, ?_⟩
      rw [relocBlocks, if_neg before]
      rfl

end Whole

/-- The targets of the blocks are written, in order. -/
theorem relocBlocks_writes {targets : List Nat} (lists : Lists memory relocEnd block targets)
    (whole : ∀ later, RelocBlock memory imageBase relocEnd block later →
      WholeBlock memory relocEnd later)
    (straight : ∀ later, block ≤ later → later < relocEnd →
      (imageBase + later) % 2 ^ 64 < (imageBase + relocEnd) % 2 ^ 64)
    {fuel : Nat} (ends : (relocBlocks imageBase relocEnd 0 fuel block memory).value.isSome) :
    writes (relocBlocks imageBase relocEnd 0 fuel block memory) = targets.map patchWrite := by
  induction lists generalizing fuel with
  | @behind block ended =>
    have stops : ¬ (imageBase + block) % 2 ^ 64 < (imageBase + relocEnd) % 2 ^ 64 := by
      intro before
      have entries := (whole block (.first before)).entries
      unfold sizeofBaseRelocation at entries
      omega
    unfold relocBlocks
    rw [if_neg stops]
    rfl
  | @block block targets below _ ih =>
    have before := straight block (Nat.le_refl block) below
    have here := whole block (.first before)
    cases fuel with
    | zero =>
      unfold relocBlocks at ends
      rw [if_pos before] at ends
      cases ends
    | succ fuel =>
      rw [relocBlocks, if_pos before] at ends ⊢
      simp only [bind_value, readImage_value, relocEntries_value] at ends
      simp only [writes_bind, writes_readImage, readImage_value, relocEntries_value,
        writes_relocEntries here, nil_append, map_append]
      rw [ih (whole_next whole before)
        (fun later above => straight later (Nat.le_trans (Nat.le_add_right _ _) above)) ends]

theorem all_relocBlocks_inDirectory (few : relocEnd < first + 2 ^ 32) :
    (∀ fuel, (relocBlocks imageBase relocEnd 0 fuel first memory).All
        (Access.InDirectory first relocEnd)) ↔
      ∀ block, RelocBlock memory imageBase relocEnd first block →
        WholeBlock memory relocEnd block := by
  have behind : ∀ block, RelocBlock memory imageBase relocEnd first block → first ≤ block := by
    intro block walked
    induction walked with
    | first _ => exact Nat.le_refl first
    | next _ _ ih => exact Nat.le_trans ih (Nat.le_add_right _ _)
  rw [all_relocBlocks_iff]
  constructor
  · intro all block walked
    exact (all_relocBlock_inDirectory few (behind block walked)).mp (all block walked)
  · intro whole block walked
    exact (all_relocBlock_inDirectory few (behind block walked)).mpr (whole block walked)

end Loop

section Directory

variable {file memory : ByteMemory}

theorem all_readFile_inDirectory (first behind offset width : Nat) :
    (readFile file offset width).All (Access.InDirectory first behind) := by
  intro access member image
  rw [mem_singleton.mp member] at image
  cases image

theorem runRelocations_absent (absent : relocRva file = 0 ∨ relocSize file = 0) (fuel : Nat) :
    (runRelocations fuel file memory).value = some memory ∧
      ∀ first behind, (runRelocations fuel file memory).All (Access.InDirectory first behind) := by
  unfold relocRva relocSize at absent
  constructor
  · unfold runRelocations applyRelocations
    simp only [bind_value, Nat.add_assoc, readFile_ntHeaders]
    rw [if_pos absent, pure_value]
  · intro first behind
    unfold runRelocations applyRelocations
    simp only [all_ite_pure, all_bind, Nat.add_assoc, readFile_ntHeaders]
    exact ⟨all_readFile_inDirectory _ _ _ _, all_readFile_inDirectory _ _ _ _,
      fun present => absurd absent present⟩

/-- With a directory the relocations are those of the loop. -/
theorem runRelocations_present (rva : relocRva file ≠ 0) (size : relocSize file ≠ 0) (fuel : Nat) :
    let loop := relocBlocks (ntField file offsetofImageBase 8) (relocRva file + relocSize file) 0
      fuel (relocRva file) memory
    (runRelocations fuel file memory).value = loop.value ∧
      writes (runRelocations fuel file memory) = writes loop ∧
      ∀ first behind, (runRelocations fuel file memory).All (Access.InDirectory first behind) ↔
        loop.All (Access.InDirectory first behind) := by
  have present : ¬ (relocRva file = 0 ∨ relocSize file = 0) := by
    rw [not_or]
    exact ⟨rva, size⟩
  unfold relocRva relocSize at *
  refine ⟨?_, ?_, ?_⟩
  · unfold runRelocations applyRelocations
    simp only [bind_value, Nat.add_assoc, readFile_ntHeaders]
    rw [if_neg present, bind_value, readFile_ntHeaders, delta_eq_zero]
  · unfold runRelocations applyRelocations
    simp only [writes_bind, writes_readFile, Nat.add_assoc, readFile_ntHeaders, nil_append]
    rw [if_neg present, writes_bind, writes_readFile, readFile_ntHeaders, delta_eq_zero, nil_append]
  · intro first behind
    unfold runRelocations applyRelocations
    simp only [all_ite_pure, all_bind, Nat.add_assoc, readFile_ntHeaders, delta_eq_zero]
    constructor
    · intro all
      exact (all.2.2 present).2
    · intro all
      exact ⟨all_readFile_inDirectory _ _ _ _, all_readFile_inDirectory _ _ _ _,
        fun _ => ⟨all_readFile_inDirectory _ _ _ _, all⟩⟩

theorem loadDelta_eq_zero : loadDelta file = 0 := by
  unfold loadDelta
  exact delta_eq_zero file

theorem foldl_addDelta (targets : List Nat) : targets.foldl (addDelta 0) memory = memory := by
  induction targets with
  | nil => rfl
  | cons target targets ih =>
    have same : addDelta 0 memory target = memory := by
      unfold addDelta
      rw [Nat.add_zero, store_load]
    rw [foldl_cons, same, ih]

theorem RelocationsSound.blocks (sound : RelocationsSound file memory) (rva : relocRva file ≠ 0)
    (size : relocSize file ≠ 0) (block : Nat)
    (walked : RelocBlock memory (ntField file offsetofImageBase 8)
      (relocRva file + relocSize file) (relocRva file) block) :
    WholeBlock memory (relocRva file + relocSize file) block := by
  have few : relocRva file + relocSize file < relocRva file + 2 ^ 32 :=
    Nat.add_lt_add_left (field_lt file _ 4) _
  refine (all_relocBlocks_inDirectory few).mp ?_ block walked
  intro fuel
  exact ((runRelocations_present rva size fuel).2.2 _ _).mp (sound.inside fuel)

end Directory

/-- The relocation loop of `PeLoadImage` is sound on every directory whose blocks, as far as
the loop reaches them, are whole and inside it, and on no other one. -/
theorem relocations_sound_iff (file memory : ByteMemory) :
    RelocationsSound file memory ↔
      (relocRva file ≠ 0 → relocSize file ≠ 0 → DirectoryWhole file memory) := by
  have few : relocRva file + relocSize file < relocRva file + 2 ^ 32 :=
    Nat.add_lt_add_left (field_lt file _ 4) _
  constructor
  · intro sound rva size
    constructor
    · exact sound.blocks rva size
    · intro wraps targets lists
      -- the loop does not take its first turn
      have stops := Nat.not_lt.mpr wraps
      have loop : relocBlocks (ntField file offsetofImageBase 8) (relocRva file + relocSize file) 0
          0 (relocRva file) memory = pure (some memory) := by
        unfold relocBlocks
        rw [if_neg stops]
      obtain ⟨value, writesLoop, _⟩ := @runRelocations_present file memory rva size 0
      rw [loop] at value writesLoop
      have written := (sound.once rva size 0 memory targets value lists).1
      rw [writesLoop, writes_pure] at written
      exact map_eq_nil_iff.mp written.symm
  · intro whole
    by_cases absent : relocRva file = 0 ∨ relocSize file = 0
    · have run := @runRelocations_absent file memory absent
      constructor
      · exact ⟨0, by rw [(run 0).1]; rfl⟩
      · exact fun fuel => (run fuel).2 _ _
      · intro rva size
        exact absurd absent (not_or.mpr ⟨rva, size⟩)
    · obtain ⟨rva, size⟩ := not_or.mp absent
      have run := @runRelocations_present file memory rva size
      have directory := whole rva size
      constructor
      · obtain ⟨fuel, ends⟩ := relocBlocks_ends directory.blocks
        refine ⟨fuel, ?_⟩
        rw [(run fuel).1]
        exact ends
      · intro fuel
        exact ((run fuel).2.2 _ _).mpr ((all_relocBlocks_inDirectory few).mpr directory.blocks fuel)
      · intro _ _ fuel after targets done lists
        rw [(run fuel).1] at done
        have unchanged := relocBlocks_value done
        rw [(run fuel).2.1, loadDelta_eq_zero, foldl_addDelta]
        refine ⟨?_, unchanged⟩
        by_cases wraps : (ntField file offsetofImageBase 8 + (relocRva file + relocSize file)) %
            2 ^ 64 ≤ (ntField file offsetofImageBase 8 + relocRva file) % 2 ^ 64
        · rw [directory.addresses wraps targets lists]
          unfold relocBlocks
          rw [if_neg (Nat.not_lt.mpr wraps)]
          rfl
        · apply relocBlocks_writes lists directory.blocks
          · intro later above below
            omega
          · rw [done]
            rfl

/-- A directory of one header behind the section, of which the file has no bytes. -/
def emptyBlockFile : ByteMemory :=
  store (store (oneSectionFile 0x1000) 4 240 0x2000) 4 244 8

/-- A block of size 0, at which the loop stands still. -/
theorem emptyBlock_notSound :
    ∃ file : ByteMemory, (peValidateImage file 1024).value = statusSuccess ∧
      ¬ RelocationsSound file (copiedImage file (fun _ => 0)) := by
  have evaluated : (peValidateImage emptyBlockFile 1024).value = statusSuccess ∧
      relocRva emptyBlockFile = 0x2000 ∧ relocSize emptyBlockFile = 8 ∧
      ntField emptyBlockFile offsetofImageBase 8 = 0x140000000 ∧
      load (copiedImage emptyBlockFile (fun _ => 0)) 4 (0x2000 + 4) = 0 := by decide +kernel
  obtain ⟨accepted, rva, size, imageBase, empty⟩ := evaluated
  refine ⟨emptyBlockFile, accepted, ?_⟩
  intro sound
  have reached : RelocBlock (copiedImage emptyBlockFile (fun _ => 0))
      (ntField emptyBlockFile offsetofImageBase 8)
      (relocRva emptyBlockFile + relocSize emptyBlockFile) (relocRva emptyBlockFile)
      (relocRva emptyBlockFile) := by
    apply RelocBlock.first
    rw [rva, size, imageBase]
    decide
  have whole := sound.blocks (by rw [rva]; decide) (by rw [size]; decide) _ reached
  have room := whole.size
  rw [rva, empty] at room
  exact absurd room (by decide)

end MinNT.Ke.Pe
