import MinNT.Fs.FileHandles
import MinNT.Fs.RamDiskInvariant

namespace MinNT.Fs

open List ByteMemory

/-- A name of up to 8 characters, and if it has a dot up to 3 behind it, all of
them ASCII and none a space. -/
def ShortName (name : WideString) : Prop :=
  ∃ base ext : WideString,
    1 ≤ base.length ∧ base.length ≤ 8 ∧ ext.length ≤ 3 ∧
    name = (if ext = [] then base else base ++ wideDot :: ext) ∧
    ∀ char ∈ base ++ ext, 0 < char.toNat ∧ char.toNat < 128 ∧ char ≠ 0x20 ∧ char ≠ wideDot

/-- What creating a file should mean for looking names up: its own name, in any
case, leads to the new entry, and all other names lead where they did. -/
def CreatedFound (disk : RamDisk) (name : WideString) (slot : Nat) (after : RamDisk) : Prop :=
  (∀ variant, equalNames variant name = true → fsFindFile after variant = some slot) ∧
    ∀ other : WideString, 0 ∉ other → equalNames other name = false →
      fsFindFile after other = fsFindFile disk other

/-- A character of one byte. -/
def PlainChar (char : UInt16) : Prop := char.toNat < 128 ∧ char ≠ 0x20

variable {name : WideString}

theorem ShortName.plain (short : ShortName name) : ∀ char ∈ name, PlainChar char ∧ char ≠ 0 := by
  obtain ⟨base, ext, _, _, _, rfl, chars⟩ := short
  have part : ∀ char ∈ base ++ ext, PlainChar char ∧ char ≠ 0 := by
    intro char member
    obtain ⟨positive, ascii, notSpace, _⟩ := chars char member
    refine ⟨⟨ascii, notSpace⟩, ?_⟩
    rintro rfl
    exact absurd positive (by decide)
  intro char member
  split at member
  · exact part char (mem_append_left _ member)
  · rcases mem_append.mp member with inBase | rest
    · exact part char (mem_append_left _ inBase)
    · rcases mem_cons.mp rest with rfl | inExt
      · exact ⟨⟨by decide, by decide⟩, by decide⟩
      · exact part char (mem_append_right _ inExt)

theorem copyPart_length (part : WideString) (count : Nat) :
    (copyPart part count).length = count := by
  unfold copyPart
  simp only [length_append, length_replicate, length_take]
  omega

theorem wideBytes_length (text : WideString) : (wideBytes text).length = 2 * text.length := by
  induction text with
  | nil => rfl
  | cons char text ih =>
    rw [wideBytes, flatMap_cons, length_append, encodeLE_length, length_cons]
    rw [wideBytes] at ih
    omega

theorem mem_copyPart {part : WideString} {count : Nat} {char : UInt16}
    (member : char ∈ copyPart part count) : char ∈ part ∨ char = 0 := by
  unfold copyPart at member
  rcases mem_append.mp member with copied | padding
  · exact .inl (mem_of_mem_take copied)
  · exact .inr (eq_of_mem_replicate padding)

theorem storedName_second (plain : ∀ char ∈ name, PlainChar char) :
    ∃ byte rest, (wideBytes (copyPart (splitLastDot name).1 8)).take 8 = byte :: 0 :: rest ∧
      byte ≠ 0x20 := by
  have length := copyPart_length (splitLastDot name).1 8
  have front := splitLastDot_base_prefix name
  have chars : ∀ char ∈ copyPart (splitLastDot name).1 8, PlainChar char := by
    intro char member
    rcases mem_copyPart member with copied | rfl
    · exact plain char (front.subset copied)
    · exact ⟨by decide, by decide⟩
  obtain ⟨char, tail, shape⟩ := exists_cons_of_length_pos (by omega :
    0 < (copyPart (splitLastDot name).1 8).length)
  obtain ⟨ascii, notSpace⟩ := chars char (by rw [shape]; exact mem_cons_self)
  have high : UInt8.ofNat (char.toNat / 256) = 0 := by
    rw [Nat.div_eq_of_lt (by omega)]
    rfl
  rw [shape]
  simp only [wideBytes, flatMap_cons, encodeLE, cons_append, take_succ_cons, high]
  refine ⟨_, _, rfl, ?_⟩
  intro space
  apply notSpace
  have value := congrArg UInt8.toNat space
  rw [UInt8.toNat_ofNat', Nat.mod_eq_of_lt (by omega)] at value
  exact UInt16.toNat_inj.mp value

theorem fillEntry_fileName (disk : RamDisk) (slot : Nat) (name : WideString) (size : Nat) :
    (fillEntry disk slot name size).memory.read (dirEntry disk slot) 8 =
      (wideBytes (copyPart (splitLastDot name).1 8)).take 8 := by
  have extLength : ((wideBytes (copyPart (splitLastDot name).2 3)).take 3).length ≤ 3 :=
    length_take_le _ _
  have nameLength : ((wideBytes (copyPart (splitLastDot name).1 8)).take 8).length = 8 := by
    rw [length_take, wideBytes_length, copyPart_length]
    rfl
  unfold fillEntry
  dsimp only
  generalize (wideBytes (copyPart (splitLastDot name).1 8)).take 8 = nameBytes at nameLength ⊢
  generalize (wideBytes (copyPart (splitLastDot name).2 3)).take 3 = extBytes at extLength ⊢
  have kept := read_write_same disk.memory (dirEntry disk slot) nameBytes
  rw [nameLength] at kept
  rw [store, store, read_write_disjoint,
    read_write_disjoint, read_write_disjoint, read_write_disjoint, kept]
  all_goals omega

/-- The name of a new entry has a zero character in it: the high byte of the first
character of the name. -/
theorem entryName_created (disk : RamDisk) (slot : Nat) (size : Nat)
    (plain : ∀ char ∈ name, PlainChar char) :
    0 ∈ entryName (fillEntry disk slot name size) slot := by
  obtain ⟨byte, rest, shape, notSpace⟩ := storedName_second plain
  have inName : 0 ∈ untilBlank ((fillEntry disk slot name size).memory.read
      (dirEntry disk slot) 8) := by
    rw [fillEntry_fileName, shape, untilBlank,
      takeWhile_cons_of_pos (by simpa using notSpace), takeWhile_cons_of_pos (by decide)]
    exact mem_cons_of_mem _ mem_cons_self
  unfold entryName
  dsimp only
  split
  · exact inName
  · exact mem_append_left _ inName

theorem upcase_zero {char : UInt16} (zero : Cm.rtlpUpcase char.toBitVec = 0) : char = 0 := by
  apply UInt16.toBitVec_inj.mp
  unfold Cm.rtlpUpcase at zero
  split at zero
  · bv_omega
  · exact zero

theorem equalNames_zero {name text : WideString} (zero : 0 ∈ name)
    (same : equalNames name text = true) : 0 ∈ text := by
  have upcase := (Cm.rtlEqualUnicodeString_iff _ _).mp same
  rw [map_map, map_map] at upcase
  have image : Cm.rtlpUpcase (UInt16.toBitVec 0) ∈ name.map (Cm.rtlpUpcase ∘ UInt16.toBitVec) :=
    List.mem_map.mpr ⟨0, zero, rfl⟩
  rw [upcase] at image
  obtain ⟨char, member, isZero⟩ := List.mem_map.mp image
  rwa [upcase_zero (isZero.trans (by decide))] at member

theorem fsFindFile_not_created (disk : RamDisk) (slot : Nat) (size : Nat)
    (plain : ∀ char ∈ name, PlainChar char) (target : WideString) (terminated : 0 ∉ target) :
    fsFindFile (fillEntry disk slot name size) target ≠ some slot := by
  intro found
  have accepted := find?_some found
  rw [Bool.and_eq_true] at accepted
  have zero := equalNames_zero (entryName_created disk slot size plain) accepted.2
  exact terminated (mem_of_mem_take zero)

/-- A file created under an 8.3 name is never found. -/
theorem createdFile_notFound (disk after : RamDisk) (name : WideString) (size slot : Nat)
    (short : ShortName name) (created : fsCreateFileEntry disk name size = some (slot, after)) :
    ¬ CreatedFound disk name slot after := by
  intro found
  obtain ⟨_, _, rfl⟩ := fsCreateFileEntry_some created
  have own : equalNames name name = true := (Cm.rtlEqualUnicodeString_iff _ _).mpr rfl
  exact fsFindFile_not_created disk slot size (fun char member => (short.plain char member).1) name
    (fun zero => (short.plain 0 zero).2 rfl) (found.1 name own)

theorem shortName_letter : ShortName [0x41] := by
  refine ⟨[0x41], [], by decide, by decide, by decide, rfl, ?_⟩
  intro char member
  rw [append_nil, mem_singleton] at member
  subst member
  exact ⟨by decide, by decide, by decide, by decide⟩

/-- The file `A` on the smallest disk is not found. -/
theorem letterFile_notFound :
    ¬ CreatedFound oneMegabyte [0x41] 0 (fillEntry oneMegabyte 0 [0x41] 0) :=
  createdFile_notFound _ _ [0x41] 0 0 shortName_letter
    (fsCreateFileEntry_slotZero oneMegabyte [0x41] 0 (by decide +kernel))

/-- Looking for `A` after its creation finds nothing. -/
theorem letterFile_lost :
    ¬ ∀ (disk : RamDisk) (name : WideString) (size slot : Nat) (after : RamDisk),
      ShortName name → fsCreateFileEntry disk name size = some (slot, after) →
      CreatedFound disk name slot after := by
  intro found
  have own := (found oneMegabyte [0x41] 0 0 _ shortName_letter
    (fsCreateFileEntry_slotZero oneMegabyte [0x41] 0 (by decide +kernel))).1 [0x41] (by decide)
  exact absurd own (by decide +kernel)

end MinNT.Fs
