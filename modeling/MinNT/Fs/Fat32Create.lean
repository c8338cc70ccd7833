import MinNT.Fs.Fat32Overwrite

namespace MinNT.Fat32

open ByteMemory Chain SlotTable List DirEntry

theorem nameField_length (pad : UInt8) (width : Nat) (chars : List UInt8) :
    (nameField pad width chars).length = width := by
  unfold nameField
  simp only [length_append, length_map, length_take, length_replicate]
  omega

theorem fatName_length (pad : UInt8) (name : List UInt8) : (fatName pad name).length = 11 := by
  unfold fatName
  rw [length_append, nameField_length, nameField_length]

theorem upcase_ne_zero {c : UInt8} (nonzero : c ≠ 0) : upcase c ≠ 0 := by
  unfold upcase
  split
  · rename_i lower
    intro zero
    have bound : 0x61 ≤ c.toNat := lower.1
    have same := congrArg UInt8.toNat zero
    rw [UInt8.toNat_sub_of_le c 32 (by
      change 32 ≤ c.toNat
      omega)] at same
    change c.toNat - 32 = 0 at same
    omega
  · exact nonzero

variable {name : List UInt8}

theorem storedName_head (cstring : ∀ c ∈ name, c ≠ 0) :
    ∃ first rest, storedName name = first :: rest ∧ first ≠ 0 := by
  unfold storedName fatName nameField
  cases base : name.takeWhile (fun c => c != 0x2E) with
  | nil => exact ⟨0x20, _, rfl, by decide⟩
  | cons c chars =>
    have member : c ∈ name := by
      apply (takeWhile_sublist (fun c => c != 0x2E)).subset
      rw [base]
      exact mem_cons_self
    exact ⟨upcase c, _, rfl, upcase_ne_zero (cstring c member)⟩

theorem newEntry_fields (name : List UInt8) (start : Nat) :
    (newEntry name start).length = 32 ∧ DirEntry.name (newEntry name start) = storedName name ∧
      DirEntry.fileSize (newEntry name start) = 0 := by
  have length : (storedName name).length = 11 := fatName_length _ _
  refine ⟨?_, ?_, ?_⟩
  · simp only [newEntry, length_append, length_replicate, length_singleton, encodeLE_length, length]
  · unfold DirEntry.name newEntry
    simp only [append_assoc]
    rw [← length, take_left]
  · unfold DirEntry.fileSize newEntry
    rw [drop_left' (by
      simp only [length_append, length_replicate, length_singleton, encodeLE_length, length])]
    decide

theorem newEntry_mark (cstring : ∀ c ∈ name, c ≠ 0) (start : Nat) :
    ended (newEntry name start) = false ∧
      (deleted (newEntry name start) = true ↔ (storedName name).headD 0 = 0xE5) := by
  obtain ⟨first, rest, stored, nonzero⟩ := storedName_head cstring
  unfold ended deleted DirEntry.mark newEntry
  rw [stored]
  simp [nonzero]

theorem newEntry_occupied (cstring : ∀ c ∈ name, c ≠ 0) (mark : (storedName name).headD 0 ≠ 0xE5)
    (start : Nat) : isFree ended deleted (newEntry name start) = false := by
  have marks := newEntry_mark cstring start
  have kept : deleted (newEntry name start) = false := by
    rw [← Bool.not_eq_true, marks.2]
    exact mark
  rw [isFree, marks.1, kept]
  rfl

theorem withSize_length {stack : DirEntry} (size : stack.length = 32) (total : Nat) :
    (stack.withSize total).length = 32 := by
  unfold DirEntry.withSize
  rw [length_append, length_take, encodeLE_length, size]
  rfl

theorem withSize_mark {stack : DirEntry} (size : stack.length = 32) (total : Nat) :
    DirEntry.mark (stack.withSize total) = stack.mark := by
  cases stack with
  | nil => cases size
  | cons first rest => rfl

/-- The upper-cased characters of a name that count: eight before the first dot, three after. -/
def nameParts (name : List UInt8) : List UInt8 × List UInt8 :=
  (((name.takeWhile (fun c => c != 0x2E)).take 8).map upcase,
    (((name.dropWhile (fun c => c != 0x2E)).drop 1).take 3).map upcase)

theorem fatName_eq_iff {pad pad' : UInt8} {name name' : List UInt8} :
    fatName pad name = fatName pad' name' ↔
      nameField pad 8 (name.takeWhile (fun c => c != 0x2E)) =
          nameField pad' 8 (name'.takeWhile (fun c => c != 0x2E)) ∧
        nameField pad 3 ((name.dropWhile (fun c => c != 0x2E)).drop 1) =
          nameField pad' 3 ((name'.dropWhile (fun c => c != 0x2E)).drop 1) := by
  constructor
  · intro same
    exact append_inj same (by rw [nameField_length, nameField_length])
  · rintro ⟨base, extension⟩
    rw [fatName, fatName, base, extension]

theorem nameField_pads_iff {width : Nat} {chars : List UInt8} :
    nameField 0 width chars = nameField 0x20 width chars ↔ width ≤ chars.length := by
  rw [nameField, nameField, append_cancel_left_eq, replicate_inj]
  rw [length_map, length_take]
  constructor
  · rintro ⟨_, none | same⟩
    · omega
    · exact absurd same (by decide)
  · intro long
    exact ⟨rfl, .inl (by omega)⟩

theorem nameField_takeWhile {width : Nat} {chars : List UInt8} (cstring : ∀ c ∈ chars, c ≠ 0) :
    (nameField 0 width chars).takeWhile (fun c => c != 0) = (chars.take width).map upcase := by
  have nonzero : ∀ c ∈ (chars.take width).map upcase, (c != 0) = true := by
    intro c member
    obtain ⟨char, inside, rfl⟩ := List.mem_map.mp member
    exact bne_iff_ne.mpr (upcase_ne_zero (cstring char (mem_of_mem_take inside)))
  rw [nameField, takeWhile_append_of_pos nonzero, takeWhile_replicate]
  simp

theorem nameField_eq_iff {width : Nat} {chars chars' : List UInt8}
    (cstring : ∀ c ∈ chars, c ≠ 0) (cstring' : ∀ c ∈ chars', c ≠ 0) :
    nameField 0 width chars = nameField 0 width chars' ↔
      (chars.take width).map upcase = (chars'.take width).map upcase := by
  constructor
  · intro same
    rw [← nameField_takeWhile cstring, same, nameField_takeWhile cstring']
  · intro same
    rw [nameField, nameField, same]

/-- Names share a search name exactly if their parts agree. -/
theorem searchName_eq_iff {name name' : List UInt8} (cstring : ∀ c ∈ name, c ≠ 0)
    (cstring' : ∀ c ∈ name', c ≠ 0) :
    searchName name = searchName name' ↔ nameParts name = nameParts name' := by
  have base : ∀ {name : List UInt8}, (∀ c ∈ name, c ≠ 0) →
      ∀ c ∈ name.takeWhile (fun c => c != 0x2E), c ≠ 0 :=
    fun cstring c member => cstring c ((takeWhile_sublist _).subset member)
  have extension : ∀ {name : List UInt8}, (∀ c ∈ name, c ≠ 0) →
      ∀ c ∈ (name.dropWhile (fun c => c != 0x2E)).drop 1, c ≠ 0 :=
    fun cstring c member =>
      cstring c ((dropWhile_sublist _).subset (mem_of_mem_drop member))
  rw [searchName, searchName, fatName_eq_iff, nameField_eq_iff (base cstring) (base cstring'),
    nameField_eq_iff (extension cstring) (extension cstring'), nameParts, nameParts, Prod.mk.injEq]

/-- What is asked of the keys of a name: the one that is looked for is the one in the entry, and
another name has it exactly when its parts are the same. -/
def KeysAgree (name : List UInt8) : Prop :=
  (∀ start, searchName name = DirEntry.name (newEntry name start)) ∧
    ∀ name' : List UInt8, (∀ c ∈ name', c ≠ 0) →
      (searchName name = searchName name' ↔ nameParts name = nameParts name')

/-- The keys agree exactly when there is nothing to pad. -/
theorem keysAgree_iff (name : List UInt8) (cstring : ∀ c ∈ name, c ≠ 0) :
    KeysAgree name ↔ 8 ≤ (name.takeWhile (fun c => c != 0x2E)).length ∧
      3 ≤ ((name.dropWhile (fun c => c != 0x2E)).drop 1).length := by
  have same : searchName name = storedName name ↔
      8 ≤ (name.takeWhile (fun c => c != 0x2E)).length ∧
        3 ≤ ((name.dropWhile (fun c => c != 0x2E)).drop 1).length := by
    rw [searchName, storedName, fatName_eq_iff, nameField_pads_iff, nameField_pads_iff]
  constructor
  · rintro ⟨agree, _⟩
    rw [← same, agree 0, (newEntry_fields name 0).2.1]
  · intro full
    refine ⟨fun start => ?_, fun name' cstring' => searchName_eq_iff cstring cstring'⟩
    rw [(newEntry_fields name start).2.1]
    exact same.mpr full

/-- `COMMAND1.COM`. -/
theorem keysAgree_full :
    KeysAgree [0x43, 0x4F, 0x4D, 0x4D, 0x41, 0x4E, 0x44, 0x31, 0x2E, 0x43, 0x4F, 0x4D] :=
  (keysAgree_iff _ (by simp)).mpr (by decide)

/-- `A.TXT` is stored with spaces and looked for with zeros. -/
theorem keysAgree_short : ¬ KeysAgree [0x41, 0x2E, 0x54, 0x58, 0x54] := by
  rintro ⟨agree, _⟩
  exact absurd (agree 2) (by decide)

section Create

variable {v : Volume} {root : List Nat} {name data : List UInt8}

theorem markFirst (geometry : Geometry v) {start : Nat} {rest : List Nat}
    (free : freeClusters v = start :: rest) :
    ∃ v', (fat32SetFatEntry v start endOfChain).2 = v' ∧ Changes v v' [start] [] ∧
      freeClusters v' = rest ∧ v'.fatCache start ≠ 0 := by
  have inside := (mem_freeClusters.mp (show start ∈ freeClusters v by
    rw [free]
    exact mem_cons_self)).1
  have changes := fat32SetFatEntry_changes geometry start endOfChain
  have marked : (fat32SetFatEntry v start endOfChain).2.fatCache start ≠ 0 := by
    rw [fat32SetFatEntry_cache inside.2, endOfChain_mod.1]
    exact endOfChain_mod.2.1
  refine ⟨_, rfl, changes, ?_, marked⟩
  apply freeClusters_taken free changes.fatEntries
  intro cluster _ _
  by_cases same : cluster = start
  · subst same
    exact ⟨fun zero => absurd zero marked, fun both => absurd rfl both.2⟩
  · rw [changes.fat cluster (by simpa using same)]
    exact ⟨fun zero => ⟨zero, same⟩, fun both => both.1⟩

theorem freeClusters_congr {v' : Volume} (entries : v'.fatEntries = v.fatEntries)
    (cache : v'.fatCache = v.fatCache) : freeClusters v' = freeClusters v := by
  unfold freeClusters
  rw [entries, cache]

/-- What the rest of the call, from the write of `entry` on, makes of the volume. -/
def finishCreate (stack : DirEntry) (v : Volume) (total : Nat) : Option WriteResult :=
  match fat32WriteDirectoryEntry true v v.rootCluster (stack.withSize total) with
  | none => none
  | some (status, v) => some ⟨status, if total = 0 then none else some total, v⟩

/-- The call up to the write of `entry`: the new entry is in the first free slot,
and only free clusters were used. -/
theorem create_prepared (good : WellFormed v root)
    (absent : lookup (liveEntries v root) (searchName name) = none) {front back : List DirEntry}
    {free : DirEntry} (split : slots v root = front ++ free :: back)
    (full : Full ended deleted front) (isfree : isFree ended deleted free = true)
    (enough : clustersNeeded v data.length ≤ (freeClusters v).length) (stack : DirEntry) :
    ∃ v' start total, fat32WriteFile roomy stack v name data = finishCreate stack v' total ∧
      Geometry v' ∧ ChainOf v' v'.rootCluster root ∧
      slots v' root = front ++ newEntry name start :: back ∧
      Changes v v' (freeClusters v) (root ++ freeClusters v) := by
  obtain ⟨count, needed⟩ : ∃ count, clustersNeeded v data.length = count + 1 :=
    ⟨clustersNeeded v data.length - 1, by unfold clustersNeeded; omega⟩
  obtain ⟨start, rest, all⟩ : ∃ start rest, freeClusters v = start :: rest := by
    cases all : freeClusters v with
    | nil => simp [all, needed] at enough
    | cons start rest => exact ⟨start, rest, rfl⟩
  have unused : ∀ cluster ∈ root, cluster ∉ freeClusters v := fun cluster member again =>
    good.chain.used member (mem_freeClusters.mp again).2
  have startFree : start ∈ freeClusters v := by
    rw [all]
    exact mem_cons_self
  have startInside := (mem_freeClusters.mp startFree).1
  obtain ⟨v₁, marking, changes₁, left₁, used₁⟩ := markFirst good.geometry all
  have geometry₁ := changes₁.geometry good.geometry
  obtain ⟨chain₁, slots₁, _⟩ := found_changes good.geometry good.chain changes₁
    (fun cluster member => ⟨fun same => unused cluster member (by
      rw [mem_singleton] at same
      exact same ▸ startFree), not_mem_nil⟩)
  obtain ⟨v₂, created, cache₂, changes₂, slots₂⟩ := fat32WriteDirectoryEntry_placed geometry₁ chain₁
    (newEntry_fields name start).1 (slots₁.trans split) full isfree
  have geometry₂ := changes₂.geometry geometry₁
  have chain₂ : ChainOf v₂ v₂.rootCluster root := by
    rw [changes₂.rootCluster]
    exact chain₁.changes changes₂ (fun _ _ => not_mem_nil)
  have left₂ : freeClusters v₂ = rest :=
    (freeClusters_congr changes₂.fatEntries cache₂).trans left₁
  have few : count ≤ (freeClusters v₂).length := by
    rw [all, length_cons] at enough
    rw [left₂]
    omega
  obtain ⟨v₃, allocated, chain₃, changes₃⟩ := fat32AllocateChain_eq geometry₂ count startInside.1
    (by rw [changes₂.fatEntries, changes₁.fatEntries]; exact startInside.2)
    (by rw [cache₂]; exact used₁) few
  have geometry₃ := changes₃.geometry geometry₂
  obtain ⟨v₄, total, written, cache₄, changes₄, _⟩ := writeClusters_eq geometry₃ chain₃
    (chain₃.short geometry₃) (Nat.zero_le data.length)
  have ownFree : start :: (freeClusters v₂).take count ⊆ freeClusters v := by
    rw [left₂, all]
    exact cons_subset_cons _ (take_subset _ _)
  have later : Changes v₂ v₄ (freeClusters v) (freeClusters v) :=
    (changes₃.mono ownFree (by simp)).trans (changes₄.mono (by simp) ownFree)
  obtain ⟨chain₄, slots₄, _⟩ := found_changes geometry₂ chain₂ later
    (fun cluster member => ⟨unused cluster member, unused cluster member⟩)
  have total₂ : clustersNeeded v₂ data.length = count + 1 := by
    rw [← needed]
    unfold clustersNeeded
    rw [changes₂.bytesPerCluster, changes₁.bytesPerCluster]
  refine ⟨v₄, start, total, ?_, later.geometry geometry₂, chain₄, slots₄.trans slots₂, ?_⟩
  · rw [fat32WriteFile_absent good.geometry good.chain absent, createFile,
      fat32FindFreeCluster_eq, all]
    dsimp only
    rw [marking, show roomy.create = true from rfl, created]
    dsimp only
    rw [if_pos (by decide), total₂, allocated]
    dsimp only
    rw [if_pos (by decide), writeData, show roomy.data = fun _ => true from rfl, written]
    rfl
  · have sub : [start] ⊆ freeClusters v := by
      intro cluster member
      rw [mem_singleton] at member
      exact member ▸ startFree
    exact ((changes₁.mono sub (by simp)).trans
      (changes₂.mono (by simp) (subset_append_left _ _))).trans
      (later.mono (List.Subset.refl _) (subset_append_right _ _))

theorem finishCreate_full {v' : Volume} (geometry : Geometry v')
    (chain : ChainOf v' v'.rootCluster root) (full : Full ended deleted (slots v' root))
    {stack : DirEntry} (size : stack.length = 32) (total : Nat) :
    ∃ written, finishCreate stack v' total = some ⟨statusDiskFull, written, v'⟩ := by
  unfold finishCreate
  rw [fat32WriteDirectoryEntry_full geometry chain (withSize_length size total) full]
  exact ⟨_, rfl⟩

theorem finishCreate_placed {v' : Volume} (geometry : Geometry v')
    (chain : ChainOf v' v'.rootCluster root) {front back : List DirEntry} {free : DirEntry}
    (split : slots v' root = front ++ free :: back) (full : Full ended deleted front)
    (isfree : isFree ended deleted free = true) {stack : DirEntry} (size : stack.length = 32)
    (total : Nat) :
    ∃ v'' written, finishCreate stack v' total = some ⟨statusSuccess, written, v''⟩ ∧
      Changes v' v'' [] root ∧ slots v'' root = front ++ stack.withSize total :: back := by
  obtain ⟨v'', placed, _, changes, now⟩ := fat32WriteDirectoryEntry_placed geometry chain
    (withSize_length size total) split full isfree
  refine ⟨v'', if total = 0 then none else some total, ?_, changes, now⟩
  unfold finishCreate
  rw [placed]

end Create

theorem live_of_ended {slots : List DirEntry} (ends : ∀ slot ∈ slots, ended slot = true) :
    live ended deleted slots = [] := by
  cases slots with
  | nil => rfl
  | cons slot slots => rw [live_cons, if_pos (ends slot mem_cons_self)]

theorem WellFormed.live_behind {v : Volume} {root : List Nat} (good : WellFormed v root)
    {front back : List DirEntry} {free : DirEntry} (split : slots v root = front ++ free :: back)
    (isfree : isFree ended deleted free = true) :
    live ended deleted (free :: back) = live ended deleted back := by
  rw [live_cons]
  cases ends : ended free with
  | true => rw [if_pos rfl, live_of_ended (good.ends front free back split ends)]
  | false =>
    have isDeleted : deleted free = true := by simpa [isFree, ends] using isfree
    rw [if_neg Bool.false_ne_true, if_pos isDeleted]

section Lookup

variable {front tail : List DirEntry} {entry found : DirEntry} {key : List UInt8}

theorem lookup_none : lookup front key = none ↔ ∀ entry ∈ front.take 64, entry.name ≠ key := by
  unfold lookup
  rw [find?_eq_none]
  simp

theorem take_inserted (short : front.length < 64) :
    (front ++ entry :: tail).take 64 = front ++ entry :: tail.take (63 - front.length) := by
  have rest : 64 - front.length = 63 - front.length + 1 := by omega
  rw [take_append, take_of_length_le (by omega), rest, take_succ_cons]

theorem take_without (short : front.length < 64) :
    front ++ tail.take (63 - front.length) <+: (front ++ tail).take 64 := by
  rw [take_append, take_of_length_le (show front.length ≤ 64 by omega)]
  apply prefix_append_right_inj _ |>.mpr
  exact take_prefix_take_left (by omega)

theorem lookup_inserted_new (absent : lookup (front ++ tail) key = none)
    (seen : lookup (front ++ entry :: tail) key = some found) :
    found = entry ∧ front.length < 64 := by
  rw [lookup_none] at absent
  by_cases short : front.length < 64
  · have member := mem_of_find?_eq_some seen
    have named : found.name = key := by simpa using find?_some seen
    rw [take_inserted short] at member
    refine ⟨?_, short⟩
    have other : found ∈ front ++ tail.take (63 - front.length) → False := fun inside =>
      absent found ((take_without short).subset inside) named
    rcases mem_append.mp member with early | late
    · exact absurd (mem_append_left _ early) other
    · rcases mem_cons.mp late with same | behind
      · exact same
      · exact absurd (mem_append_right _ behind) other
  · exfalso
    have large : 64 ≤ front.length := by omega
    unfold lookup at seen
    rw [take_append_of_le_length large] at seen absent
    exact absent found (mem_of_find?_eq_some seen) (by simpa using find?_some seen)

theorem lookup_inserted_eq (absent : lookup (front ++ tail) key = none)
    (short : front.length < 64) (named : entry.name = key) (tail' : List DirEntry) :
    lookup (front ++ entry :: tail') key = some entry := by
  rw [lookup_none] at absent
  unfold lookup
  rw [take_inserted short, find?_append]
  have none : front.find? (fun entry => entry.name == key) = none := by
    rw [find?_eq_none]
    intro other member
    have different := absent other ((take_without short).subset (mem_append_left _ member))
    simpa using different
  rw [none, Option.none_or, find?_cons, named, beq_self_eq_true]

/-- Another name is found where it was found before, if that is in the front part
or behind it with room for one more. -/
theorem lookup_inserted_other {tail' : List DirEntry} {more more' : List DirEntry}
    (short : front.length < 64) (different : entry.name ≠ key)
    (inside : ∃ entry ∈ front ++ tail.take (63 - front.length), entry.name = key)
    (seen : lookup (front ++ tail ++ more) key = some found)
    (shape : tail' = tail ++ more') : lookup (front ++ entry :: tail') key = some found := by
  obtain ⟨first, known⟩ : ∃ first, (front ++ tail.take (63 - front.length)).find?
      (fun entry => entry.name == key) = some first := by
    obtain ⟨entry, member, named⟩ := inside
    apply Option.isSome_iff_exists.mp
    rw [find?_isSome]
    exact ⟨entry, member, by simpa using named⟩
  have before : front ++ tail.take (63 - front.length) <+: (front ++ tail ++ more).take 64 := by
    rw [append_assoc]
    refine List.IsPrefix.trans ?_ (take_without short)
    apply prefix_append_right_inj _ |>.mpr
    rw [take_append]
    exact prefix_append _ _
  have same : first = found := by
    obtain ⟨rest, whole⟩ := before
    unfold lookup at seen
    rw [← whole, find?_append, known, Option.some_or] at seen
    exact Option.some.inj seen
  subst same shape
  unfold lookup
  rw [take_inserted short, find?_append, find?_cons]
  have skip : (entry.name == key) = false := by simpa using different
  rw [skip]
  dsimp only
  rw [take_append, find?_append, ← Option.or_assoc, ← find?_append, known, Option.some_or]

end Lookup

end MinNT.Fat32
