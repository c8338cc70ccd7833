import MinNT.Fs.Fat32Directory

namespace MinNT.Fat32

open ByteMemory Chain SlotTable List DirEntry

/-- The chain of an entry, if it has one, is apart from the root directory and
long enough for the file, but no longer than the largest file. -/
structure FileChain (v : Volume) (root : List Nat) (entry : DirEntry) (cells : List Nat) :
    Prop where
  chain : ChainOf v entry.firstCluster cells
  nonempty : cells ≠ []
  apart : ∀ cluster ∈ cells, cluster ∉ root
  covers : entry.fileSize ≤ cells.length * v.bytesPerCluster
  bounded : cells.length * v.bytesPerCluster ≤ 2 ^ 32

variable {v : Volume} {root : List Nat} {entry : DirEntry} {name : List UInt8}

theorem FileChain.proper {cells : List Nat}
    (file : FileChain v root entry cells) : 2 ≤ entry.firstCluster := by
  obtain ⟨first, rest, rfl⟩ := exists_cons_of_ne_nil file.nonempty
  have same : entry.firstCluster = first := file.chain.linked.1
  have inside := (file.chain.inside first mem_cons_self).1
  omega

/-- The clusters `root` are the root directory, there is nothing behind its end,
every file that can be found has a chain or no cluster at all, and no two of
them share a cluster. -/
structure WellFormed (v : Volume) (root : List Nat) : Prop where
  geometry : Geometry v
  chain : ChainOf v v.rootCluster root
  ends : ∀ front slot back, slots v root = front ++ slot :: back → slot.ended = true →
    ∀ other ∈ back, other.ended = true
  files : ∀ name entry, Found v name entry → entry.firstCluster < 2 ∨
    ∃ cells, FileChain v root entry cells
  apart : ∀ name name' entry entry' cells cells', Found v name entry → Found v name' entry' →
    searchName name ≠ searchName name' → FileChain v root entry cells →
    FileChain v root entry' cells' → ∀ cluster ∈ cells, cluster ∉ cells'

theorem freeChain_eq (geometry : Geometry v) {cells : List Nat} {start fuel : Nat}
    (chain : ChainOf v start cells) (enough : cells.length < fuel) :
    ∃ v', freeChain fuel v start = some v' ∧ Changes v v' cells [] ∧
      ∀ cluster ∈ cells, v'.fatCache cluster = 0 := by
  have numbers := geometry.numbers
  have once := chain.nodup geometry
  induction cells generalizing v start fuel with
  | nil =>
    obtain ⟨fuel, rfl⟩ : ∃ more, fuel = more + 1 := ⟨fuel - 1, by simp at enough; omega⟩
    have ends : chainEnd ≤ start := chain.linked
    refine ⟨v, ?_, .refl v _ _, fun _ member => by cases member⟩
    rw [freeChain, if_neg (by omega)]
  | cons cluster cells ih =>
    obtain ⟨fuel, rfl⟩ : ∃ more, fuel = more + 1 := ⟨fuel - 1, by simp at enough; omega⟩
    have inside := chain.inside cluster mem_cons_self
    obtain rfl : start = cluster := chain.linked.1
    obtain ⟨alone, onceMore⟩ := nodup_cons.mp once
    have first := fat32SetFatEntry_changes geometry start 0
    have rest : ChainOf (fat32SetFatEntry v start 0).2 (fat32GetFatEntry v start) cells :=
      chain.tail.changes first (fun other member same => alone (by
        rw [mem_singleton] at same
        exact same ▸ member))
    obtain ⟨v', done, later, freed⟩ := ih (first.geometry geometry) rest
      (by simp at enough; omega) (by rw [first.fatEntries]; exact numbers) onceMore
    refine ⟨v', ?_, (first.mono (by simp) (by simp)).trans
      (later.mono (subset_cons_self _ _) (by simp)), ?_⟩
    · rw [freeChain, if_pos ⟨by omega, inside.1⟩]
      exact done
    · intro other member
      rcases mem_cons.mp member with rfl | behind
      · rw [later.fat other alone, fat32SetFatEntry_cache inside.2, Nat.zero_mod]
      · exact freed other behind

/-- What a successful deletion of a file owes: the name is gone, its chain is
free, and all other slots, chains and data are as before. -/
def Deletes (v : Volume) (root : List Nat) (name : List UInt8) (entry : DirEntry) : Prop :=
  ∀ v', fat32DeleteFile (true, true) v name = some (statusSuccess, v') →
    (∀ other, ¬ Found v' name other) ∧
    (∀ cells, FileChain v root entry cells → ∀ cluster ∈ cells, v'.fatCache cluster = 0) ∧
    (∃ index : Nat, (slots v root)[index]? = some entry ∧
      ∀ other : Nat, other ≠ index → (slots v' root)[other]? = (slots v root)[other]?) ∧
    ∀ name' entry' cells, Found v name' entry' → searchName name' ≠ searchName name →
      FileChain v root entry' cells →
      ChainOf v' entry'.firstCluster cells ∧
        ∀ cluster ∈ cells, clusterBytes v' cluster = clusterBytes v cluster

theorem lookup_append {entries more : List DirEntry} {key : List UInt8}
    (found : lookup entries key = some entry) : lookup (entries ++ more) key = some entry := by
  unfold lookup at found ⊢
  rw [take_append, find?_append, found, Option.some_or]

/-- Freeing a file's chain leaves the directory. -/
theorem freeChain_file (good : WellFormed v root) (found : Found v name entry) :
    ∃ freed, freeChain loopSteps v entry.firstCluster = some freed ∧ Geometry freed ∧
      ChainOf freed freed.rootCluster root ∧ slots freed root = slots v root := by
  rcases good.files name entry found with none | ⟨cells, file⟩
  · obtain ⟨more, steps⟩ : ∃ more, loopSteps = more + 1 :=
      Nat.exists_eq_succ_of_ne_zero (Nat.ne_of_gt loopSteps_pos)
    refine ⟨v, ?_, good.geometry, good.chain, rfl⟩
    rw [steps, freeChain, if_neg (by omega)]
  · obtain ⟨freed, done, changes, _⟩ :=
      freeChain_eq good.geometry file.chain (file.chain.short good.geometry)
    refine ⟨freed, done, changes.geometry good.geometry, ?_, ?_⟩
    · rw [changes.rootCluster]
      exact good.chain.changes changes (fun cluster member inCells =>
        file.apart cluster inCells member)
    · exact slots_changes changes (fun cluster member => (good.chain.inside cluster member).1)
        (fun _ _ => not_mem_nil)

/-- What a deletion does with the results of its search and of its loop. The loop is a variable
here, so that nothing evaluates its `loopSteps` turns. -/
theorem marked_eq (search : Option (Except NtStatus DirEntry)) (loop : Volume → Nat → Option Volume)
    (room : Bool) (v freed : Volume) (entry : DirEntry) :
    search = some (.ok entry) → loop v entry.firstCluster = some freed →
    (match search with
      | none => none
      | some (.error status) => some (status, v)
      | some (.ok entry) =>
        match loop v entry.firstCluster with
        | none => none
        | some v => fat32WriteDirectoryEntry room v v.rootCluster (entry.set 0 0xE5)) =
      fat32WriteDirectoryEntry room freed freed.rootCluster (entry.set 0 0xE5) := by
  rintro rfl ended
  dsimp only
  rw [ended]

theorem fat32DeleteFile_run {room : Bool × Bool} {v freed : Volume} (mounted : v.valid = true)
    {name : List UInt8} {entry : DirEntry}
    (found : fat32FindEntry room.1 v v.rootCluster name = some (.ok entry))
    (loop : freeChain loopSteps v entry.firstCluster = some freed) :
    fat32DeleteFile room v name =
      fat32WriteDirectoryEntry room.2 freed freed.rootCluster (entry.set 0 0xE5) := by
  rw [fat32DeleteFile, if_pos mounted]
  exact marked_eq _ (freeChain loopSteps) room.2 v freed entry found loop

theorem fat32DeleteFile_freed {v freed : Volume} (mounted : v.valid = true)
    (found : Found v name entry) (loop : freeChain loopSteps v entry.firstCluster = some freed) :
    fat32DeleteFile (true, true) v name =
      fat32WriteDirectoryEntry true freed freed.rootCluster (entry.set 0 0xE5) :=
  @fat32DeleteFile_run (true, true) v freed mounted name entry found loop

theorem Found.mem_slots (good : WellFormed v root) (found : Found v name entry) :
    entry ∈ slots v root := by
  have seen := (found_iff good.geometry good.chain).mp found
  have inLive := mem_of_mem_take (mem_of_find?_eq_some seen)
  exact (live_sublist _).subset inLive

theorem deletedEntry (size : entry.length = 32) :
    (entry.set 0 0xE5).length = 32 ∧ ended (entry.set 0 0xE5) = false ∧
      deleted (entry.set 0 0xE5) = true := by
  cases entry with
  | nil => cases size
  | cons first rest => exact ⟨size, rfl, rfl⟩

/-- With a free slot in the directory a deletion succeeds, and the file is still
found: the mark goes into the free slot. -/
theorem delete_keeps_name (good : WellFormed v root) (found : Found v name entry)
    (room : ¬ Full ended deleted (slots v root)) :
    ∃ v', fat32DeleteFile (true, true) v name = some (statusSuccess, v') ∧ Found v' name entry := by
  have size := slot_length good.geometry (found.mem_slots good)
  obtain ⟨markedSize, notEnded, marked⟩ := deletedEntry size
  obtain ⟨freed, loop, geometry, chain, sameSlots⟩ := freeChain_file good found
  rcases full_or_split (slots v root) with full | ⟨free, back, split, isfree⟩
  · exact absurd full room
  obtain ⟨v', written, cache, placed, now⟩ := fat32WriteDirectoryEntry_placed geometry chain
    markedSize (sameSlots.trans split) (occupied_full _) isfree
  refine ⟨v', ?_, ?_⟩
  · rw [fat32DeleteFile_freed good.geometry.mounted found loop]
    exact written
  · have chain' : ChainOf v' v'.rootCluster root := by
      rw [placed.rootCluster]
      exact chain.changes placed (fun _ _ => not_mem_nil)
    have seen := (found_iff good.geometry good.chain).mp found
    rw [found_iff (placed.geometry geometry) chain']
    rw [liveEntries, split, live_of_full_append (occupied_full _), live_cons] at seen
    rw [liveEntries, now, live_of_full_append (occupied_full _), live_cons, notEnded, marked,
      if_neg Bool.false_ne_true, if_pos rfl]
    cases free_ended : ended free with
    | true =>
      rw [free_ended, if_pos rfl, append_nil] at seen
      exact lookup_append seen
    | false =>
      have free_deleted : deleted free = true := by
        simpa [isFree, free_ended] using isfree
      rwa [free_ended, free_deleted, if_neg Bool.false_ne_true, if_pos rfl] at seen

/-- A deletion does what it should if and only if the directory has no free
slot, when it fails. -/
theorem fat32DeleteFile_deletes_iff (v : Volume) (root : List Nat) (good : WellFormed v root)
    (name : List UInt8) (entry : DirEntry) (found : Found v name entry) :
    Deletes v root name entry ↔ Full ended deleted (slots v root) := by
  constructor
  · intro deletes
    by_contra room
    obtain ⟨v', deleted, again⟩ := delete_keeps_name good found room
    exact (deletes v' deleted).1 entry again
  · intro full v' deleted
    exfalso
    have size := slot_length good.geometry (found.mem_slots good)
    obtain ⟨freed, loop, geometry, chain, sameSlots⟩ := freeChain_file good found
    have failed := fat32WriteDirectoryEntry_full geometry chain (deletedEntry size).1
      (by rwa [sameSlots])
    rw [fat32DeleteFile_freed good.geometry.mounted found loop, failed] at deleted
    cases deleted

/-- A volume of one-sector clusters with its root directory in cluster 2. -/
def smallVolume (fatEntries : Nat) (fatCache : Nat → Nat) (directory : ByteMemory) : Volume where
  valid := true
  bytesPerSector := 512
  sectorsPerCluster := 1
  bytesPerCluster := 512
  rootCluster := 2
  fatStart := 0
  dataStart := 1
  fatEntries := fatEntries
  fatCache := fatCache
  disk := fun address => if address < 512 then 0 else directory (address - 512)

theorem smallVolume_geometry {fatEntries : Nat} (few : fatEntries ≤ 128) (fatCache : Nat → Nat)
    (directory : ByteMemory) : Geometry (smallVolume fatEntries fatCache directory) where
  mounted := rfl
  sector := rfl
  power := ⟨0, by decide, rfl⟩
  cluster := (Nat.one_mul 512).symm
  numbers := Nat.le_trans few (by decide)
  fatFits := by
    simp only [smallVolume, Nat.zero_mul, Nat.zero_add, Nat.one_mul]
    omega

theorem Found.name_eq (geometry : Geometry v) (chain : ChainOf v v.rootCluster root)
    (found : Found v name entry) : entry.name = searchName name := by
  have seen := (found_iff geometry chain).mp found
  simpa using find?_some seen

/-- A full directory: the files `A` to `P`, all empty. -/
def fullVolume : Volume :=
  smallVolume 4 (fun _ => endOfChain) (fun index =>
    if index < 512 ∧ index % 32 = 0 then UInt8.ofNat (0x41 + index / 32) else 0)

theorem fullVolume_wellFormed : WellFormed fullVolume [2] := by
  have geometry : Geometry fullVolume := smallVolume_geometry (by decide) _ _
  have chain : ChainOf fullVolume fullVolume.rootCluster [2] :=
    ⟨⟨rfl, show chainEnd ≤ fat32GetFatEntry fullVolume 2 by decide⟩, by decide⟩
  have empty : ∀ entry ∈ slots fullVolume [2], entry.ended = false ∧ entry.firstCluster = 0 := by
    decide +kernel
  have unchained : ∀ name entry, Found fullVolume name entry → entry.firstCluster = 0 := by
    intro name entry found
    have seen := (found_iff geometry chain).mp found
    have inLive := mem_of_mem_take (mem_of_find?_eq_some seen)
    exact (empty entry ((live_sublist _).subset inLive)).2
  refine ⟨geometry, chain, ?_, ?_, ?_⟩
  · intro front slot back split ended
    have member : slot ∈ slots fullVolume [2] := by
      rw [split]
      simp
    rw [(empty slot member).1] at ended
    cases ended
  · intro name entry found
    exact .inl (by rw [unchained name entry found]; decide)
  · intro name name' entry entry' cells cells' found _ _ file _ cluster member
    have proper := file.proper
    rw [unchained name entry found] at proper
    omega

/-- The last file of a full volume is deleted. -/
theorem fullVolume_deletes : ∃ entry, Found fullVolume [0x41] entry ∧
    Deletes fullVolume [2] [0x41] entry := by
  have good := fullVolume_wellFormed
  have found : Found fullVolume [0x41] (0x41 :: replicate 31 0) :=
    (found_iff good.geometry good.chain).mpr (by decide +kernel)
  have full : Full ended deleted (slots fullVolume [2]) := by
    unfold Full
    decide +kernel
  exact ⟨_, found, (fat32DeleteFile_deletes_iff fullVolume [2] good [0x41] _ found).mpr full⟩

/-- The entry of the file `A`, of 5 bytes in cluster 3. -/
def entryA : DirEntry :=
  [0x41] ++ replicate 25 0 ++ [3, 0, 5, 0, 0, 0]

/-- A directory with that file alone. -/
def oneFileVolume : Volume := smallVolume 4 (fun _ => endOfChain) (fun index => entryA.getD index 0)

theorem oneFileVolume_slots :
    slots oneFileVolume [2] = entryA :: replicate 15 (replicate 32 0) := by
  decide +kernel

theorem oneFile_wellFormed {fatEntries : Nat} {fatCache : Nat → Nat} (many : 4 ≤ fatEntries)
    (few : fatEntries ≤ 128) (rootEnds : fatCache 2 = endOfChain)
    (fileEnds : fatCache 3 = endOfChain) :
    WellFormed (smallVolume fatEntries fatCache fun index => entryA.getD index 0) [2] := by
  generalize known : (smallVolume fatEntries fatCache fun index => entryA.getD index 0) = v
  have geometry : Geometry v := known ▸ smallVolume_geometry few _ _
  have root : v.rootCluster = 2 := known ▸ rfl
  have entries : v.fatEntries = fatEntries := known ▸ rfl
  have single : ∀ cluster, 2 ≤ cluster → cluster < 4 → fatCache cluster = endOfChain →
      ChainOf v cluster [cluster] := by
    intro cluster proper inside ends
    refine ⟨⟨rfl, ?_⟩, fun other member => ?_⟩
    · change chainEnd ≤ fat32GetFatEntry v cluster
      have cache : v.fatCache = fatCache := known ▸ rfl
      rw [fat32GetFatEntry, if_neg (by omega), cache, ends]
      decide
    · rw [mem_singleton] at member
      omega
  have chain : ChainOf v v.rootCluster [2] := root.symm ▸ single 2 (by decide) (by decide) rootEnds
  have all : slots v [2] = entryA :: replicate 15 (replicate 32 0) :=
    known ▸ oneFileVolume_slots
  have only : ∀ name entry, Found v name entry → entry = entryA := by
    intro name entry found
    have seen := (found_iff geometry chain).mp found
    have inLive := mem_of_mem_take (mem_of_find?_eq_some seen)
    have live : liveEntries v [2] = [entryA] := by
      unfold liveEntries
      rw [all]
      decide
    rw [live] at inLive
    exact mem_singleton.mp inLive
  refine ⟨geometry, chain, ?_, ?_, ?_⟩
  · intro front slot back split _ other member
    rw [all] at split
    have zeros : ∀ entry ∈ replicate 15 (replicate 32 (0 : UInt8)), ended entry = true := by
      decide
    cases front with
    | nil =>
      obtain ⟨_, rfl⟩ := List.cons.inj split
      exact zeros other member
    | cons first front =>
      obtain ⟨_, rest⟩ := List.cons.inj split
      apply zeros
      rw [rest]
      exact mem_append_right _ (mem_cons_of_mem _ member)
  · intro name entry found
    have bytes : v.bytesPerCluster = 512 := known ▸ rfl
    rw [only name entry found]
    refine .inr ⟨[3], single 3 (by decide) (by decide) fileEnds, by decide, by decide, ?_, ?_⟩
    · rw [bytes]
      decide
    · rw [bytes]
      decide
  · intro name name' entry entry' _ _ found found' different
    have key := found.name_eq geometry chain
    have key' := found'.name_eq geometry chain
    rw [only name entry found] at key
    rw [only name' entry' found'] at key'
    exact absurd (key.symm.trans key') different

theorem oneFileVolume_wellFormed : WellFormed oneFileVolume [2] :=
  oneFile_wellFormed (by decide) (by decide) rfl rfl

/-- Deleting the file `A` succeeds, and it is still there. -/
theorem oneFileVolume_not_deletes : WellFormed oneFileVolume [2] ∧
    Found oneFileVolume [0x41] entryA ∧ ¬ Deletes oneFileVolume [2] [0x41] entryA := by
  have good := oneFileVolume_wellFormed
  have found : Found oneFileVolume [0x41] entryA :=
    (found_iff good.geometry good.chain).mpr (by decide +kernel)
  have room : ¬ Full ended deleted (slots oneFileVolume [2]) := by
    unfold Full
    decide +kernel
  refine ⟨good, found, ?_⟩
  intro deletes
  obtain ⟨v', deleted, again⟩ := delete_keeps_name good found room
  exact (deletes v' deleted).1 entryA again

end MinNT.Fat32
