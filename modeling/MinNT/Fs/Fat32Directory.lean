import MinNT.Fs.Fat32Layout

namespace MinNT.Fat32

open ByteMemory Chain SlotTable List DirEntry

/-- The FAT leads from `start` through the clusters to an end mark. -/
structure ChainOf (v : Volume) (start : Nat) (cells : List Nat) : Prop where
  linked : Linked (fat32GetFatEntry v) (fun cluster => chainEnd ≤ cluster) start cells
  inside : ∀ cluster ∈ cells, 2 ≤ cluster ∧ cluster < v.fatEntries

variable {v : Volume} {start : Nat} {cells : List Nat} {cluster : Nat} {entry : DirEntry}

theorem ChainOf.nodup (geometry : Geometry v) (chain : ChainOf v start cells) : cells.Nodup := by
  apply chain.linked.nodup
  intro cluster member
  have inside := (chain.inside cluster member).2
  have numbers := geometry.numbers
  omega

theorem loopSteps_pos : 0 < loopSteps := by
  rw [loopSteps]
  decide

theorem ChainOf.short (geometry : Geometry v)
    (chain : ChainOf v start cells) : cells.length < loopSteps := by
  have bounded := length_le_of_nodup (chain.nodup geometry)
    (fun cluster member => (chain.inside cluster member).2)
  have numbers := geometry.numbers
  have large : chainEnd < loopSteps := by
    rw [loopSteps]
    decide
  omega

theorem ChainOf.tail {start cluster : Nat} (chain : ChainOf v start (cluster :: cells)) :
    ChainOf v (fat32GetFatEntry v cluster) cells :=
  ⟨chain.linked.2, fun other member => chain.inside other (mem_cons_of_mem _ member)⟩

theorem ChainOf.next_cases (geometry : Geometry v) {start cluster : Nat}
    (chain : ChainOf v start (cluster :: cells)) :
    (cells = [] ∧ chainEnd ≤ fat32GetFatEntry v cluster) ∨
      (2 ≤ fat32GetFatEntry v cluster ∧ fat32GetFatEntry v cluster < chainEnd) := by
  have numbers := geometry.numbers
  cases cells with
  | nil => exact .inl ⟨rfl, chain.linked.2⟩
  | cons after cells =>
    have inside := chain.tail.inside after mem_cons_self
    have same : fat32GetFatEntry v cluster = after := chain.tail.linked.1
    exact .inr ⟨by omega, by omega⟩

theorem ChainOf.changes {v v' : Volume} {entries clusters cells : List Nat}
    (chain : ChainOf v start cells) (changes : Changes v v' entries clusters)
    (apart : ∀ cluster ∈ cells, cluster ∉ entries) : ChainOf v' start cells where
  linked := chain.linked.congr (fun cluster member => changes.next (apart cluster member))
  inside := by
    rw [changes.fatEntries]
    exact chain.inside

theorem ChainOf.used (chain : ChainOf v start cells) (member : cluster ∈ cells) :
    v.fatCache cluster ≠ 0 := by
  intro free
  have inside := (chain.inside cluster member).2
  have zero : fat32GetFatEntry v cluster = 0 := by
    rw [fat32GetFatEntry, if_neg (by omega), free, Nat.zero_mod]
  have next := chain.linked.next_mem cluster member
  rw [zero] at next
  rcases next with again | last
  · exact absurd (chain.inside 0 again).1 (by decide)
  · exact absurd last (by decide)

def clusterSlots (v : Volume) (cluster : Nat) : List DirEntry :=
  directoryEntries v (clusterBytes v cluster)

/-- The slots of a directory, by the clusters of its chain. -/
def slots (v : Volume) (cells : List Nat) : List DirEntry := cells.flatMap (clusterSlots v)

/-- The entries that are neither deleted nor behind the end. -/
def liveEntries (v : Volume) (cells : List Nat) : List DirEntry :=
  live ended deleted (slots v cells)

theorem clusterSlots_changes {v v' : Volume} {entries clusters : List Nat}
    (changes : Changes v v' entries clusters) (proper : 2 ≤ cluster) (apart : cluster ∉ clusters) :
    clusterSlots v' cluster = clusterSlots v cluster := by
  unfold clusterSlots directoryEntries
  rw [changes.data cluster proper apart, changes.bytesPerCluster]

theorem slots_changes {v v' : Volume} {entries clusters cells : List Nat}
    (changes : Changes v v' entries clusters) (proper : ∀ cluster ∈ cells, 2 ≤ cluster)
    (apart : ∀ cluster ∈ cells, cluster ∉ clusters) : slots v' cells = slots v cells := by
  unfold slots
  apply flatMap_congr
  intro cluster member
  exact clusterSlots_changes changes (proper cluster member) (apart cluster member)

theorem slot_length (geometry : Geometry v)
    (member : entry ∈ slots v cells) : entry.length = 32 := by
  obtain ⟨cluster, _, here⟩ := mem_flatMap.mp member
  unfold clusterSlots directoryEntries at here
  obtain ⟨index, known, rfl⟩ := List.mem_map.mp here
  have inside := mem_range.mp known
  have whole := geometry.cluster
  rw [length_take, length_drop, clusterBytes_length]
  omega

theorem collectEntries_spec (maxEntries : Nat) (here entries : List DirEntry)
    (bounded : entries.length ≤ maxEntries) :
    (collectEntries maxEntries here entries).1.length ≤ maxEntries ∧
      ∀ more, (entries ++ live ended deleted (here ++ more)).take maxEntries =
        if (collectEntries maxEntries here entries).2 then
          (collectEntries maxEntries here entries).1
        else ((collectEntries maxEntries here entries).1 ++
          live ended deleted more).take maxEntries := by
  induction here generalizing entries with
  | nil => exact ⟨bounded, fun _ => rfl⟩
  | cons entry here ih =>
    rw [collectEntries]
    split
    · split
      · rename_i ended
        refine ⟨bounded, fun more => ?_⟩
        rw [cons_append, live_cons, if_pos ended, if_pos rfl, append_nil, take_of_length_le bounded]
      · rename_i notEnded
        split
        · rename_i deleted
          refine ⟨(ih entries bounded).1, fun more => ?_⟩
          rw [cons_append, live_cons, if_neg notEnded, if_pos deleted]
          exact (ih entries bounded).2 more
        · rename_i kept
          have longer : (entries ++ [entry]).length ≤ maxEntries := by
            rw [length_append, length_singleton]
            omega
          refine ⟨(ih _ longer).1, fun more => ?_⟩
          rw [cons_append, live_cons, if_neg notEnded, if_neg kept, append_cons]
          exact (ih _ longer).2 more
    · have whole : maxEntries ≤ entries.length := by omega
      refine ⟨bounded, fun more => ?_⟩
      rw [take_append_of_le_length whole, take_append_of_le_length whole]
      rfl

/-- The entries that are read are the live ones, in order. -/
theorem readDirectoryFrom_eq (geometry : Geometry v) (maxEntries : Nat) {start fuel : Nat}
    {entries : List DirEntry} (chain : ChainOf v start cells)
    (bounded : entries.length ≤ maxEntries) (enough : cells.length < fuel) :
    readDirectoryFrom v maxEntries fuel start entries =
      some (.ok ((entries ++ liveEntries v cells).take maxEntries)) := by
  have numbers := geometry.numbers
  -- Induction along the chain.
  induction cells generalizing start fuel entries with
  | nil =>
    obtain ⟨fuel, rfl⟩ : ∃ more, fuel = more + 1 := ⟨fuel - 1, by simp at enough; omega⟩
    have ends : chainEnd ≤ start := chain.linked
    rw [readDirectoryFrom, if_neg (by omega)]
    simp [liveEntries, slots, live_nil, take_of_length_le bounded]
  | cons cluster cells ih =>
    obtain ⟨fuel, rfl⟩ : ∃ more, fuel = more + 1 := ⟨fuel - 1, by simp at enough; omega⟩
    have inside := chain.inside cluster mem_cons_self
    obtain rfl : start = cluster := chain.linked.1
    by_cases room : entries.length < maxEntries
    · obtain ⟨few, collected⟩ :=
        collectEntries_spec maxEntries (clusterSlots v start) entries bounded
      rw [readDirectoryFrom, if_pos ⟨by omega, inside.1, room⟩, fat32ReadCluster_eq inside.1]
      have whole := collected (slots v cells)
      have here : (entries ++ liveEntries v (start :: cells)).take maxEntries =
          (entries ++ live ended deleted
            (clusterSlots v start ++ slots v cells)).take maxEntries := rfl
      rw [here, whole]
      dsimp only
      rw [← clusterSlots]
      cases result : collectEntries maxEntries (clusterSlots v start) entries with
      | mk found finished =>
        rw [result] at few
        cases finished with
        | true => rfl
        | false =>
          dsimp only
          rcases chain.next_cases geometry with ⟨rfl, ends⟩ | ⟨proper, before⟩
          · rw [if_pos (.inr ends)]
            simp [slots, live_nil, take_of_length_le few]
          · rw [if_neg (by omega)]
            exact ih chain.tail few (by simp at enough; omega)
    · have whole : maxEntries ≤ entries.length := by omega
      rw [readDirectoryFrom, if_neg (by omega), take_append_of_le_length whole,
        take_of_length_le bounded]

/-- The first entry of that name among those that `Fat32FindEntry` reads. -/
def lookup (entries : List DirEntry) (key : List UInt8) : Option DirEntry :=
  (entries.take 64).find? (fun entry => entry.name == key)

/-- `Fat32FindEntry` finds the entry for the name. -/
def Found (v : Volume) (name : List UInt8) (entry : DirEntry) : Prop :=
  fat32FindEntry true v v.rootCluster name = some (.ok entry)

theorem fat32FindEntry_eq (geometry : Geometry v)
    (chain : ChainOf v start cells) (name : List UInt8) :
    fat32FindEntry true v start name =
      match lookup (liveEntries v cells) (searchName name) with
      | some entry => some (.ok entry)
      | none => some (.error statusObjectNameNotFound) := by
  have read := readDirectoryFrom_eq geometry 64 chain (show [].length ≤ 64 by decide)
    (chain.short geometry)
  unfold fat32FindEntry fat32ReadDirectory
  rw [if_pos rfl, read, nil_append]
  rfl

theorem found_iff (geometry : Geometry v)
    (chain : ChainOf v v.rootCluster cells) {name : List UInt8} :
    Found v name entry ↔ lookup (liveEntries v cells) (searchName name) = some entry := by
  rw [Found, fat32FindEntry_eq geometry chain]
  cases lookup (liveEntries v cells) (searchName name) <;> simp

theorem splice_getElem? {α : Type} (bytes entry : List α) (start index : Nat)
    (inside : start + entry.length ≤ bytes.length) :
    (bytes.take start ++ entry ++ bytes.drop (start + entry.length))[index]? =
      if start ≤ index ∧ index < start + entry.length then entry[index - start]?
      else bytes[index]? := by
  have front : (bytes.take start).length = start := by
    rw [length_take]
    omega
  rw [append_assoc, getElem?_append, front]
  split
  · rename_i before
    rw [if_neg (by omega), getElem?_take_of_lt before]
  · rw [getElem?_append]
    split
    · rw [if_pos (by omega)]
    · rw [if_neg (by omega), getElem?_drop]
      congr 1
      omega

/-- A store over one slot changes that slot. -/
theorem directoryEntries_set {bytes : List UInt8} {index : Nat}
    (length : bytes.length = v.bytesPerCluster) (size : entry.length = 32)
    (inside : index < v.bytesPerCluster / 32) :
    directoryEntries v (bytes.take (32 * index) ++ entry ++ bytes.drop (32 * index + 32)) =
      (directoryEntries v bytes).set index entry := by
  have fits : 32 * index + entry.length ≤ bytes.length := by omega
  apply ext_getElem?
  intro slot
  rw [getElem?_set]
  unfold directoryEntries
  simp only [getElem?_map, length_map, length_range]
  by_cases known : slot < v.bytesPerCluster / 32
  · rw [getElem?_range known, Option.map_some, Option.map_some]
    have same : ((bytes.take (32 * index) ++ entry ++ bytes.drop (32 * index + 32)).drop
        (32 * slot)).take 32 =
          if index = slot then entry else (bytes.drop (32 * slot)).take 32 := by
      apply ext_getElem?
      intro offset
      have spliced := splice_getElem? bytes entry (32 * index) (32 * slot + offset) fits
      rw [size] at spliced
      rw [getElem?_take]
      split
      · rename_i small
        rw [getElem?_drop, spliced]
        split
        · obtain rfl : index = slot := by omega
          rw [if_pos rfl]
          congr 1
          omega
        · have different : index ≠ slot := by omega
          rw [if_neg different, getElem?_take_of_lt small, getElem?_drop]
      · symm
        rw [List.getElem?_eq_none_iff]
        split
        · omega
        · rw [length_take]
          omega
    rw [same]
    split
    · rfl
    · rfl
  · have absent : (range (v.bytesPerCluster / 32))[slot]? = none := by
      rw [List.getElem?_eq_none_iff, length_range]
      omega
    rw [absent, Option.map_none, Option.map_none, if_neg (by omega)]

theorem directoryEntries_length (v : Volume) (bytes : List UInt8) :
    (directoryEntries v bytes).length = v.bytesPerCluster / 32 := by
  simp [directoryEntries]

theorem putInCluster (geometry : Geometry v) (proper : 2 ≤ cluster) (size : entry.length = 32)
    {index : Nat} (inside : index < v.bytesPerCluster / 32) :
    ∃ v', fat32WriteCluster v cluster ((clusterBytes v cluster).take (32 * index) ++ entry ++
        (clusterBytes v cluster).drop (32 * index + 32)) = (statusSuccess, v') ∧
      v'.fatCache = v.fatCache ∧ Changes v v' [] [cluster] ∧
      clusterSlots v' cluster = (clusterSlots v cluster).set index entry := by
  have bytes := clusterBytes_length v cluster
  have whole := geometry.cluster
  have length : ((clusterBytes v cluster).take (32 * index) ++ entry ++
      (clusterBytes v cluster).drop (32 * index + 32)).length = v.sectorsPerCluster * 512 := by
    simp only [length_append, length_take, length_drop, bytes, size]
    omega
  obtain ⟨v', written, cache, changes, now⟩ := fat32WriteCluster_changes proper length
  refine ⟨v', written, cache, changes, ?_⟩
  have same := directoryEntries_set (v := v) (bytes.trans whole.symm) size inside
  unfold clusterSlots
  rw [now, ← same]
  unfold directoryEntries
  rw [changes.bytesPerCluster]

theorem writeEntryFrom_step (entry : DirEntry) (fuel : Nat)
    (proper : 2 ≤ cluster) (before : cluster < chainEnd) :
    writeEntryFrom v entry (fuel + 1) cluster =
      match (clusterSlots v cluster).findIdx? (isFree ended deleted) with
      | some i => some (fat32WriteCluster v cluster ((clusterBytes v cluster).take (32 * i) ++
        entry ++
          (clusterBytes v cluster).drop (32 * i + 32)))
      | none =>
        if fat32GetFatEntry v cluster = 0 ∨ chainEnd ≤ fat32GetFatEntry v cluster then
          some (statusDiskFull, v)
        else writeEntryFrom v entry fuel (fat32GetFatEntry v cluster) := by
  rw [writeEntryFrom, if_pos ⟨before, proper⟩, fat32ReadCluster_eq proper]
  rfl

/-- An entry goes into the first free slot, or the directory is full. -/
theorem writeEntryFrom_eq (geometry : Geometry v) (size : entry.length = 32) {start fuel : Nat}
    (chain : ChainOf v start cells) (enough : cells.length < fuel) :
    (put ended deleted entry (slots v cells) = none ∧
      writeEntryFrom v entry fuel start = some (statusDiskFull, v)) ∨
    ∃ after v', put ended deleted entry (slots v cells) = some after ∧
      writeEntryFrom v entry fuel start = some (statusSuccess, v') ∧
      v'.fatCache = v.fatCache ∧ Changes v v' [] cells ∧ slots v' cells = after := by
  have numbers := geometry.numbers
  have once := chain.nodup geometry
  induction cells generalizing start fuel with
  | nil =>
    obtain ⟨fuel, rfl⟩ : ∃ more, fuel = more + 1 := ⟨fuel - 1, by simp at enough; omega⟩
    have ends : chainEnd ≤ start := chain.linked
    left
    rw [writeEntryFrom, if_neg (by omega)]
    exact ⟨rfl, rfl⟩
  | cons cluster cells ih =>
    obtain ⟨fuel, rfl⟩ : ∃ more, fuel = more + 1 := ⟨fuel - 1, by simp at enough; omega⟩
    have inside := chain.inside cluster mem_cons_self
    obtain rfl : start = cluster := chain.linked.1
    obtain ⟨alone, onceMore⟩ := nodup_cons.mp once
    have proper : ∀ other ∈ cells, 2 ≤ other := fun other member =>
      (chain.inside other (mem_cons_of_mem _ member)).1
    have split : slots v (start :: cells) = clusterSlots v start ++ slots v cells := rfl
    rw [writeEntryFrom_step entry fuel inside.1 (by omega), split, put_append,
      put_eq_set entry (clusterSlots v start)]
    cases found : (clusterSlots v start).findIdx? (isFree ended deleted) with
    | some index =>
      right
      have bound : index < v.bytesPerCluster / 32 := by
        have known := (findIdx?_eq_some_iff_getElem.mp found).1
        rwa [clusterSlots, directoryEntries_length] at known
      obtain ⟨v', written, cache, changes, now⟩ := putInCluster geometry inside.1 size bound
      refine ⟨_, v', rfl, congrArg some written, cache, changes.mono (by simp) (by simp), ?_⟩
      have rest := slots_changes changes proper (fun other member same => alone (by
        rw [mem_singleton] at same
        exact same ▸ member))
      change clusterSlots v' start ++ slots v' cells = _
      rw [now, rest]
    | none =>
      dsimp only
      rcases chain.next_cases geometry with ⟨rfl, ends⟩ | ⟨properNext, before⟩
      · left
        rw [if_pos (.inr ends)]
        exact ⟨rfl, rfl⟩
      · rw [if_neg (by omega)]
        rcases ih chain.tail (by simp at enough; omega) onceMore with
          ⟨full, failed⟩ | ⟨after, v', placed, written, cache, changes, now⟩
        · left
          rw [full]
          exact ⟨rfl, failed⟩
        · right
          refine ⟨clusterSlots v start ++ after, v', ?_, written, cache,
            changes.mono (by simp) (subset_cons_self _ _), ?_⟩
          · rw [placed]
            rfl
          · change clusterSlots v' start ++ slots v' cells = _
            rw [clusterSlots_changes changes inside.1 alone, now]

theorem fat32WriteDirectoryEntry_full (geometry : Geometry v) (chain : ChainOf v start cells)
    (size : entry.length = 32) (full : Full ended deleted (slots v cells)) :
    fat32WriteDirectoryEntry true v start entry = some (statusDiskFull, v) := by
  rcases writeEntryFrom_eq geometry size chain (chain.short geometry) with
    ⟨_, failed⟩ | ⟨after, _, placed, _⟩
  · exact failed
  · rw [put_of_full full entry] at placed
    cases placed

theorem fat32WriteDirectoryEntry_placed (geometry : Geometry v) (chain : ChainOf v start cells)
    {entry free : DirEntry} (size : entry.length = 32) {front back : List DirEntry}
    (split : slots v cells = front ++ free :: back) (full : Full ended deleted front)
    (isfree : isFree ended deleted free = true) :
    ∃ v', fat32WriteDirectoryEntry true v start entry = some (statusSuccess, v') ∧
      v'.fatCache = v.fatCache ∧ Changes v v' [] cells ∧
        slots v' cells = front ++ entry :: back := by
  have expected := put_of_split full isfree back entry
  rcases writeEntryFrom_eq geometry size chain (chain.short geometry) with
    ⟨none, _⟩ | ⟨after, v', placed, written, cache, changes, now⟩
  · rw [split, expected] at none
    cases none
  · rw [split, expected] at placed
    cases placed
    exact ⟨v', written, cache, changes, now⟩

end MinNT.Fat32
