import MinNT.Fs.Fat32Create

namespace MinNT.Fat32

open ByteMemory SlotTable List DirEntry

/-- The slots of the directory in front of the first free one. -/
def firstSlots (v : Volume) (root : List Nat) : List DirEntry :=
  occupied ended deleted (slots v root)

/-- The slots behind the first free one. -/
def behindSlots (v : Volume) (root : List Nat) : List DirEntry :=
  (slots v root).drop ((firstSlots v root).length + 1)

/-- The slots between the first two free ones. -/
def secondSlots (v : Volume) (root : List Nat) : List DirEntry :=
  occupied ended deleted (behindSlots v root)

/-- The call that creates the file fails for want of a second slot; or the file
is empty, its name needs no padding, its entry is among the first 64, and all
other files are in front of the second free slot, where one more entry before
them does not matter. -/
def CreatesWell (v : Volume) (root : List Nat) (name data : List UInt8) : Prop :=
  (storedName name).headD 0 ≠ 0xE5 ∧
    (Full ended deleted (behindSlots v root) ∨
      data = [] ∧ searchName name = storedName name ∧ (firstSlots v root).length < 64 ∧
        ∀ name' entry', Found v name' entry' → searchName name' ≠ searchName name →
          ∃ entry ∈ firstSlots v root ++
            (secondSlots v root).take (63 - (firstSlots v root).length),
            entry.name = searchName name')

theorem readFile_absent {v : Volume} {root : List Nat} (geometry : Geometry v)
    (chain : ChainOf v v.rootCluster root) {name : List UInt8}
    (absent : lookup (liveEntries v root) (searchName name) = none) (buffer : ByteMemory)
    (bufsize : Nat) :
    readFile v name buffer bufsize = some ⟨statusObjectNameNotFound, 0, buffer⟩ := by
  rw [readFile, fat32ReadFile, if_pos geometry.mounted, fat32FindEntry_eq geometry chain, absent]

theorem readFile_present {v : Volume} (geometry : Geometry v) {name : List UInt8} {entry : DirEntry}
    (found : Found v name entry) (buffer : ByteMemory) :
    readFile v name buffer 0 ≠ some ⟨statusObjectNameNotFound, 0, buffer⟩ := by
  have different : statusSuccess ≠ statusObjectNameNotFound ∧
      statusInvalidParameter ≠ statusObjectNameNotFound := by decide
  rw [readFile_found geometry found, Nat.min_zero]
  split
  · simp [different.1]
  · split
    · simp [different.2]
    · rw [readClusters_end (.inr (Nat.le_refl 0)) loopSteps_pos]
      simp [different.1]

theorem live_garbage {stack : DirEntry} (size : stack.length = 32) (total : Nat)
    (rest : List DirEntry) :
    (stack.mark = 0xE5 → live ended deleted (stack.withSize total :: rest) =
      live ended deleted rest) ∧
    (stack.mark = 0 → live ended deleted (stack.withSize total :: rest) =
      []) := by
  have mark := withSize_mark size total
  constructor
  · intro isDeleted
    rw [live_cons, ended, deleted, mark, isDeleted, if_neg (by decide), if_pos (by decide)]
  · intro isEnd
    rw [live_cons, ended, mark, isEnd, if_pos (by decide)]

section Create

variable {v : Volume} {root : List Nat} {name data : List UInt8}

/-- A new file whose name does not mark its entry as deleted, in a directory with
two free slots. -/
theorem create_two (good : WellFormed v root) (cstring : ∀ c ∈ name, c ≠ 0)
    (absent : lookup (liveEntries v root) (searchName name) = none)
    (enough : clustersNeeded v data.length ≤ (freeClusters v).length)
    (mark : (storedName name).headD 0 ≠ 0xE5) {front between rest : List DirEntry}
    {free second : DirEntry} (split : slots v root = front ++ free :: (between ++ second :: rest))
    (full : Full ended deleted front) (isfree : isFree ended deleted free = true)
    (full' : Full ended deleted between) (isfree' : isFree ended deleted second = true)
    (stack : DirEntry) (size : stack.length = 32) :
    ∃ v' start total written, fat32WriteFile roomy stack v name data =
        some ⟨statusSuccess, written, v'⟩ ∧
      Geometry v' ∧ ChainOf v' v'.rootCluster root ∧
      Changes v v' (freeClusters v) (root ++ freeClusters v) ∧
      liveEntries v' root = front ++ newEntry name start :: (between ++
        live ended deleted (stack.withSize total :: rest)) := by
  obtain ⟨v₁, start, total, call, geometry, chain, placed, changes⟩ :=
    create_prepared good absent split full isfree enough stack
  have occupiedNew := newEntry_occupied cstring mark start
  have fullFront : Full ended deleted (front ++ newEntry name start :: between) := by
    intro slot member
    rcases mem_append.mp member with early | late
    · exact full slot early
    · rcases mem_cons.mp late with rfl | behind
      · exact occupiedNew
      · exact full' slot behind
  have split' : slots v₁ root = (front ++ newEntry name start :: between) ++ second :: rest := by
    rw [placed, append_assoc, cons_append]
  obtain ⟨v', written, finished, changes', now⟩ :=
    finishCreate_placed geometry chain split' fullFront isfree' size total
  refine ⟨v', start, total, written, call.trans finished, changes'.geometry geometry, ?_,
    changes.trans (changes'.mono (by simp) (subset_append_left _ _)), ?_⟩
  · rw [changes'.rootCluster]
    exact chain.changes changes' (fun _ _ => not_mem_nil)
  · rw [liveEntries, now, live_of_full_append fullFront, append_assoc, cons_append]

theorem create_marked (good : WellFormed v root) (cstring : ∀ c ∈ name, c ≠ 0)
    (absent : lookup (liveEntries v root) (searchName name) = none)
    (enough : clustersNeeded v data.length ≤ (freeClusters v).length)
    (mark : (storedName name).headD 0 = 0xE5) {front back : List DirEntry} {free : DirEntry}
    (split : slots v root = front ++ free :: back) (full : Full ended deleted front)
    (isfree : isFree ended deleted free = true) (stack : DirEntry) (size : stack.length = 32) :
    ∃ v' total written, fat32WriteFile roomy stack v name data =
        some ⟨statusSuccess, written, v'⟩ ∧
      Geometry v' ∧ ChainOf v' v'.rootCluster root ∧
      liveEntries v' root = front ++
        live ended deleted (stack.withSize total :: back) := by
  obtain ⟨v₁, start, total, call, geometry, chain, placed, changes⟩ :=
    create_prepared good absent split full isfree enough stack
  have marks := newEntry_mark cstring start
  have freeNew : isFree ended deleted (newEntry name start) = true := by
    rw [isFree, marks.2.mpr mark, Bool.or_true]
  obtain ⟨v', written, finished, changes', now⟩ :=
    finishCreate_placed geometry chain placed full freeNew size total
  refine ⟨v', total, written, call.trans finished, changes'.geometry geometry, ?_, ?_⟩
  · rw [changes'.rootCluster]
    exact chain.changes changes' (fun _ _ => not_mem_nil)
  · rw [liveEntries, now, live_of_full_append full]

theorem firstSlots_full (v : Volume) (root : List Nat) :
    Full ended deleted (firstSlots v root) := occupied_full _

theorem secondSlots_full (v : Volume) (root : List Nat) :
    Full ended deleted (secondSlots v root) := occupied_full _

theorem split_first (room : ¬ Full ended deleted (slots v root)) :
    ∃ free, slots v root = firstSlots v root ++ free :: behindSlots v root ∧
      isFree ended deleted free = true := by
  rcases full_or_split (slots v root) with full | ⟨free, back, split, isfree⟩
  · exact absurd full room
  · have behind : behindSlots v root = back := by
      unfold behindSlots firstSlots
      rw [split, occupied_of_split (occupied_full _) isfree]
      simp
    refine ⟨free, ?_, isfree⟩
    rw [behind]
    exact split

section Good

variable (good : WellFormed v root)
include good

theorem WellFormed.live_first {free : DirEntry}
    (split : slots v root = firstSlots v root ++ free :: behindSlots v root)
    (isfree : isFree ended deleted free = true) :
    liveEntries v root =
      firstSlots v root ++ live ended deleted (behindSlots v root) := by
  rw [liveEntries, split, live_of_full_append (firstSlots_full v root),
    good.live_behind split isfree]

theorem WellFormed.live_second {free second : DirEntry} {rest : List DirEntry}
    (split : slots v root = firstSlots v root ++ free :: behindSlots v root)
    (isfree : isFree ended deleted free = true)
    (behind : behindSlots v root = secondSlots v root ++ second :: rest)
    (isfree' : isFree ended deleted second = true) :
    liveEntries v root = firstSlots v root ++ (secondSlots v root ++
      live ended deleted rest) := by
  have whole : slots v root =
      (firstSlots v root ++ free :: secondSlots v root) ++ second :: rest := by
    rw [split, behind, append_assoc, cons_append]
  rw [good.live_first split isfree, behind, live_of_full_append (secondSlots_full v root),
    good.live_behind whole isfree']

section Cstring

variable (cstring : ∀ c ∈ name, c ≠ 0)
include cstring

theorem create_marked_fails (absent : lookup (liveEntries v root) (searchName name) = none)
    (small : data.length < 2 ^ 32) (enough : clustersNeeded v data.length ≤ (freeClusters v).length)
    (room : ¬ Full ended deleted (slots v root)) (mark : (storedName name).headD 0 = 0xE5)
    (roundTrips : ∀ stack, stack.length = 32 → RoundTrips v stack name data) : False := by
  obtain ⟨free, split, isfree⟩ := split_first room
  obtain ⟨v', total, written, call, geometry, chain, now⟩ := create_marked good cstring absent
    enough mark split (firstSlots_full v root) isfree (0xE5 :: replicate 31 0) (by decide)
  have same : liveEntries v' root = liveEntries v root := by
    rw [now, (live_garbage (by decide) total _).1 rfl, good.live_first split isfree]
  obtain ⟨after, read, _⟩ := (roundTrips _ (by decide) _ call rfl).1 data.length (fun _ => 0)
    (Nat.le_refl _) small
  rw [readFile_absent geometry chain (by rw [same]; exact absent), Option.some.injEq,
    ReadResult.mk.injEq] at read
  exact absurd read.1 (by decide)

/-- What a creation that reads back needs. -/
theorem create_needs (absent : lookup (liveEntries v root) (searchName name) = none)
    (small : data.length < 2 ^ 32) (enough : clustersNeeded v data.length ≤ (freeClusters v).length)
    (room : ¬ Full ended deleted (slots v root))
    (roundTrips : ∀ stack, stack.length = 32 → RoundTrips v stack name data) :
    CreatesWell v root name data := by
  have mark : (storedName name).headD 0 ≠ 0xE5 := fun mark =>
    create_marked_fails good cstring absent small enough room mark roundTrips
  refine ⟨mark, ?_⟩
  obtain ⟨free, split, isfree⟩ := split_first room
  rcases full_or_split (behindSlots v root) with full | ⟨second, rest, behind, isfree'⟩
  · exact .inl full
  change behindSlots v root = secondSlots v root ++ second :: rest at behind
  have split' := split
  rw [behind] at split'
  have run := create_two good cstring absent enough mark split' (firstSlots_full v root) isfree
    (secondSlots_full v root) isfree'
  rw [good.live_second split isfree behind isfree'] at absent
  obtain ⟨isEmpty, unpadded, short⟩ : data = [] ∧ searchName name = storedName name ∧
      (firstSlots v root).length < 64 := by
    obtain ⟨v', start, total, written, call, geometry, chain, _, now⟩ :=
      run (0xE5 :: replicate 31 0) (by decide)
    rw [(live_garbage (by decide) total _).1 rfl] at now
    obtain ⟨after, read, _⟩ := (roundTrips _ (by decide) _ call rfl).1 data.length (fun _ => 0)
      (Nat.le_refl _) small
    have fields := newEntry_fields name start
    cases seen : lookup (liveEntries v' root) (searchName name) with
    | none =>
      rw [readFile_absent geometry chain seen, Option.some.injEq, ReadResult.mk.injEq] at read
      exact absurd read.1 (by decide)
    | some found =>
      have known := seen
      rw [now] at seen
      obtain ⟨rfl, short⟩ := lookup_inserted_new absent seen
      have named : DirEntry.name (newEntry name start) = searchName name := by
        simpa using find?_some seen
      rw [readFile_found geometry ((found_iff geometry chain).mpr known), if_pos fields.2.2,
        Option.some.injEq, ReadResult.mk.injEq] at read
      exact ⟨length_eq_zero_iff.mp read.2.1.symm, named.symm.trans fields.2.1, short⟩
  refine .inr ⟨isEmpty, unpadded, short, ?_⟩
  intro name' entry' found' different
  obtain ⟨v', start, total, written, call, geometry, chain, _, now⟩ :=
    run (replicate 32 0) (by decide)
  rw [(live_garbage (by decide) total _).2 rfl, append_nil] at now
  have same :=
    (roundTrips _ (by decide) _ call rfl).2 name' entry' found' different 0 (fun _ => 0)
  cases seen : lookup (liveEntries v' root) (searchName name') with
  | none =>
    rw [readFile_absent geometry chain seen] at same
    exact absurd same.symm (readFile_present good.geometry found' _)
  | some found =>
    rw [now] at seen
    have named : found.name = searchName name' := by simpa using find?_some seen
    have member := mem_of_find?_eq_some seen
    rw [take_inserted short] at member
    refine ⟨found, ?_, named⟩
    rcases mem_append.mp member with early | late
    · exact mem_append_left _ early
    · rcases mem_cons.mp late with rfl | behind
      · rw [(newEntry_fields name start).2.1, ← unpadded] at named
        exact absurd named.symm different
      · exact mem_append_right _ behind

theorem create_fails (absent : lookup (liveEntries v root) (searchName name) = none)
    (enough : clustersNeeded v data.length ≤ (freeClusters v).length)
    (room : ¬ Full ended deleted (slots v root)) (mark : (storedName name).headD 0 ≠ 0xE5)
    (full : Full ended deleted (behindSlots v root)) (stack : DirEntry) (size : stack.length = 32) :
    ∃ result, fat32WriteFile roomy stack v name data = some result ∧
      result.status = statusDiskFull := by
  obtain ⟨free, split, isfree⟩ := split_first room
  obtain ⟨v₁, start, total, call, geometry, chain, placed, _⟩ :=
    create_prepared good absent split (firstSlots_full v root) isfree enough stack
  have occupiedNew := newEntry_occupied cstring mark start
  have fullNow : Full ended deleted (slots v₁ root) := by
    rw [placed]
    intro slot member
    rcases mem_append.mp member with early | late
    · exact firstSlots_full v root slot early
    · rcases mem_cons.mp late with rfl | behind
      · exact occupiedNew
      · exact full slot behind
  obtain ⟨written, finished⟩ := finishCreate_full geometry chain fullNow size total
  exact ⟨_, call.trans finished, rfl⟩

/-- That much is enough. -/
theorem create_reads (absent : lookup (liveEntries v root) (searchName name) = none)
    (enough : clustersNeeded v data.length ≤ (freeClusters v).length)
    (room : ¬ Full ended deleted (slots v root)) (creates : CreatesWell v root name data)
    (stack : DirEntry) (size : stack.length = 32) : RoundTrips v stack name data := by
  obtain ⟨mark, outcome⟩ := creates
  obtain ⟨free, split, isfree⟩ := split_first room
  intro result call success
  rcases full_or_split (behindSlots v root) with full | ⟨second, rest, behind, isfree'⟩
  · obtain ⟨failed, call', status⟩ :=
      create_fails good cstring absent enough room mark full stack size
    rw [call] at call'
    cases call'
    rw [status] at success
    exact absurd success (by decide)
  · change behindSlots v root = secondSlots v root ++ second :: rest at behind
    rcases outcome with full | ⟨rfl, unpadded, short, others⟩
    · have member : second ∈ behindSlots v root := by
        rw [behind]
        simp
      rw [full second member] at isfree'
      cases isfree'
    have split' := split
    rw [behind] at split'
    obtain ⟨v', start, total, written, call', geometry, chain, changes, now⟩ := create_two good
      cstring absent enough mark split' (firstSlots_full v root) isfree (secondSlots_full v root)
      isfree' stack size
    rw [call] at call'
    cases call'
    have live₀ := good.live_second split isfree behind isfree'
    have fields := newEntry_fields name start
    constructor
    · intro bufsize buffer _ _
      refine ⟨buffer, ?_, rfl⟩
      have found : Found v' name (newEntry name start) := by
        rw [found_iff geometry chain, now]
        rw [live₀] at absent
        exact lookup_inserted_eq absent short (fields.2.1.trans unpadded.symm) _
      rw [readFile_found geometry found, if_pos fields.2.2]
      rfl
    · intro name' entry' found' different bufsize buffer
      have found : Found v' name' entry' := by
        have seen := (found_iff good.geometry good.chain).mp found'
        rw [live₀, ← append_assoc] at seen
        rw [found_iff geometry chain, now]
        refine lookup_inserted_other short ?_ (others name' entry' found' different) seen rfl
        rw [fields.2.1, ← unpadded]
        exact Ne.symm different
      apply readFile_changes good.geometry changes found' found
      rcases good.files name' entry' found' with none | ⟨cells, file⟩
      · exact .inl none
      · refine .inr ⟨cells, file.chain, fun cluster member => ?_⟩
        have used : cluster ∉ freeClusters v := fun again =>
          file.chain.used member (mem_freeClusters.mp again).2
        refine ⟨used, fun inBoth => ?_⟩
        rcases mem_append.mp inBoth with inRoot | inFree
        · exact file.apart cluster member inRoot
        · exact used inFree

end Cstring

end Good

end Create

/-- There are enough free clusters for the data. -/
def EnoughFree (v : Volume) (root : List Nat) (name data : List UInt8) : Prop :=
  (∀ entry cells, Found v name entry → FileChain v root entry cells →
    clustersNeeded v data.length ≤ cells.length + (freeClusters v).length) ∧
  ((∀ entry, ¬ Found v name entry) → clustersNeeded v data.length ≤ (freeClusters v).length)

/-- When a write does what it should: to an existing file that has no cluster,
when it fails, or exactly that size, and to a new one under the condition above. -/
def WritesWell (v : Volume) (root : List Nat) (name data : List UInt8) : Prop :=
  (∀ entry, Found v name entry → entry.firstCluster < 2 ∨
    data.length = entry.fileSize ∧ data.length + v.bytesPerCluster ≤ 2 ^ 32) ∧
  ((∀ entry, ¬ Found v name entry) → CreatesWell v root name data)

/-- A file that is written reads back, and leaves the others alone, exactly under
these conditions. -/
theorem fat32WriteFile_roundTrips_iff (v : Volume) (root : List Nat) (good : WellFormed v root)
    (name data : List UInt8) (cstring : ∀ c ∈ name, c ≠ 0) (small : data.length < 2 ^ 32)
    (enough : EnoughFree v root name data) (room : ¬ Full ended deleted (slots v root)) :
    (∀ stack, stack.length = 32 → RoundTrips v stack name data) ↔ WritesWell v root name data := by
  have lookups : ∀ entry, Found v name entry ↔
      lookup (liveEntries v root) (searchName name) = some entry := fun _ =>
    found_iff good.geometry good.chain
  constructor
  · intro roundTrips
    constructor
    · intro entry found
      rcases good.files name entry found with noCluster | ⟨cells, file⟩
      · exact .inl noCluster
      · exact .inr (overwrite_size good found file small (enough.1 entry cells found file)
          (roundTrips (replicate 32 0) (by decide)))
    · intro missing
      have absent : lookup (liveEntries v root) (searchName name) = none := by
        rw [Option.eq_none_iff_forall_ne_some]
        exact fun entry seen => missing entry ((lookups entry).mpr seen)
      exact create_needs good cstring absent small (enough.2 missing) room roundTrips
  · rintro ⟨existing, new⟩ stack size
    cases seen : lookup (liveEntries v root) (searchName name) with
    | some entry =>
      have found := (lookups entry).mpr seen
      rcases existing entry found with noCluster | ⟨same, noWrap⟩
      · exact overwrite_refused good found noCluster stack
      · rcases good.files name entry found with noCluster | ⟨cells, file⟩
        · exact overwrite_refused good found noCluster stack
        · exact overwrite_reads good found file same noWrap stack
    | none =>
      have missing : ∀ entry, ¬ Found v name entry := by
        intro entry found
        rw [(lookups entry).mp found] at seen
        cases seen
      exact create_reads good cstring seen (enough.2 missing) room (new missing) stack size

theorem oneFileVolume_found : Found oneFileVolume [0x41] entryA :=
  (found_iff oneFileVolume_wellFormed.geometry oneFileVolume_wellFormed.chain).mpr
    (by decide +kernel)

theorem oneFileVolume_enough {data : List UInt8}
    (one : clustersNeeded oneFileVolume data.length = 1) :
    EnoughFree oneFileVolume [2] [0x41] data := by
  constructor
  · intro entry cells _ file
    have positive := length_pos_iff.mpr file.nonempty
    omega
  · intro missing
    exact absurd oneFileVolume_found (missing entryA)

theorem oneFileVolume_room : ¬ Full ended deleted (slots oneFileVolume [2]) := by
  unfold Full
  decide +kernel

/-- Five other bytes in the place of the five bytes of the file. -/
theorem oneFileVolume_roundTrips : WellFormed oneFileVolume [2] ∧
    ∀ stack, stack.length = 32 → RoundTrips oneFileVolume stack [0x41] [1, 2, 3, 4, 5] := by
  have good := oneFileVolume_wellFormed
  have few : ([1, 2, 3, 4, 5] : List UInt8).length < 2 ^ 32 := by decide
  have enough : EnoughFree oneFileVolume [2] [0x41] [1, 2, 3, 4, 5] :=
    oneFileVolume_enough (by decide +kernel)
  have size : ([1, 2, 3, 4, 5] : List UInt8).length = entryA.fileSize ∧
      ([1, 2, 3, 4, 5] : List UInt8).length + oneFileVolume.bytesPerCluster ≤ 2 ^ 32 := by
    decide +kernel
  have condition : WritesWell oneFileVolume [2] [0x41] [1, 2, 3, 4, 5] := by
    refine ⟨?_, fun missing => absurd oneFileVolume_found (missing entryA)⟩
    intro entry found
    have same : some entryA = some entry :=
      ((found_iff good.geometry good.chain).mp oneFileVolume_found).symm.trans
        ((found_iff good.geometry good.chain).mp found)
    rw [← Option.some.inj same]
    exact .inr size
  have whether := fat32WriteFile_roundTrips_iff oneFileVolume [2] good [0x41] [1, 2, 3, 4, 5]
    (by decide +kernel) few enough oneFileVolume_room
  exact ⟨good, whether.mpr condition⟩

/-- One byte in the place of five: the write succeeds, and five bytes are read. -/
theorem oneFileVolume_not_roundTrips : WellFormed oneFileVolume [2] ∧
    EnoughFree oneFileVolume [2] [0x41] [1] ∧
    ¬ Full ended deleted (slots oneFileVolume [2]) ∧
    ¬ RoundTrips oneFileVolume (replicate 32 0) [0x41] [1] := by
  have good := oneFileVolume_wellFormed
  have enough : EnoughFree oneFileVolume [2] [0x41] [1] := oneFileVolume_enough (by decide +kernel)
  refine ⟨good, enough, oneFileVolume_room, ?_⟩
  intro roundTrips
  rcases good.files _ _ oneFileVolume_found with none | ⟨cells, file⟩
  · exact absurd none (by decide)
  · have size := overwrite_size good oneFileVolume_found file (by decide)
      (enough.1 entryA cells oneFileVolume_found file) roundTrips
    exact absurd size.1 (by decide)

end MinNT.Fat32
