import MinNT.Fs.Fat32Allocate
import MinNT.Fs.Fat32Returns

namespace MinNT.Fat32

open Chain SlotTable List DirEntry

/-- A slot that a new entry of the directory may go to, by its cluster and its index there. -/
def FreeSlot (v : Volume) (dir : Nat) (slot : Nat × Nat) : Prop :=
  OnChain v dir slot.1 ∧ ∃ entry, (clusterSlots v slot.1)[slot.2]? = some entry ∧
    isFree ended deleted entry = true

variable {v : Volume}

theorem entryStuck_iff {dir : Nat} :
    EntryStuck v dir ↔ Cyclic v dir ∧ ∀ slot, ¬ FreeSlot v dir slot := by
  refine and_congr_right fun _ => ⟨?_, ?_⟩
  · rintro full slot ⟨onChain, entry, here, free⟩
    rw [full slot.1 onChain entry (mem_of_getElem? here)] at free
    cases free
  · intro none cluster onChain entry member
    obtain ⟨index, here⟩ := mem_iff_getElem?.mp member
    cases free : isFree ended deleted entry with
    | false => rfl
    | true => exact absurd ⟨onChain, entry, here, free⟩ (none (cluster, index))

/-- A directory write that returns has found the directory full or put the entry into a
free slot. -/
theorem writeEntryFrom_cases (geometry : Geometry v) {entry : DirEntry}
    (size : entry.length = 32) (fuel : Nat) :
    ∀ {cur : Nat} {status : NtStatus} {v' : Volume},
      writeEntryFrom v entry fuel cur = some (status, v') →
      (status = statusDiskFull ∧ v' = v ∧ ¬ Cyclic v cur) ∨
        (status = statusSuccess ∧ ∃ slot, FreeSlot v cur slot ∧ v'.fatCache = v.fatCache ∧
          Changes v v' [] [slot.1] ∧
          clusterSlots v' slot.1 = (clusterSlots v slot.1).set slot.2 entry) := by
  induction fuel with
  | zero => exact fun done => nomatch done
  | succ fuel ih =>
    intro cur status v' done
    by_cases proper : Proper cur
    · rw [writeEntryFrom_step entry fuel proper.1 proper.2] at done
      cases found : (clusterSlots v cur).findIdx? (isFree ended deleted) with
      | some index =>
        rw [found] at done
        obtain ⟨bound, free, _⟩ := findIdx?_eq_some_iff_getElem.mp found
        have inside : index < v.bytesPerCluster / 32 := by
          rwa [clusterSlots, directoryEntries_length] at bound
        obtain ⟨after, written, cache, changes, now⟩ :=
          putInCluster geometry proper.1 size inside
        dsimp only at done
        rw [written] at done
        cases done
        refine .inr ⟨rfl, (cur, index), ⟨⟨0, clusterAt_first proper⟩, _, ?_, free⟩, cache,
          changes, now⟩
        exact getElem?_eq_getElem bound
      | none =>
        rw [found] at done
        dsimp only at done
        split at done
        · cases done
          refine .inl ⟨rfl, rfl, fun cyclic => ?_⟩
          have low := cyclic.next.1
          have high := cyclic.next.2
          omega
        · rcases ih done with ⟨full, same, ending⟩ | ⟨placed, slot, ⟨behind, free⟩, rest⟩
          · exact .inl ⟨full, same, fun cyclic => ending cyclic.tail⟩
          · exact .inr ⟨placed, slot, ⟨behind.later proper, free⟩, rest⟩
    · rw [writeEntryFrom, if_neg (fun here => proper ⟨here.2, here.1⟩)] at done
      cases done
      exact .inl ⟨rfl, rfl, fun cyclic => proper cyclic.proper⟩

/-- A step that only touches clusters of chains that end leaves the slots of a cyclic
directory. -/
theorem freeSlot_changes {v v' : Volume} {taken : List Nat} (changes : Changes v v' taken taken)
    (before : ∀ cluster ∈ taken, ¬ Cyclic v cluster)
    (ends : ∀ cluster ∈ taken, ¬ Cyclic v' cluster) {dir : Nat} (cyclic : Cyclic v dir)
    (slot : Nat × Nat) : FreeSlot v' dir slot ↔ FreeSlot v dir slot := by
  unfold FreeSlot
  rw [(cyclic_changes changes before ends dir).2 cyclic]
  refine and_congr_right fun onChain => ?_
  have there := cyclic.from_onChain onChain
  rw [clusterSlots_changes changes there.proper.1 fun member => before _ member there]

theorem entryStuck_changes {v v' : Volume} {taken : List Nat} (changes : Changes v v' taken taken)
    (before : ∀ cluster ∈ taken, ¬ Cyclic v cluster) (ends : ∀ cluster ∈ taken, ¬ Cyclic v' cluster)
    (dir : Nat) : EntryStuck v' dir ↔ EntryStuck v dir := by
  rw [entryStuck_iff, entryStuck_iff, (cyclic_changes changes before ends dir).1]
  refine and_congr_right fun cyclic => ?_
  simp only [freeSlot_changes changes before ends cyclic]

theorem entryStuck_placed {v v' : Volume} {dir : Nat} {placed : Nat × Nat} {entry : DirEntry}
    (changes : Changes v v' [] [placed.1]) (free : FreeSlot v dir placed)
    (now : clusterSlots v' placed.1 = (clusterSlots v placed.1).set placed.2 entry) :
    EntryStuck v' dir ↔ Cyclic v dir ∧ isFree ended deleted entry = false ∧
      ∀ slot, FreeSlot v dir slot → slot = placed := by
  have same : ∀ cluster, fat32GetFatEntry v' cluster = fat32GetFatEntry v cluster :=
    fun cluster => changes.next not_mem_nil
  have chains : ∀ cluster, OnChain v' dir cluster ↔ OnChain v dir cluster :=
    onChain_congr fun cluster _ => same cluster
  rw [entryStuck_iff, cyclic_congr fun cluster _ => same cluster]
  refine and_congr_right fun cyclic => ?_
  obtain ⟨onChain, old, here, _⟩ := free
  have bound := (List.getElem?_eq_some_iff.mp here).1
  -- Only the slot of the entry has changed.
  have slots : ∀ slot, slot ≠ placed → (FreeSlot v' dir slot ↔ FreeSlot v dir slot) := by
    intro slot different
    unfold FreeSlot
    rw [chains]
    refine and_congr_right fun inside => ?_
    by_cases cluster : slot.1 = placed.1
    · have index : placed.2 ≠ slot.2 := fun equal => different (Prod.ext cluster equal.symm)
      rw [cluster, now, getElem?_set_ne index]
    · rw [clusterSlots_changes changes (cyclic.from_onChain inside).proper.1
        (by simpa using cluster)]
  have stored : FreeSlot v' dir placed ↔ isFree ended deleted entry = true := by
    unfold FreeSlot
    rw [chains, now, getElem?_set_self bound]
    simp [onChain]
  constructor
  · intro none
    refine ⟨?_, fun slot free => ?_⟩
    · rw [← Bool.not_eq_true, ← stored]
      exact none placed
    · by_contra different
      exact none slot ((slots slot different).mpr free)
  · rintro ⟨occupied, only⟩ slot free
    by_cases equal : slot = placed
    · rw [equal, stored, occupied] at free
      cases free
    · exact equal (only slot ((slots slot equal).mp free))

theorem fat32WriteCluster_bytesPerCluster (v : Volume) (cluster : Nat) (bytes : List UInt8) :
    (fat32WriteCluster v cluster bytes).2.bytesPerCluster = v.bytesPerCluster := by
  unfold fat32WriteCluster
  split <;> rfl

theorem writeClusters_isSome (room : Nat → Bool) (data : List UInt8) (fuel : Nat) :
    ∀ {v : Volume} {cur written : Nat}, 0 < v.bytesPerCluster → data.length - written < fuel →
      (writeClusters room data fuel v cur written).isSome := by
  induction fuel with
  | zero => exact fun _ enough => absurd enough (Nat.not_lt_zero _)
  | succ fuel ih =>
    intro v cur written positive enough
    rw [writeClusters]
    split
    · split
      · dsimp only
        split
        · split
          · rfl
          · apply ih
            · rw [fat32WriteCluster_bytesPerCluster]
              exact positive
            · omega
        · rfl
      · rfl
    · rfl

variable {data : List UInt8}

theorem writeData_existing_isSome (room : WriteRoom) (stack : DirEntry)
    (positive : 0 < v.bytesPerCluster) (start : Nat)
    (small : data.length < 2 ^ 32) : (writeData room stack v false start data).isSome := by
  have enough : data.length - 0 < loopSteps := by
    rw [loopSteps]
    omega
  obtain ⟨⟨status, written, v'⟩, done⟩ := Option.isSome_iff_exists.mp
    (@writeClusters_isSome room.data data loopSteps v start 0 positive enough)
  rw [writeData, done]
  dsimp only
  split <;> rfl

section Create

variable {v : Volume} {start : Nat} {rest : List Nat}

theorem fat32AllocateChain_full (geometry : Geometry v) (count : Nat)
    (inside : start < v.fatEntries) (used : v.fatCache start ≠ 0)
    (few : (freeClusters v).length < count) :
    ntSuccess (fat32AllocateChain v start (count + 1)).1 = false := by
  have numbers := geometry.numbers
  rw [fat32AllocateChain_few count inside used few]
  · rfl
  · intro cluster member
    have bound := (mem_freeClusters.mp member).1.2
    have marks : chainEnd < 2 ^ 28 := by decide
    omega

/-- The end of a call for a new file, from the allocation of its chain on. -/
def finishNew (room : WriteRoom) (stack : DirEntry) (v : Volume) (start : Nat)
    (data : List UInt8) : Option WriteResult :=
  let (status, v) := fat32AllocateChain v start (clustersNeeded v data.length)
  if ntSuccess status then writeData room stack v true start data else some ⟨status, none, v⟩

theorem clustersNeeded_pos (v : Volume) (size : Nat) : 0 < clustersNeeded v size := by
  unfold clustersNeeded
  omega

/-- The write of a new file returns unless its entry is stuck. -/
theorem writeData_new_returns_iff (geometry : Geometry v) {cells : List Nat}
    (chain : ChainOf v start cells) (data : List UInt8) :
    (∀ room stack, (writeData room stack v true start data).isSome) ↔
      ¬ EntryStuck v v.rootCluster := by
  -- The data goes to clusters that are not on the directory's chain if that is cyclic.
  have stuck : ∀ {room status total v'}, writeClusters room data loopSteps v start 0 =
      some (status, total, v') → v'.rootCluster = v.rootCluster ∧
        (EntryStuck v' v.rootCluster ↔ EntryStuck v v.rootCluster) ∧
        ((∀ written, room written = true) → status = statusSuccess) := by
    intro room status total v' written
    obtain ⟨_, _, _, done, success, _, changes⟩ :=
      @writeClusters_changes v geometry room data _ start loopSteps 0 chain (chain.short geometry)
    rw [written] at done
    cases done
    have chain' := chain.changes changes fun _ _ => not_mem_nil
    exact ⟨changes.rootCluster, entryStuck_changes
      (changes.mono (nil_subset _) (List.Subset.refl _)) (fun _ => chain.member_not_cyclic)
      (fun _ => chain'.member_not_cyclic) v.rootCluster, success⟩
  obtain ⟨⟨status, total, v'⟩, written⟩ : ∃ result,
      writeClusters (fun _ => true) data loopSteps v start 0 = some result := by
    obtain ⟨_, _, _, done, _⟩ := @writeClusters_changes v geometry (fun _ => true) data _ start
      loopSteps 0 chain (chain.short geometry)
    exact ⟨_, done⟩
  constructor
  · intro returns full
    obtain ⟨root, same, success⟩ := stuck written
    have returned := returns roomy []
    rw [writeData, roomy, written] at returned
    dsimp only at returned
    rw [success fun _ => rfl, if_pos (by decide), if_pos rfl, fat32WriteDirectoryEntry, if_pos rfl,
      root] at returned
    cases placed : writeEntryFrom v' (withSize [] total) loopSteps v.rootCluster with
    | none => simp [placed] at returned
    | some result =>
      refine (writeEntryFrom_isSome_iff v' (withSize [] total) v.rootCluster).mp ?_ (same.mpr full)
      rw [placed]
      rfl
  · intro notFull room stack
    obtain ⟨_, _, _, done, _⟩ := @writeClusters_changes v geometry room.data data _ start
      loopSteps 0 chain (chain.short geometry)
    obtain ⟨root, same, _⟩ := stuck done
    rw [writeData, done]
    dsimp only
    split
    · rw [if_pos rfl, root]
      obtain ⟨result, placed⟩ := Option.isSome_iff_exists.mp
        ((fat32WriteDirectoryEntry_returns_iff _ v.rootCluster _).mpr (mt same.mp notFull)
          room.update)
      rw [placed]
      rfl
    · rfl

/-- The end of the call returns unless the chain is there and the directory has no slot for
`entry`. -/
theorem finishNew_returns_iff (geometry : Geometry v) (proper : 2 ≤ start)
    (inside : start < v.fatEntries) (ends : chainEnd ≤ fat32GetFatEntry v start)
    (data : List UInt8) :
    (∀ room stack, (finishNew room stack v start data).isSome) ↔
      (clustersNeeded v data.length ≤ (freeClusters v).length + 1 →
        ¬ EntryStuck v v.rootCluster) := by
  have single : ChainOf v start [start] := by
    refine ⟨⟨rfl, ends⟩, fun cluster member => ?_⟩
    rw [mem_singleton] at member
    rw [member]
    exact ⟨proper, inside⟩
  have used : v.fatCache start ≠ 0 := single.used mem_cons_self
  obtain ⟨count, needed⟩ : ∃ count, clustersNeeded v data.length = count + 1 :=
    Nat.exists_eq_succ_of_ne_zero (Nat.ne_of_gt (clustersNeeded_pos v data.length))
  have success : ntSuccess statusSuccess = true := by decide
  unfold finishNew
  rw [needed, Nat.add_le_add_iff_right]
  by_cases enough : count ≤ (freeClusters v).length
  · obtain ⟨v', allocated, chain, changes⟩ :=
      fat32AllocateChain_eq geometry count proper inside used enough
    have before : ∀ cluster ∈ start :: (freeClusters v).take count, ¬ Cyclic v cluster := by
      intro cluster member
      rcases mem_cons.mp member with rfl | free
      · exact single.not_cyclic
      · exact not_cyclic_of_free (mem_freeClusters.mp (mem_of_mem_take free)).2
    have same : EntryStuck v' v'.rootCluster ↔ EntryStuck v v.rootCluster := by
      rw [changes.rootCluster]
      exact entryStuck_changes (changes.mono (List.Subset.refl _) (nil_subset _)) before
        (fun _ => chain.member_not_cyclic) v.rootCluster
    rw [allocated]
    simp only [success, if_true]
    rw [writeData_new_returns_iff (changes.geometry geometry) chain, same]
    exact (imp_iff_right enough).symm
  · refine iff_of_true (fun room stack => ?_) fun few => absurd few enough
    have full := fat32AllocateChain_full geometry count inside used (Nat.lt_of_not_le enough)
    dsimp only
    rw [full, if_neg Bool.false_ne_true]
    rfl

/-- A call for a new file goes round the root directory if that has no free slot, or if its
only one goes to the new entry: then there is none left for `entry`. -/
def CreateStuck (v : Volume) (name data : List UInt8) : Prop :=
  freeClusters v ≠ [] ∧ Cyclic v v.rootCluster ∧
    ((∀ slot, ¬ FreeSlot v v.rootCluster slot) ∨
      (clustersNeeded v data.length ≤ (freeClusters v).length ∧ (storedName name).headD 0 ≠ 0xE5 ∧
        ∃ only, ∀ slot, FreeSlot v v.rootCluster slot ↔ slot = only))

variable {name : List UInt8}

theorem newEntry_occupied_iff (cstring : ∀ c ∈ name, c ≠ 0) (start : Nat) :
    isFree ended deleted (newEntry name start) = false ↔
      (storedName name).headD 0 ≠ 0xE5 := by
  have marks := newEntry_mark cstring start
  rw [isFree, marks.1, Bool.false_or, ← Bool.not_eq_true, marks.2]

/-- The call for a new file, once its first cluster is marked as a chain. -/
def storeNew (room : WriteRoom) (stack : DirEntry) (v : Volume) (start : Nat)
    (name data : List UInt8) : Option WriteResult :=
  match fat32WriteDirectoryEntry room.create v v.rootCluster (newEntry name start) with
  | none => none
  | some (status, v) =>
      if ntSuccess status then finishNew room stack v start data else some ⟨status, none, v⟩

theorem createFile_marked (room : WriteRoom) (stack : DirEntry) (name data : List UInt8)
    {v₁ : Volume} (free : freeClusters v = start :: rest)
    (marked : (fat32SetFatEntry v start endOfChain).2 = v₁) :
    createFile room stack v name data = storeNew room stack v₁ start name data := by
  rw [createFile, fat32FindFreeCluster_eq, free]
  dsimp only
  rw [marked]
  rfl

theorem storeNew_returns_of_written (name data : List UInt8) {status : NtStatus} {v' : Volume}
    (written : writeEntryFrom v (newEntry name start) loopSteps v.rootCluster = some (status, v')) :
    (∀ room stack, (storeNew room stack v start name data).isSome) ↔
      (ntSuccess status = true → ∀ room stack, (finishNew room stack v' start data).isSome) := by
  unfold storeNew fat32WriteDirectoryEntry
  constructor
  · intro returns success room stack
    have returned := returns { room with create := true } stack
    dsimp only at returned
    rw [if_pos rfl, written] at returned
    dsimp only at returned
    rw [if_pos success] at returned
    exact returned
  · intro finishes room stack
    cases room.create with
    | false => rfl
    | true =>
      rw [if_pos rfl, written]
      dsimp only
      split
      · rename_i success
        exact finishes success room stack
      · rfl

/-- A new file is stored unless the root is a cycle with no free slot, or just one. -/
theorem storeNew_returns_iff (geometry : Geometry v) (proper : 2 ≤ start)
    (inside : start < v.fatEntries) (ends : chainEnd ≤ fat32GetFatEntry v start)
    (cstring : ∀ c ∈ name, c ≠ 0) (data : List UInt8) :
    (∀ room stack, (storeNew room stack v start name data).isSome) ↔
      ¬ (Cyclic v v.rootCluster ∧ ((∀ slot, ¬ FreeSlot v v.rootCluster slot) ∨
        (clustersNeeded v data.length ≤ (freeClusters v).length + 1 ∧
          (storedName name).headD 0 ≠ 0xE5 ∧
            ∃ only, ∀ slot, FreeSlot v v.rootCluster slot ↔ slot = only))) := by
  by_cases full : EntryStuck v v.rootCluster
  · refine iff_of_false (fun returns => ?_) fun notStuck =>
      notStuck ⟨full.1, .inl (entryStuck_iff.mp full).2⟩
    have returned := returns roomy []
    cases written : writeEntryFrom v (newEntry name start) loopSteps v.rootCluster with
    | none => simp [storeNew, fat32WriteDirectoryEntry, roomy, written] at returned
    | some result =>
      refine (writeEntryFrom_isSome_iff v (newEntry name start) v.rootCluster).mp ?_ full
      rw [written]
      rfl
  · obtain ⟨⟨status, v'⟩, written⟩ := Option.isSome_iff_exists.mp
      ((writeEntryFrom_isSome_iff v (newEntry name start) v.rootCluster).mpr full)
    rw [storeNew_returns_of_written name data written]
    rcases writeEntryFrom_cases geometry (newEntry_fields name start).1 loopSteps written with
      ⟨rfl, rfl, ending⟩ | ⟨rfl, placed, free, cache, changes, now⟩
    · exact iff_of_true (fun success => absurd success (by decide)) fun stuck => ending stuck.1
    have bytes : clustersNeeded v' data.length = clustersNeeded v data.length := by
      unfold clustersNeeded
      rw [changes.bytesPerCluster]
    rw [imp_iff_right (show ntSuccess statusSuccess = true by decide),
      finishNew_returns_iff (changes.geometry geometry) proper (changes.fatEntries ▸ inside)
        (by rw [changes.next not_mem_nil]; exact ends) data,
      freeClusters_congr changes.fatEntries cache, changes.rootCluster, bytes,
      entryStuck_placed changes free now, newEntry_occupied_iff cstring]
    constructor
    · rintro none ⟨cyclic, noSlot | ⟨enough, mark, only, unique⟩⟩
      · exact noSlot placed free
      · refine none enough ⟨cyclic, mark, fun slot other => ?_⟩
        rw [(unique slot).mp other, (unique placed).mp free]
    · rintro none enough ⟨cyclic, mark, only⟩
      refine none ⟨cyclic, .inr ⟨enough, mark, placed, fun slot => ⟨only slot, ?_⟩⟩⟩
      rintro rfl
      exact free

/-- A call for a new file returns, whatever the pool answers, unless one of its two writes to
the directory never ends. -/
theorem createFile_returns_iff (geometry : Geometry v)
    (cstring : ∀ c ∈ name, c ≠ 0) (data : List UInt8) :
    (∀ room stack, (createFile room stack v name data).isSome) ↔ ¬ CreateStuck v name data := by
  unfold CreateStuck
  cases free : freeClusters v with
  | nil =>
    refine iff_of_true (fun room stack => ?_) fun stuck => stuck.1 rfl
    rw [createFile, fat32FindFreeCluster_eq, free]
    rfl
  | cons start rest =>
    obtain ⟨v₁, marked, changes, left, used⟩ := markFirst geometry free
    obtain ⟨⟨proper, inside⟩, isFree⟩ := mem_freeClusters.mp (show start ∈ freeClusters v by
      rw [free]
      exact mem_cons_self)
    have ends : chainEnd ≤ fat32GetFatEntry v₁ start := by
      rw [fat32GetFatEntry_inside (changes.fatEntries ▸ inside), ← marked,
        fat32SetFatEntry_cache inside, endOfChain_mod.1, endOfChain_mod.1]
      exact endOfChain_mod.2.2
    have apart : Changes v v₁ [start] [start] :=
      changes.mono (List.Subset.refl _) (nil_subset _)
    have before : ∀ cluster ∈ [start], ¬ Cyclic v cluster := by
      intro cluster member
      rw [mem_singleton] at member
      exact member ▸ not_cyclic_of_free isFree
    have after : ∀ cluster ∈ [start], ¬ Cyclic v₁ cluster := by
      intro cluster member cyclic
      rw [mem_singleton] at member
      have low := (member ▸ cyclic).next.2
      omega
    have bytes : clustersNeeded v₁ data.length = clustersNeeded v data.length := by
      unfold clustersNeeded
      rw [changes.bytesPerCluster]
    simp only [fun room stack => createFile_marked room stack name data free marked]
    rw [storeNew_returns_iff (changes.geometry geometry) proper (changes.fatEntries ▸ inside) ends
      cstring data, left, changes.rootCluster, bytes,
      (cyclic_changes apart before after v.rootCluster).1, length_cons]
    refine not_congr (.trans (and_congr_right fun cyclic => ?_)
      (and_iff_right (cons_ne_nil start rest)).symm)
    simp only [freeSlot_changes apart before after cyclic]

end Create

theorem fat32SetFatEntry_bytesPerCluster (v : Volume) (cluster value : Nat) :
    (fat32SetFatEntry v cluster value).2.bytesPerCluster = v.bytesPerCluster := by
  unfold fat32SetFatEntry
  split <;> rfl

theorem fat32AllocateChain_bytesPerCluster (count : Nat) : ∀ (v : Volume) (cur : Nat),
    (fat32AllocateChain v cur count).2.bytesPerCluster = v.bytesPerCluster := by
  induction count with
  | zero => exact fun _ _ => rfl
  | succ count ih =>
    intro v cur
    cases count with
    | zero => exact fat32SetFatEntry_bytesPerCluster v cur endOfChain
    | succ count =>
      rw [fat32AllocateChain]
      cases fat32FindFreeCluster v with
      | error status => exact fat32SetFatEntry_bytesPerCluster v cur endOfChain
      | ok next =>
        dsimp only
        rw [ih, fat32SetFatEntry_bytesPerCluster, fat32SetFatEntry_bytesPerCluster]

theorem overwriteFile_isSome_iff (room : WriteRoom) (stack : DirEntry)
    (positive : 0 < v.bytesPerCluster) (entry : DirEntry) (small : data.length < 2 ^ 32) :
    (overwriteFile room stack v entry data).isSome ↔ ¬ Cyclic v entry.firstCluster := by
  rw [overwriteFile]
  by_cases improper : entry.firstCluster < 2
  · rw [if_pos improper]
    exact iff_of_true rfl fun cyclic => absurd cyclic.proper.1 (Nat.not_le.mpr improper)
  rw [if_neg improper, ← walkChain_isSome_iff v entry.firstCluster 0 0, extendChain]
  cases walkChain v loopSteps entry.firstCluster 0 0 with
  | none => rfl
  | some walked =>
    refine iff_of_true ?_ rfl
    dsimp only
    by_cases short : walked.1 < clustersNeeded v data.length
    · rw [if_pos short]
      dsimp only
      split
      · apply writeData_existing_isSome room stack _ entry.firstCluster small
        rw [fat32AllocateChain_bytesPerCluster]
        exact positive
      · rfl
    · rw [if_neg short]
      dsimp only
      rw [if_pos (by decide)]
      exact writeData_existing_isSome room stack positive entry.firstCluster small

/-- `Fat32WriteFile` returns unless its search, its walk along the file's chain or one of its
writes to the directory never ends. A search that gets no buffer makes a new file, too. -/
theorem fat32WriteFile_returns_iff (v : Volume) (geometry : Geometry v) {name : List UInt8}
    (cstring : ∀ c ∈ name, c ≠ 0) (small : data.length < 2 ^ 32) :
    (∀ room stack, (fat32WriteFile room stack v name data).isSome) ↔
      ¬ SearchStuck v v.rootCluster 64 ∧
        (∀ entry, Found v name entry → ¬ Cyclic v entry.firstCluster) ∧
          ¬ CreateStuck v name data := by
  have positive : 0 < v.bytesPerCluster := by
    rw [geometry.cluster]
    exact Nat.mul_pos geometry.positive (by decide)
  rw [← fat32FindEntry_returns_iff v v.rootCluster name, ← createFile_returns_iff geometry cstring]
  constructor
  · intro returns
    refine ⟨fun room => ?_, fun entry found => ?_, fun room stack => ?_⟩
    · have all := returns { roomy with find := room } []
      rw [fat32WriteFile, if_pos geometry.mounted] at all
      cases search : fat32FindEntry room v v.rootCluster name with
      | none => simp [search] at all
      | some result => rfl
    · have all := returns roomy []
      rw [fat32WriteFile_found geometry found, overwriteFile_isSome_iff roomy [] positive entry
        small] at all
      exact all
    · have all := returns { room with find := false } stack
      rw [fat32WriteFile, if_pos geometry.mounted] at all
      exact all
  · rintro ⟨searches, walks, creates⟩ room stack
    rw [fat32WriteFile, if_pos geometry.mounted]
    obtain ⟨result, search⟩ := Option.isSome_iff_exists.mp (searches room.find)
    rw [search]
    cases result with
    | error status => exact creates room stack
    | ok entry =>
      exact (overwriteFile_isSome_iff room stack positive entry small).mpr
        (walks entry (.of_search search))

/-- All calls return, whatever the pool answers. -/
structure CallsReturn (v : Volume) : Prop where
  readDirectory : ∀ room dir maxEntries, maxEntries < 2 ^ 32 →
    (fat32ReadDirectory room v dir maxEntries).isSome
  findEntry : ∀ room dir name, (fat32FindEntry room v dir name).isSome
  writeDirectoryEntry : ∀ room dir entry, (fat32WriteDirectoryEntry room v dir entry).isSome
  readFile : ∀ room name buffer bufsize, (fat32ReadFile room v name buffer bufsize).isSome
  writeFile : ∀ room stack name data, (∀ c ∈ name, c ≠ 0) → data.length < 2 ^ 32 →
    (fat32WriteFile room stack v name data).isSome
  deleteFile : ∀ room name, (fat32DeleteFile room v name).isSome

/-- When the calls return. Only those that write to the directory after the FAT ask how the
volume is laid out. -/
theorem fat32_calls_return_iff (v : Volume) (valid : v.valid = true) :
    (∀ dir maxEntries, maxEntries < 2 ^ 32 →
      ((∀ room, (fat32ReadDirectory room v dir maxEntries).isSome) ↔
        ¬ SearchStuck v dir maxEntries)) ∧
    (∀ dir name, (∀ room, (fat32FindEntry room v dir name).isSome) ↔ ¬ SearchStuck v dir 64) ∧
    (∀ dir entry, (∀ room, (fat32WriteDirectoryEntry room v dir entry).isSome) ↔
      ¬ EntryStuck v dir) ∧
    (∀ name buffer bufsize, (∀ room, (fat32ReadFile room v name buffer bufsize).isSome) ↔
      ¬ SearchStuck v v.rootCluster 64 ∧ ∀ entry, Found v name entry →
        ¬ ReadStuck v entry.firstCluster (min entry.fileSize bufsize)) ∧
    (Geometry v → ∀ name data, (∀ c ∈ name, c ≠ 0) → data.length < 2 ^ 32 →
      ((∀ room stack, (fat32WriteFile room stack v name data).isSome) ↔
        ¬ SearchStuck v v.rootCluster 64 ∧
          (∀ entry, Found v name entry → ¬ Cyclic v entry.firstCluster) ∧
            ¬ CreateStuck v name data)) ∧
    (Geometry v → ∀ name, (∀ room, (fat32DeleteFile room v name).isSome) ↔
      ¬ SearchStuck v v.rootCluster 64 ∧
        ∀ entry, Found v name entry → ¬ DeleteStuck v entry) :=
  ⟨fun dir _ small => fat32ReadDirectory_returns_iff v dir small,
    fat32FindEntry_returns_iff v, fat32WriteDirectoryEntry_returns_iff v,
    fat32ReadFile_returns_iff v valid,
    fun geometry _ _ cstring small => fat32WriteFile_returns_iff v geometry cstring small,
    fat32DeleteFile_returns_iff v⟩

/-- A root directory whose one cluster comes behind itself, with all entries deleted. -/
def roundVolume : Volume :=
  smallVolume 4 (fun cluster => if cluster = 2 then 2 else endOfChain)
    (fun index => if index % 32 = 0 then 0xE5 else 0)

theorem roundVolume_onChain {cluster : Nat} (onChain : OnChain roundVolume 2 cluster) :
    cluster = 2 := by
  obtain ⟨position, known⟩ := onChain
  induction position with
  | zero => exact (Option.some.inj known).symm
  | succ position ih => exact ih known

theorem roundVolume_cyclic : Cyclic roundVolume 2 := ⟨0, 1, 2, by decide, rfl, rfl⟩

theorem roundVolume_searchStuck : SearchStuck roundVolume 2 64 := by
  have deleted : ∀ slot ∈ clusterSlots roundVolume 2, slot.ended = false ∧ slot.deleted = true := by
    decide +kernel
  have none : liveSlots roundVolume 2 = [] := by
    apply filter_eq_nil_iff.mpr
    intro slot member
    rw [(deleted slot member).2]
    exact Bool.false_ne_true
  refine ⟨roundVolume_cyclic, fun cluster onChain slot member => ?_, fun clusters => ?_⟩
  · rw [roundVolume_onChain onChain] at member
    exact (deleted slot member).1
  · have nothing : livePassed roundVolume 2 clusters = 0 := by
      induction clusters with
      | zero => rfl
      | succ clusters ih =>
        rw [livePassed, none]
        exact (Nat.zero_add _).trans ih
    rw [nothing]
    decide

theorem roundVolume_slot : ¬ EntryStuck roundVolume 2 := by
  intro stuck
  have full := stuck.2 2 ⟨0, rfl⟩
  revert full
  unfold Full
  decide +kernel

/-- An entry finds a slot there, but no search ends. -/
theorem roundVolume_calls :
    (∀ entry room, (fat32WriteDirectoryEntry room roundVolume 2 entry).isSome) ∧
      ¬ (∀ room, (fat32ReadDirectory room roundVolume 2 64).isSome) ∧
      ¬ (∀ room stack, (fat32WriteFile room stack roundVolume [0x41] []).isSome) := by
  obtain ⟨directory, _, entries, _, writes, _⟩ := fat32_calls_return_iff roundVolume rfl
  refine ⟨fun entry => (entries 2 entry).mpr roundVolume_slot, fun returns => ?_, fun returns => ?_⟩
  · exact (directory 2 64 (by decide)).mp returns roundVolume_searchStuck
  · have cstring : ∀ c ∈ [(0x41 : UInt8)], c ≠ 0 := by simp
    exact ((writes (smallVolume_geometry (by decide) _ _) [0x41] [] cstring
      (Nat.two_pow_pos 32)).mp returns).1 roundVolume_searchStuck

theorem roundVolume_not_callsReturn : ¬ ∀ v, Geometry v → CallsReturn v := by
  intro all
  have returns := (all roundVolume (smallVolume_geometry (by decide) _ _)).readDirectory
  exact (fat32ReadDirectory_returns_iff roundVolume 2 (by decide)).mp
    (fun room => returns room 2 64 (by decide)) roundVolume_searchStuck

end MinNT.Fat32
