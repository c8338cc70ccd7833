import MinNT.Fs.Fat32Data
import MinNT.Fs.Fat32Delete

namespace MinNT.Fat32

open ByteMemory Chain SlotTable List

/-- No allocation of the call fails. -/
def roomy : WriteRoom := ⟨true, true, true, fun _ => true⟩

/-- `Fat32ReadFile`, with room for its buffers. -/
def readFile (v : Volume) (name : List UInt8) (buffer : ByteMemory) (bufsize : Nat) :
    Option ReadResult :=
  fat32ReadFile (fun _ => true) v name buffer bufsize

/-- What a successful write owes: the file reads back as it was written, and the
other files read as before. -/
def RoundTrips (v : Volume) (stack : DirEntry) (name data : List UInt8) : Prop :=
  ∀ result, fat32WriteFile roomy stack v name data = some result →
    result.status = statusSuccess →
    (∀ bufsize buffer, data.length ≤ bufsize → bufsize < 2 ^ 32 →
      ∃ after, readFile result.volume name buffer bufsize =
        some ⟨statusSuccess, data.length, after⟩ ∧ after.read 0 data.length = data) ∧
    ∀ name' entry', Found v name' entry' → searchName name' ≠ searchName name →
      ∀ bufsize buffer, readFile result.volume name' buffer bufsize =
        readFile v name' buffer bufsize

/-- What a read does when its search has found the file. The loop is a variable here, so that
nothing evaluates its `loopSteps` turns. -/
theorem readFound_eq (search : Option (Except NtStatus DirEntry))
    (loop : Nat → Nat → Nat → ByteMemory → Option ReadResult) (room : Bool) (buffer : ByteMemory)
    (bufsize : Nat) (entry : DirEntry) : search = some (.ok entry) → room = true →
    (match search with
      | none => none
      | some (.error status) => some ⟨status, 0, buffer⟩
      | some (.ok entry) =>
        if entry.fileSize = 0 then some ⟨statusSuccess, 0, buffer⟩
        else if entry.firstCluster < 2 then some ⟨statusInvalidParameter, 0, buffer⟩
        else if room then loop (min entry.fileSize bufsize) entry.firstCluster 0 buffer
        else some ⟨statusNoMemory, 0, buffer⟩) =
      if entry.fileSize = 0 then some ⟨statusSuccess, 0, buffer⟩
      else if entry.firstCluster < 2 then some ⟨statusInvalidParameter, 0, buffer⟩
      else loop (min entry.fileSize bufsize) entry.firstCluster 0 buffer := by
  rintro rfl rfl
  rfl

variable {v : Volume} {name : List UInt8}

theorem readFile_found (geometry : Geometry v) {entry : DirEntry}
    (found : Found v name entry) (buffer : ByteMemory) (bufsize : Nat) :
    readFile v name buffer bufsize =
      if entry.fileSize = 0 then some ⟨statusSuccess, 0, buffer⟩
      else if entry.firstCluster < 2 then some ⟨statusInvalidParameter, 0, buffer⟩
      else readClusters v (min entry.fileSize bufsize) loopSteps entry.firstCluster 0 buffer := by
  rw [readFile, fat32ReadFile, if_pos geometry.mounted]
  exact readFound_eq _ (fun size => readClusters v size loopSteps) _ buffer bufsize entry found rfl

theorem readFile_changes {v v' : Volume} {entries clusters : List Nat} (geometry : Geometry v)
    (changes : Changes v v' entries clusters) {entry : DirEntry} (found : Found v name entry)
    (found' : Found v' name entry)
    (file : entry.firstCluster < 2 ∨ ∃ cells, ChainOf v entry.firstCluster cells ∧
      ∀ cluster ∈ cells, cluster ∉ entries ∧ cluster ∉ clusters) (buffer : ByteMemory)
    (bufsize : Nat) : readFile v' name buffer bufsize = readFile v name buffer bufsize := by
  rw [readFile_found geometry found, readFile_found (changes.geometry geometry) found']
  rcases file with none | ⟨cells, chain, apart⟩
  · rw [if_pos none, if_pos none]
  · rw [readClusters_congr geometry changes chain (fun cluster member => (apart cluster member).1)
      (fun cluster member => (apart cluster member).2)]

theorem found_changes {v v' : Volume} {root entries clusters : List Nat} (geometry : Geometry v)
    (chain : ChainOf v v.rootCluster root) (changes : Changes v v' entries clusters)
    (apart : ∀ cluster ∈ root, cluster ∉ entries ∧ cluster ∉ clusters) :
    ChainOf v' v'.rootCluster root ∧ slots v' root = slots v root ∧
      ∀ name entry, Found v' name entry ↔ Found v name entry := by
  have chain' : ChainOf v' v'.rootCluster root := by
    rw [changes.rootCluster]
    exact chain.changes changes (fun cluster member => (apart cluster member).1)
  have same := slots_changes changes (fun cluster member => (chain.inside cluster member).1)
    (fun cluster member => (apart cluster member).2)
  refine ⟨chain', same, ?_⟩
  intro name entry
  rw [found_iff geometry chain, found_iff (changes.geometry geometry) chain', liveEntries, same]
  rfl

theorem fat32WriteFile_found (geometry : Geometry v)
    {entry : DirEntry} (found : Found v name entry) (stack : DirEntry) (data : List UInt8) :
    fat32WriteFile roomy stack v name data = overwriteFile roomy stack v entry data := by
  have search : fat32FindEntry roomy.find v v.rootCluster name = some (.ok entry) := found
  rw [fat32WriteFile, if_pos geometry.mounted, search]

theorem fat32WriteFile_absent {root : List Nat} (geometry : Geometry v)
    (chain : ChainOf v v.rootCluster root)
    (absent : lookup (liveEntries v root) (searchName name) = none) (stack : DirEntry)
    (data : List UInt8) :
    fat32WriteFile roomy stack v name data = createFile roomy stack v name data := by
  have search : fat32FindEntry roomy.find v v.rootCluster name =
      some (.error statusObjectNameNotFound) := by
    change fat32FindEntry true v v.rootCluster name = _
    rw [fat32FindEntry_eq geometry chain, absent]
  rw [fat32WriteFile, if_pos geometry.mounted, search]

/-- A chain is extended to one cluster less than needed. -/
theorem extendChain_eq (geometry : Geometry v) {start : Nat} {cells : List Nat}
    (chain : ChainOf v start cells) (nonempty : cells ≠ []) (needed : Nat)
    (enough : needed ≤ cells.length + (freeClusters v).length) :
    ∃ v' cells', extendChain v start needed = some (statusSuccess, v') ∧ ChainOf v' start cells' ∧
      cells <+: cells' ∧ (∀ cluster ∈ cells', cluster ∈ cells ∨ cluster ∈ freeClusters v) ∧
      Changes v v' cells' [] ∧ (needed ≤ cells.length → cells' = cells ∧ v' = v) ∧
      (cells.length < needed → cells'.length + 1 = needed) := by
  have numbers := geometry.numbers
  have once := chain.nodup geometry
  have bounded := length_le_of_nodup once (fun cluster member => (chain.inside cluster member).2)
  have end28 : chainEnd < 2 ^ 28 := by decide
  have walked := walkChain_eq geometry 0 0 chain (chain.short geometry) (by omega)
  obtain ⟨front, last, rfl⟩ : ∃ front last, cells = front ++ [last] := by
    rcases eq_nil_or_concat cells with none | ⟨front, last, shape⟩
    · exact absurd none nonempty
    · exact ⟨front, last, by rw [shape, concat_eq_append]⟩
  rw [Nat.zero_add, getLast?_concat, Option.getD_some] at walked
  rw [extendChain, walked]
  dsimp only
  by_cases short : (front ++ [last]).length < needed
  · have lastInside := chain.inside last (by simp)
    obtain ⟨extra, more⟩ : ∃ extra, needed - (front ++ [last]).length = extra + 1 :=
      ⟨needed - (front ++ [last]).length - 1, by omega⟩
    obtain ⟨v', done, behind, changes⟩ := fat32AllocateChain_eq geometry extra lastInside.1
      lastInside.2 (chain.used (by simp)) (show extra ≤ (freeClusters v).length by omega)
    rw [if_pos short, more]
    have usedFront : ∀ cluster ∈ front, cluster ∉ last :: (freeClusters v).take extra := by
      intro cluster member again
      rcases mem_cons.mp again with rfl | free
      · rw [nodup_append] at once
        exact once.2.2 cluster member cluster (mem_singleton_self _) rfl
      · have isFree := (mem_freeClusters.mp (mem_of_mem_take free)).2
        exact chain.used (mem_append_left _ member) isFree
    refine ⟨v', front ++ last :: (freeClusters v).take extra, congrArg some done, ⟨?_, ?_⟩,
      ⟨(freeClusters v).take extra, by simp⟩, ?_, changes.mono (subset_append_right _ _)
        (by simp), fun few => by omega, fun _ => ?_⟩
    · obtain ⟨middle, path, rest⟩ := linked_append.mp chain.linked
      obtain rfl : middle = last := rest.1
      exact linked_append.mpr ⟨middle, path.congr (fun cluster member =>
        changes.next (usedFront cluster member)), behind.linked⟩
    · intro cluster member
      rcases mem_append.mp member with early | late
      · rw [changes.fatEntries]
        exact chain.inside cluster (mem_append_left _ early)
      · exact behind.inside cluster late
    · intro cluster member
      rcases mem_append.mp member with early | late
      · exact .inl (mem_append_left _ early)
      · rcases mem_cons.mp late with rfl | free
        · exact .inl (by simp)
        · exact .inr (mem_of_mem_take free)
    · -- The count of clusters to allocate includes the last one of the old chain.
      rw [length_append, length_cons, length_take]
      rw [length_append, length_singleton] at enough more
      omega
  · rw [if_neg short]
    refine ⟨v, front ++ [last], rfl, chain, prefix_refl _, fun _ member => .inl member,
      .refl v _ _, fun _ => ⟨rfl, rfl⟩, fun long => absurd long short⟩

section Overwrite

variable {v : Volume} {root : List Nat} {name data : List UInt8} {entry : DirEntry}
  {cells : List Nat}

/-- Writing to an existing file succeeds. Its entry stays as it was, and if its
chain was long enough nothing changes but the data in it. -/
theorem overwrite_effect (good : WellFormed v root) (found : Found v name entry)
    (file : FileChain v root entry cells)
    (enough : clustersNeeded v data.length ≤ cells.length + (freeClusters v).length)
    (stack : DirEntry) :
    ∃ v' written cells', fat32WriteFile roomy stack v name data =
        some ⟨statusSuccess, written, v'⟩ ∧
      Geometry v' ∧ v'.bytesPerCluster = v.bytesPerCluster ∧ Found v' name entry ∧
      ChainOf v' entry.firstCluster cells' ∧ cells <+: cells' ∧
      (clustersNeeded v data.length ≤ cells.length → cells' = cells ∧ Changes v v' [] cells ∧
        (data.length ≤ cells.length * v.bytesPerCluster →
          (chainBytes v' cells).take data.length = data)) := by
  have start : ¬ entry.firstCluster < 2 := Nat.not_lt.mpr file.proper
  obtain ⟨v₁, cells', extended, chain, grown, origin, changes, unchanged, _⟩ :=
    extendChain_eq good.geometry file.chain file.nonempty _ enough
  have geometry := changes.geometry good.geometry
  obtain ⟨v', total, done, cache, changes', contents⟩ := writeClusters_eq geometry chain
    (chain.short geometry) (Nat.zero_le data.length)
  have apart : ∀ cluster ∈ root, cluster ∉ cells' := by
    intro cluster member again
    rcases origin cluster again with own | free
    · exact file.apart cluster own member
    · exact good.chain.used member (mem_freeClusters.mp free).2
  have both : Changes v v' cells' cells' :=
    (changes.mono (List.Subset.refl _) (by simp)).trans
      (changes'.mono (by simp) (List.Subset.refl _))
  have same := (found_changes good.geometry good.chain both
    (fun cluster member => ⟨apart cluster member, apart cluster member⟩)).2.2 name entry
  refine ⟨v', if total = 0 then none else some total, cells', ?_, both.geometry good.geometry,
    both.bytesPerCluster, same.mpr found,
    chain.changes changes' (fun _ _ => not_mem_nil), grown, ?_⟩
  · rw [fat32WriteFile_found good.geometry found, overwriteFile, if_neg start, extended]
    dsimp only
    rw [if_pos (by decide), writeData, show roomy.data = fun _ => true from rfl, done]
    rfl
  · intro few
    obtain ⟨rfl, rfl⟩ := unchanged few
    refine ⟨rfl, changes', ?_⟩
    intro fits
    simpa using (contents fits).2

theorem clustersNeeded_le (geometry : Geometry v) {size count : Nat} (small : size < 2 ^ 32)
    (positive : 0 < count) (fits : size ≤ count * v.bytesPerCluster) :
    clustersNeeded v size ≤ count := by
  have cluster := geometry.bytesPerCluster_pos
  unfold clustersNeeded
  apply Nat.max_le.mpr ⟨positive, ?_⟩
  by_cases wraps : size + v.bytesPerCluster - 1 < 2 ^ 32
  · rw [Nat.mod_eq_of_lt wraps]
    apply Nat.le_of_lt_succ
    rw [Nat.div_lt_iff_lt_mul cluster, Nat.succ_mul]
    omega
  · have little : (size + v.bytesPerCluster - 1) % 2 ^ 32 < v.bytesPerCluster := by omega
    rw [Nat.div_eq_of_lt little]
    exact Nat.zero_le _

theorem DirEntry.fileSize_lt (entry : DirEntry) : entry.fileSize < 2 ^ 32 := by
  have bound := decodeLE_lt ((entry.drop 28).take 4)
  have length : ((entry.drop 28).take 4).length ≤ 4 := by
    rw [length_take]
    omega
  have power : 256 ^ ((entry.drop 28).take 4).length ≤ 256 ^ 4 :=
    Nat.pow_le_pow_right (by decide) length
  unfold DirEntry.fileSize
  omega

theorem readFile_fits {v' : Volume} (geometry : Geometry v') (found : Found v' name entry)
    (chain : ChainOf v' entry.firstCluster cells) (proper : 2 ≤ entry.firstCluster)
    (covers : entry.fileSize ≤ cells.length * v'.bytesPerCluster) (buffer : ByteMemory)
    {bufsize : Nat} (noWrap : min entry.fileSize bufsize + v'.bytesPerCluster ≤ 2 ^ 32) :
    ∃ after, readFile v' name buffer bufsize =
        some ⟨statusSuccess, min entry.fileSize bufsize, after⟩ ∧
      after.read 0 (min entry.fileSize bufsize) =
        (chainBytes v' cells).take (min entry.fileSize bufsize) := by
  rw [readFile_found geometry found]
  by_cases empty : entry.fileSize = 0
  · refine ⟨buffer, ?_, ?_⟩
    · rw [if_pos empty, empty, Nat.zero_min]
    · rw [empty, Nat.zero_min, take_zero, read_zero]
  · obtain ⟨after, done, contents, _⟩ := readClusters_eq geometry buffer chain
      (chain.short geometry) (Nat.zero_le (min entry.fileSize bufsize)) noWrap (by omega)
    refine ⟨after, ?_, contents⟩
    rw [if_neg empty, if_neg (by omega)]
    exact done

theorem readFile_wraps {v' : Volume} (geometry : Geometry v') (found : Found v' name entry)
    (chain : ChainOf v' entry.firstCluster cells) (proper : 2 ≤ entry.firstCluster)
    (buffer : ByteMemory) {bufsize : Nat}
    (wraps : 2 ^ 32 < min entry.fileSize bufsize + v'.bytesPerCluster) :
    ∃ after, readFile v' name buffer bufsize =
      some ⟨statusSuccess, cells.length * v'.bytesPerCluster % 2 ^ 32, after⟩ := by
  have atMost := Nat.le_of_dvd (by decide) geometry.bytesPerCluster_dvd
  have nonempty : entry.fileSize ≠ 0 := by
    intro empty
    rw [empty, Nat.zero_min] at wraps
    omega
  obtain ⟨after, done⟩ := readClusters_wraps geometry buffer chain (chain.short geometry) wraps
    (show 0 < 2 ^ 32 by decide) (Nat.dvd_zero _)
  refine ⟨after, ?_⟩
  rw [readFile_found geometry found, if_neg nonempty, if_neg (by omega), done, Nat.zero_add]

theorem Geometry.bytesPerCluster_le (geometry : Geometry v) : v.bytesPerCluster ≤ 2 ^ 16 := by
  obtain ⟨shift, small, power⟩ := geometry.power
  have bound : 2 ^ shift ≤ 2 ^ 7 := Nat.pow_le_pow_right (by decide) small
  rw [geometry.cluster, power]
  omega

/-- An overwrite that reads back kept the size. -/
theorem overwrite_size (good : WellFormed v root) (found : Found v name entry)
    (file : FileChain v root entry cells) (small : data.length < 2 ^ 32)
    (enough : clustersNeeded v data.length ≤ cells.length + (freeClusters v).length)
    {stack : DirEntry} (roundTrips : RoundTrips v stack name data) :
    data.length = entry.fileSize ∧ data.length + v.bytesPerCluster ≤ 2 ^ 32 := by
  obtain ⟨v', written, cells', done, geometry, sameSize, found', chain, grown, kept⟩ :=
    overwrite_effect good found file enough stack
  have reads := (roundTrips _ done rfl).1
  have sizeBound := entry.fileSize_lt
  have clusterBound := geometry.bytesPerCluster_le
  have covers := file.covers
  have bounded := file.bounded
  rw [← sameSize] at covers bounded
  have longer : cells.length * v'.bytesPerCluster ≤ cells'.length * v'.bytesPerCluster :=
    Nat.mul_le_mul_right _ grown.length_le
  have proper := file.proper
  -- What a read of `bufsize` bytes reports is the length of the data.
  have fitting : ∀ bufsize, data.length ≤ bufsize → bufsize < 2 ^ 32 →
      min entry.fileSize bufsize + v'.bytesPerCluster ≤ 2 ^ 32 →
      min entry.fileSize bufsize = data.length := by
    intro bufsize large bufsizeBound noWrap
    obtain ⟨_, expected, _⟩ := reads bufsize (fun _ => 0) large bufsizeBound
    obtain ⟨_, result, _⟩ :=
      readFile_fits geometry found' chain proper (by omega) (fun _ => 0) noWrap
    rw [result, Option.some.injEq, ReadResult.mk.injEq] at expected
    exact expected.2.1
  have wrapping : ∀ bufsize, data.length ≤ bufsize → bufsize < 2 ^ 32 →
      2 ^ 32 < min entry.fileSize bufsize + v'.bytesPerCluster →
      cells'.length * v'.bytesPerCluster % 2 ^ 32 = data.length := by
    intro bufsize large bufsizeBound wraps
    obtain ⟨_, expected, _⟩ := reads bufsize (fun _ => 0) large bufsizeBound
    obtain ⟨_, result⟩ := readFile_wraps geometry found' chain proper (fun _ => 0) wraps
    rw [result, Option.some.injEq, ReadResult.mk.injEq] at expected
    exact expected.2.1
  have noWrap : min entry.fileSize data.length + v'.bytesPerCluster ≤ 2 ^ 32 := by
    by_contra wraps
    have total := wrapping data.length (Nat.le_refl _) small (by omega)
    have whole : v'.bytesPerCluster ∣ data.length := by
      rw [← total]
      exact (Nat.dvd_mod_iff geometry.bytesPerCluster_dvd).mpr (Nat.dvd_mul_left _ _)
    have room := geometry.room small whole
    omega
  have atLeast := fitting data.length (Nat.le_refl _) small noWrap
  rw [sameSize] at noWrap
  refine ⟨?_, by omega⟩
  by_contra different
  -- The file is larger than the data: one byte more is read.
  by_cases wraps : min entry.fileSize (data.length + 1) + v'.bytesPerCluster ≤ 2 ^ 32
  · have more := fitting (data.length + 1) (by omega) (by omega) wraps
    omega
  have total := wrapping (data.length + 1) (by omega) (by omega) (by omega)
  have few := clustersNeeded_le good.geometry small
    (length_pos_iff.mpr file.nonempty) (show data.length ≤ cells.length * v.bytesPerCluster by
      rw [sameSize] at covers
      omega)
  obtain ⟨rfl, _⟩ := kept few
  by_cases exactly : cells'.length * v'.bytesPerCluster < 2 ^ 32
  · omega
  · have all : cells'.length * v'.bytesPerCluster = 2 ^ 32 := by omega
    rw [all, Nat.mod_self] at total
    omega

/-- An overwrite of the same size reads back. -/
theorem overwrite_reads (good : WellFormed v root) (found : Found v name entry)
    (file : FileChain v root entry cells) (size : data.length = entry.fileSize)
    (noWrap : data.length + v.bytesPerCluster ≤ 2 ^ 32) (stack : DirEntry) :
    RoundTrips v stack name data := by
  have small : data.length < 2 ^ 32 := by
    have positive := good.geometry.bytesPerCluster_pos
    omega
  have covers := file.covers
  have few := clustersNeeded_le good.geometry small (length_pos_iff.mpr file.nonempty)
    (size ▸ covers)
  obtain ⟨v', written, cells', done, geometry, sameSize, found', chain, grown, kept⟩ :=
    overwrite_effect good found file (Nat.le_trans few (Nat.le_add_right _ _)) stack
  obtain ⟨rfl, changes, contents⟩ := kept few
  intro result call _
  rw [done] at call
  cases call
  have proper := file.proper
  constructor
  · intro bufsize buffer large _
    have all : min entry.fileSize bufsize = data.length := by omega
    have read := readFile_fits geometry found' chain proper (by rwa [sameSize]) buffer
      (show min entry.fileSize bufsize + v'.bytesPerCluster ≤ 2 ^ 32 by
        rw [all, sameSize]
        exact noWrap)
    rw [all, contents (by omega)] at read
    exact read
  · intro name' entry' found'' different bufsize buffer
    have same := (found_changes good.geometry good.chain changes (fun cluster member =>
      ⟨not_mem_nil, fun own => file.apart cluster own member⟩)).2.2 name' entry'
    apply readFile_changes good.geometry changes found'' (same.mpr found'')
    rcases good.files name' entry' found'' with none | ⟨others, file'⟩
    · exact .inl none
    · refine .inr ⟨others, file'.chain, fun cluster member => ⟨not_mem_nil, ?_⟩⟩
      exact good.apart name' name entry' entry others cells' found'' found different file' file
        cluster member

theorem overwrite_refused (good : WellFormed v root) (found : Found v name entry)
    (noCluster : entry.firstCluster < 2) (stack : DirEntry) : RoundTrips v stack name data := by
  intro result call success
  rw [fat32WriteFile_found good.geometry found, overwriteFile, if_pos noCluster] at call
  cases call
  have refused : statusInvalidParameter ≠ statusSuccess := by decide
  exact absurd success refused

end Overwrite

end MinNT.Fat32
