import MinNT.Fs.Fat32RoundTrip

/-! Writes over files in their own sizes, in runs of any length. -/

namespace MinNT.Fat32

open List

variable {v v' : Volume} {root clusters : List Nat} {entry : DirEntry} {name : List UInt8}

theorem Changes.symm {entries : List Nat} (changes : Changes v v' entries clusters) :
    Changes v' v entries clusters where
  mount := by
    obtain ⟨fatCache, disk, rfl⟩ := changes.mount
    exact ⟨v.fatCache, v.disk, rfl⟩
  fat := fun cluster outside => (changes.fat cluster outside).symm
  data := fun cluster proper outside => (changes.data cluster proper outside).symm

theorem FileChain.changes {cells : List Nat} (file : FileChain v root entry cells)
    (changes : Changes v v' [] clusters) : FileChain v' root entry cells where
  chain := file.chain.changes changes fun _ _ => not_mem_nil
  nonempty := file.nonempty
  apart := file.apart
  covers := by
    rw [changes.bytesPerCluster]
    exact file.covers
  bounded := by
    rw [changes.bytesPerCluster]
    exact file.bounded

/-- New data in clusters that the root directory does not have leave the volume well formed. -/
theorem WellFormed.changes (good : WellFormed v root) (changes : Changes v v' [] clusters)
    (outside : ∀ cluster ∈ root, cluster ∉ clusters) :
    WellFormed v' root ∧ ∀ name entry, Found v' name entry ↔ Found v name entry := by
  obtain ⟨chain, same, found⟩ := found_changes good.geometry good.chain changes
    fun cluster member => ⟨not_mem_nil, outside cluster member⟩
  refine ⟨⟨changes.geometry good.geometry, chain, ?_, ?_, ?_⟩, found⟩
  · rw [same]
    exact good.ends
  · intro name entry here
    rcases good.files name entry ((found name entry).mp here) with none | ⟨cells, file⟩
    · exact .inl none
    · exact .inr ⟨cells, file.changes changes⟩
  · intro name name' entry entry' cells cells' here here' different file file'
    exact good.apart name name' entry entry' cells cells' ((found name entry).mp here)
      ((found name' entry').mp here') different (file.changes changes.symm)
      (file'.changes changes.symm)

/-- The name leads to a file with clusters, as long as the data. -/
structure InPlace (v : Volume) (write : List UInt8 × List UInt8) : Prop where
  found : ∃ entry, Found v write.1 entry ∧ 2 ≤ entry.firstCluster ∧
    write.2.length = entry.fileSize
  noWrap : write.2.length + v.bytesPerCluster ≤ 2 ^ 32

/-- A read of the file gives the data, if there are some, and otherwise what it gave before. -/
def ReadsBack (v v' : Volume) (name : List UInt8) : Option (List UInt8) → Prop
  | some data => ∀ bufsize buffer, data.length ≤ bufsize → bufsize < 2 ^ 32 →
      ∃ after, readFile v' name buffer bufsize = some ⟨statusSuccess, data.length, after⟩ ∧
        after.read 0 data.length = data
  | none => ∀ bufsize buffer, readFile v' name buffer bufsize = readFile v name buffer bufsize

theorem ReadsBack.trans {v₁ : Volume} {last : Option (List UInt8)}
    (earlier : ReadsBack v v₁ name last) (later : ReadsBack v₁ v' name none) :
    ReadsBack v v' name last := by
  cases last with
  | none =>
    intro bufsize buffer
    rw [later bufsize buffer, earlier bufsize buffer]
  | some data =>
    intro bufsize buffer large small
    rw [later bufsize buffer]
    exact earlier bufsize buffer large small

theorem readFile_sameName {name' : List UInt8} (same : searchName name = searchName name')
    (buffer : ByteMemory) (bufsize : Nat) :
    readFile v name buffer bufsize = readFile v name' buffer bufsize := by
  unfold readFile fat32ReadFile fat32FindEntry
  rw [same]

/-- One write in place changes the one file. -/
theorem write_inPlace {write : List UInt8 × List UInt8} (good : WellFormed v root)
    (inPlace : InPlace v write) (stack : DirEntry) :
    ∃ v' written, fat32WriteFile roomy stack v write.1 write.2 =
        some ⟨statusSuccess, written, v'⟩ ∧
      WellFormed v' root ∧ (∀ name entry, Found v' name entry ↔ Found v name entry) ∧
      v'.bytesPerCluster = v.bytesPerCluster ∧ ∀ name entry, Found v name entry →
        ReadsBack v v' name
          (if searchName write.1 = searchName name then some write.2 else none) := by
  obtain ⟨entry, found, proper, size⟩ := inPlace.found
  rcases good.files write.1 entry found with none | ⟨cells, file⟩
  · omega
  have positive := good.geometry.bytesPerCluster_pos
  have noWrap := inPlace.noWrap
  have few := clustersNeeded_le good.geometry (show write.2.length < 2 ^ 32 by omega)
    (length_pos_iff.mpr file.nonempty) (size ▸ file.covers)
  obtain ⟨v', written, cells', done, _, sameSize, _, _, _, kept⟩ :=
    overwrite_effect good found file (Nat.le_trans few (Nat.le_add_right _ _)) stack
  obtain ⟨rfl, changes, _⟩ := kept few
  have next := good.changes changes fun cluster member own => file.apart cluster own member
  have reads := overwrite_reads good found file size noWrap stack _ done rfl
  refine ⟨v', written, done, next.1, next.2, sameSize, ?_⟩
  intro name other here
  by_cases same : searchName write.1 = searchName name
  · rw [if_pos same]
    intro bufsize buffer large small
    rw [← readFile_sameName same]
    exact reads.1 bufsize buffer large small
  · rw [if_neg same]
    exact reads.2 name other here fun again => same again.symm

/-- The volume behind a sequence of writes, if all of them succeed. -/
def writeFiles (stack : DirEntry) : Volume → List (List UInt8 × List UInt8) → Option Volume
  | v, [] => some v
  | v, write :: writes =>
      (fat32WriteFile roomy stack v write.1 write.2).bind fun result =>
        if result.status = statusSuccess then writeFiles stack result.volume writes else none

/-- What was written last under a name. -/
def lastWritten (name : List UInt8) : List (List UInt8 × List UInt8) → Option (List UInt8)
  | [] => none
  | write :: writes =>
      (lastWritten name writes).or
        (if searchName write.1 = searchName name then some write.2 else none)

/-- A volume under writes in place is a map from names to data: all of the writes succeed, and a
file reads back as it was written last, or as before if it was not written. -/
theorem writeFiles_refines (v : Volume) (root : List Nat) (good : WellFormed v root)
    (writes : List (List UInt8 × List UInt8)) (inPlace : ∀ write ∈ writes, InPlace v write)
    (stack : DirEntry) :
    ∃ v', writeFiles stack v writes = some v' ∧ WellFormed v' root ∧
      ∀ name entry, Found v name entry →
        Found v' name entry ∧ ReadsBack v v' name (lastWritten name writes) := by
  induction writes generalizing v with
  | nil => exact ⟨v, rfl, good, fun name entry found => ⟨found, fun _ _ => rfl⟩⟩
  | cons write writes ih =>
    obtain ⟨v₁, written, done, good₁, found₁, size₁, first⟩ :=
      write_inPlace good (inPlace write mem_cons_self) stack
    have inPlace₁ : ∀ other ∈ writes, InPlace v₁ other := by
      intro other member
      obtain ⟨⟨entry, here, proper, size⟩, noWrap⟩ :=
        inPlace other (mem_cons_of_mem _ member)
      exact ⟨⟨entry, (found₁ other.1 entry).mpr here, proper, size⟩, size₁.symm ▸ noWrap⟩
    obtain ⟨v', rest, good', later⟩ := ih v₁ good₁ inPlace₁
    refine ⟨v', ?_, good', ?_⟩
    · rw [writeFiles, done, Option.bind_some, if_pos rfl, rest]
    · intro name entry found
      obtain ⟨found', reads⟩ := later name entry ((found₁ name entry).mpr found)
      refine ⟨found', ?_⟩
      rw [lastWritten]
      cases last : lastWritten name writes with
      | none =>
        rw [last] at reads
        rw [Option.none_or]
        exact (first name entry found).trans reads
      | some data =>
        rw [last] at reads
        exact reads

/-- Two writes to the one file of a volume. -/
theorem writeFiles_oneFile : ∃ v', writeFiles entryA oneFileVolume
      [([0x41], [1, 2, 3, 4, 5]), ([0x61], [6, 7, 8, 9, 10])] = some v' ∧ WellFormed v' [2] ∧
    ∀ name entry, Found oneFileVolume name entry → Found v' name entry ∧
      ReadsBack oneFileVolume v' name
        (lastWritten name [([0x41], [1, 2, 3, 4, 5]), ([0x61], [6, 7, 8, 9, 10])]) := by
  have size : 5 = entryA.fileSize ∧ 2 ≤ entryA.firstCluster ∧
      5 + oneFileVolume.bytesPerCluster ≤ 2 ^ 32 := by
    decide +kernel
  have other : Found oneFileVolume [0x61] entryA :=
    (found_iff oneFileVolume_wellFormed.geometry oneFileVolume_wellFormed.chain).mpr
      (by decide +kernel)
  apply writeFiles_refines oneFileVolume [2] oneFileVolume_wellFormed
  intro write member
  rcases mem_pair.mp member with rfl | rfl
  · exact ⟨⟨entryA, oneFileVolume_found, size.2.1, size.1⟩, size.2.2⟩
  · exact ⟨⟨entryA, other, size.2.1, size.1⟩, size.2.2⟩

end MinNT.Fat32
