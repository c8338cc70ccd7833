import MinNT.Fs.Fat32Create

namespace MinNT.Fat32

open Chain List

/-- A step that takes free clusters at most: those in use stay in use, and only the entry of
`except` among them may change. -/
structure KeepsUsed (v v' : Volume) (except : Nat) : Prop where
  fatEntries : v'.fatEntries = v.fatEntries
  used : ∀ cluster, v.fatCache cluster ≠ 0 → v'.fatCache cluster ≠ 0
  same : ∀ cluster, v.fatCache cluster ≠ 0 → cluster ≠ except →
    v'.fatCache cluster = v.fatCache cluster

variable {v v' : Volume} {entry : DirEntry} {result : WriteResult}

theorem KeepsUsed.of_fatCache (entries : v'.fatEntries = v.fatEntries)
    (cache : v'.fatCache = v.fatCache) (except : Nat) : KeepsUsed v v' except :=
  ⟨entries, fun _ used => cache ▸ used, fun _ _ _ => congrFun cache _⟩

theorem KeepsUsed.set (v : Volume) (cluster : Nat) {value : Nat} (some : value % 2 ^ 28 ≠ 0) :
    KeepsUsed v (fat32SetFatEntry v cluster value).2 cluster where
  fatEntries := fat32SetFatEntry_fatEntries v cluster value
  used := by
    intro other used
    rcases Nat.lt_or_ge cluster v.fatEntries with inside | outside
    · by_cases same : other = cluster
      · rw [same, fat32SetFatEntry_cache inside]
        exact some
      · rw [fat32SetFatEntry_other same]
        exact used
    · rw [fat32SetFatEntry, if_pos outside]
      exact used
  same := fun _ _ different => fat32SetFatEntry_other different value

/-- Steps that change entries of clusters in turn, each of which was free before it but the
first. -/
theorem KeepsUsed.trans {v v' v'' : Volume} {except next : Nat} (first : KeepsUsed v v' except)
    (second : KeepsUsed v' v'' next) (free : v.fatCache next = 0 ∨ next = except) :
    KeepsUsed v v'' except where
  fatEntries := second.fatEntries.trans first.fatEntries
  used := fun cluster used => second.used cluster (first.used cluster used)
  same := by
    intro cluster used different
    have other : cluster ≠ next := by
      rintro rfl
      exact free.elim used different
    rw [second.same cluster (first.used cluster used) other, first.same cluster used different]

theorem fat32AllocateChain_keepsUsed (count : Nat) : ∀ {v : Volume} (cur : Nat),
    v.fatEntries ≤ 2 ^ 28 → KeepsUsed v (fat32AllocateChain v cur count).2 cur := by
  have ends : endOfChain % 2 ^ 28 ≠ 0 := endOfChain_mod.1.symm ▸ endOfChain_mod.2.1
  induction count with
  | zero => exact fun {v} cur _ => .of_fatCache rfl rfl cur
  | succ count ih =>
    intro v cur small
    cases count with
    | zero => exact .set v cur ends
    | succ count =>
      rw [fat32AllocateChain, fat32FindFreeCluster_eq]
      cases free : freeClusters v with
      | nil => exact .set v cur ends
      | cons next rest =>
        obtain ⟨inside, isFree⟩ := mem_freeClusters.mp (show next ∈ freeClusters v by
          rw [free]
          exact mem_cons_self)
        have nonzero : next % 2 ^ 28 ≠ 0 := by
          rw [Nat.mod_eq_of_lt (by omega)]
          omega
        have marked := KeepsUsed.set v next ends
        have hung := KeepsUsed.set (fat32SetFatEntry v next endOfChain).2 cur nonzero
        have entries := hung.fatEntries.trans marked.fatEntries
        have linked : KeepsUsed v (linked v cur next) cur := by
          refine ⟨entries, fun cluster used => hung.used cluster (marked.used cluster used),
            fun cluster used different => ?_⟩
          have other : cluster ≠ next := by
            rintro rfl
            exact used isFree
          rw [← marked.same cluster used other]
          exact hung.same cluster (marked.used cluster used) different
        exact linked.trans (ih next (entries.trans_le small)) (.inl isFree)

/-- A step that leaves the FAT in memory alone. -/
structure SameFat (v v' : Volume) : Prop where
  fatEntries : v'.fatEntries = v.fatEntries
  fatCache : v'.fatCache = v.fatCache

theorem SameFat.keepsUsed (same : SameFat v v') (except : Nat) : KeepsUsed v v' except :=
  .of_fatCache same.fatEntries same.fatCache except

theorem fat32WriteCluster_sameFat (v : Volume) (cluster : Nat) (bytes : List UInt8) :
    SameFat v (fat32WriteCluster v cluster bytes).2 := by
  unfold fat32WriteCluster
  split <;> exact ⟨rfl, rfl⟩

variable {v : Volume}

theorem writeEntryFrom_sameFat (fuel : Nat) :
    ∀ {cur : Nat} {status : NtStatus} {v' : Volume},
      writeEntryFrom v entry fuel cur = some (status, v') → SameFat v v' := by
  induction fuel with
  | zero => exact fun done => nomatch done
  | succ fuel ih =>
    intro cur status v' done
    rw [writeEntryFrom] at done
    split at done
    · split at done
      · cases done
        exact ⟨rfl, rfl⟩
      split at done
      · obtain ⟨_, rfl⟩ := Prod.mk.inj (Option.some.inj done)
        exact fat32WriteCluster_sameFat v cur _
      · dsimp only at done
        split at done
        · cases done
          exact ⟨rfl, rfl⟩
        · exact ih done
    · cases done
      exact ⟨rfl, rfl⟩

theorem fat32WriteDirectoryEntry_sameFat {room : Bool} {dir : Nat} {status : NtStatus}
    (done : fat32WriteDirectoryEntry room v dir entry = some (status, v')) : SameFat v v' := by
  rw [fat32WriteDirectoryEntry] at done
  split at done
  · exact writeEntryFrom_sameFat loopSteps done
  · cases done
    exact ⟨rfl, rfl⟩

theorem writeClusters_sameFat {room : Nat → Bool} {data : List UInt8} (fuel : Nat) :
    ∀ {v v' : Volume} {cur written total : Nat} {status : NtStatus},
      writeClusters room data fuel v cur written = some (status, total, v') →
        SameFat v v' ∧ status ≠ statusDiskFull := by
  induction fuel with
  | zero => exact fun done => nomatch done
  | succ fuel ih =>
    intro v v' cur written total status done
    rw [writeClusters] at done
    split at done
    · rename_i going
      split at done
      · dsimp only at done
        have first := fat32WriteCluster_sameFat v cur ((data.drop written).take
          (min (data.length - written) v.bytesPerCluster) ++ replicate
            (v.bytesPerCluster - min (data.length - written) v.bytesPerCluster) 0)
        split at done
        · split at done
          · cases done
            exact ⟨first, by decide⟩
          · obtain ⟨later, other⟩ := ih done
            exact ⟨⟨later.fatEntries.trans first.fatEntries,
              later.fatCache.trans first.fatCache⟩, other⟩
        · cases done
          refine ⟨first, ?_⟩
          rw [fat32WriteCluster, if_neg (Nat.not_lt.mpr going.2.1)]
          exact (by decide : statusSuccess ≠ statusDiskFull)
      · cases done
        exact ⟨⟨rfl, rfl⟩, by decide⟩
    · cases done
      exact ⟨⟨rfl, rfl⟩, by decide⟩

/-- Once the chain is there, the rest of a write leaves the FAT in memory alone, and does not
find the disk full if the file was there before. -/
theorem writeData_sameFat {room : WriteRoom} {stack : DirEntry} {isNew : Bool} {start : Nat}
    {data : List UInt8} (done : writeData room stack v isNew start data = some result) :
    SameFat v result.volume ∧ (isNew = false → result.status ≠ statusDiskFull) := by
  rw [writeData] at done
  cases written : writeClusters room.data data loopSteps v start 0 with
  | none => simp [written] at done
  | some all =>
    obtain ⟨status, total, v'⟩ := all
    obtain ⟨first, other⟩ := writeClusters_sameFat loopSteps written
    rw [written] at done
    dsimp only at done
    split at done
    · split at done
      · rename_i new
        cases placed : fat32WriteDirectoryEntry room.update v' v'.rootCluster
            (stack.withSize total) with
        | none => simp [placed] at done
        | some answer =>
          have later := fat32WriteDirectoryEntry_sameFat placed
          rw [placed] at done
          cases done
          refine ⟨⟨later.fatEntries.trans first.fatEntries,
            later.fatCache.trans first.fatCache⟩, fun old => ?_⟩
          rw [old] at new
          cases new
      · cases done
        exact ⟨first, fun _ => (by decide : statusSuccess ≠ statusDiskFull)⟩
    · cases done
      exact ⟨first, fun _ => other⟩

/-- What a call for a new file does to the FAT, however it ends: nothing if there is no free
cluster, and else the first free one is in use afterwards. -/
theorem createFile_keepsUsed {room : WriteRoom} {stack : DirEntry} {name data : List UInt8}
    (small : v.fatEntries ≤ 2 ^ 28) (done : createFile room stack v name data = some result) :
    (freeClusters v = [] ∧ result.volume = v) ∨
      ∃ start ∈ freeClusters v, KeepsUsed v result.volume start ∧
        result.volume.fatCache start ≠ 0 := by
  rw [createFile, fat32FindFreeCluster_eq] at done
  cases free : freeClusters v with
  | nil =>
    rw [free] at done
    cases done
    exact .inl ⟨rfl, rfl⟩
  | cons start rest =>
    rw [free] at done
    dsimp only at done
    obtain ⟨inside, isFree⟩ := mem_freeClusters.mp (show start ∈ freeClusters v by
      rw [free]
      exact mem_cons_self)
    have marked : KeepsUsed v (fat32SetFatEntry v start endOfChain).2 start :=
      .set v start (endOfChain_mod.1.symm ▸ endOfChain_mod.2.1)
    have taken : (fat32SetFatEntry v start endOfChain).2.fatCache start ≠ 0 := by
      rw [fat32SetFatEntry_cache inside.2, endOfChain_mod.1]
      exact endOfChain_mod.2.1
    refine .inr ⟨start, mem_cons_self, ?_⟩
    suffices later : KeepsUsed (fat32SetFatEntry v start endOfChain).2 result.volume start from
      ⟨marked.trans later (.inl isFree), later.used start taken⟩
    generalize (fat32SetFatEntry v start endOfChain).2 = v₁ at marked taken done ⊢
    cases placed : fat32WriteDirectoryEntry room.create v₁ v₁.rootCluster (newEntry name start) with
    | none => simp [placed] at done
    | some answer =>
      obtain ⟨status, v₂⟩ := answer
      have stored := (fat32WriteDirectoryEntry_sameFat placed).keepsUsed start
      have allocated := fat32AllocateChain_keepsUsed (clustersNeeded v₂ data.length) start
        ((stored.fatEntries.trans marked.fatEntries).trans_le small)
      have both := stored.trans allocated (.inr rfl)
      rw [placed] at done
      dsimp only at done
      split at done
      · split at done
        · exact both.trans ((writeData_sameFat done).1.keepsUsed start) (.inr rfl)
        · cases done
          exact both
      · cases done
        exact stored

/-- The clusters that a buffer needs. -/
def clustersFor (v : Volume) (size : Nat) : Nat :=
  (size + v.bytesPerCluster - 1) / v.bytesPerCluster

/-- The file has got a chain of `count` clusters, of which the first are the old ones, and all
of the buffer was written. -/
def Grows (entry : DirEntry) (cells : List Nat) (count size : Nat) (result : WriteResult) : Prop :=
  (∃ grown, ChainOf result.volume entry.firstCluster grown ∧ cells <+: grown ∧
    grown.length = count) ∧ result.bytesWritten = some size

theorem ChainOf.of_fatCache {start : Nat} {cells : List Nat}
    (chain : ChainOf v start cells) (entries : v'.fatEntries = v.fatEntries)
    (same : ∀ cluster ∈ cells, v'.fatCache cluster = v.fatCache cluster) :
    ChainOf v' start cells where
  linked := chain.linked.congr fun cluster member => by
    unfold fat32GetFatEntry
    rw [entries, same cluster member]
  inside := by
    rw [entries]
    exact chain.inside

theorem ChainOf.unique (numbers : v.fatEntries ≤ chainEnd) {start : Nat} {cells cells' : List Nat}
    (chain : ChainOf v start cells) (chain' : ChainOf v start cells') : cells = cells' := by
  have inner : ∀ {cells : List Nat}, ChainOf v start cells → ∀ cluster ∈ cells,
      ¬ chainEnd ≤ cluster := by
    intro cells chain cluster member
    have inside := (chain.inside cluster member).2
    omega
  exact chain.linked.unique chain'.linked (inner chain) (inner chain')

theorem clustersNeeded_cases (geometry : Geometry v) {size : Nat} (small : size < 2 ^ 32) :
    clustersNeeded v size = max 1 (clustersFor v size) ∨ clustersNeeded v size = 1 := by
  unfold clustersNeeded clustersFor
  rcases Nat.lt_or_ge (size + v.bytesPerCluster - 1) (2 ^ 32) with fits | wraps
  · exact .inl (by rw [Nat.mod_eq_of_lt fits])
  · right
    have large := geometry.bytesPerCluster_le
    rw [show size + v.bytesPerCluster - 1 = size + v.bytesPerCluster - 1 - 2 ^ 32 + 2 ^ 32 by omega,
      Nat.add_mod_right, Nat.mod_eq_of_lt (by omega), Nat.div_eq_of_lt (by omega), Nat.max_zero]

/-- A call for a file whose chain is too short for the buffer leaves a chain that is too short
as well: the count that the chain is extended by includes the cluster it already ends with. -/
theorem fat32WriteFile_too_short (geometry : Geometry v) {name data : List UInt8} {cells : List Nat}
    (found : Found v name entry) (chain : ChainOf v entry.firstCluster cells)
    (nonempty : cells ≠ []) (small : data.length < 2 ^ 32)
    (more : cells.length < clustersFor v data.length)
    (free : clustersFor v data.length - cells.length ≤ (freeClusters v).length) {room : WriteRoom}
    {stack : DirEntry} (done : fat32WriteFile room stack v name data = some result) :
    ∃ cells', ChainOf result.volume entry.firstCluster cells' ∧
      cells'.length ≠ clustersFor v data.length ∧ result.volume.fatEntries = v.fatEntries := by
  have positive : 0 < cells.length := length_pos_of_ne_nil nonempty
  rw [fat32WriteFile, if_pos geometry.mounted] at done
  cases memory : room.find with
  | false =>
    rw [memory] at done
    rcases createFile_keepsUsed (geometry.numbers.trans (by decide)) done with
      ⟨_, unchanged⟩ | ⟨start, free, kept, _⟩
    · exact ⟨cells, unchanged.symm ▸ chain, Nat.ne_of_lt more, unchanged ▸ rfl⟩
    · refine ⟨cells, chain.of_fatCache kept.fatEntries fun cluster member => ?_,
        Nat.ne_of_lt more, kept.fatEntries⟩
      apply kept.same cluster (chain.used member)
      rintro rfl
      exact chain.used member (mem_freeClusters.mp free).2
  | true =>
    have start : ¬ entry.firstCluster < 2 := by
      obtain ⟨first, rest, rfl⟩ := exists_cons_of_ne_nil nonempty
      have same : entry.firstCluster = first := chain.linked.1
      have inside := (chain.inside first mem_cons_self).1
      omega
    have count := clustersNeeded_cases geometry small
    obtain ⟨v₁, cells', extended, longer, _, _, changes, unchanged, grows⟩ :=
      extendChain_eq geometry chain nonempty (clustersNeeded v data.length) (by omega)
    rw [memory] at done
    rw [found] at done
    dsimp only at done
    rw [overwriteFile, if_neg start, extended] at done
    dsimp only at done
    rw [if_pos (by decide)] at done
    obtain ⟨same, _⟩ := writeData_sameFat done
    refine ⟨cells', longer.of_fatCache same.fatEntries fun cluster _ =>
      congrFun same.fatCache cluster, ?_, same.fatEntries.trans changes.fatEntries⟩
    rcases count with exact | wrapped
    · omega
    · have old := (unchanged (by omega)).1
      rw [old]
      omega

theorem not_grows (numbers : v.fatEntries ≤ chainEnd) {cells cells' : List Nat} {count size : Nat}
    (entries : result.volume.fatEntries = v.fatEntries)
    (chain : ChainOf result.volume entry.firstCluster cells') (other : cells'.length ≠ count) :
    ¬ Grows entry cells count size result := by
  rintro ⟨⟨grown, chain', _, length⟩, _⟩
  rw [← length, chain'.unique (entries ▸ numbers) chain] at other
  exact other rfl

/-- A file never gets the chain that a longer buffer needs, whatever the pool answers. -/
theorem fat32WriteFile_never_grows (v : Volume) (geometry : Geometry v) (name : List UInt8)
    (entry : DirEntry) (found : Found v name entry) (cells : List Nat)
    (chain : ChainOf v entry.firstCluster cells) (nonempty : cells ≠ []) (data : List UInt8)
    (small : data.length < 2 ^ 32) (more : cells.length < clustersFor v data.length)
    (free : clustersFor v data.length - cells.length ≤ (freeClusters v).length) (room : WriteRoom)
    (stack : DirEntry) :
    ¬ ∃ result, fat32WriteFile room stack v name data = some result ∧
      Grows entry cells (clustersFor v data.length) data.length result := by
  rintro ⟨result, done, grows⟩
  obtain ⟨cells', left, other, entries⟩ :=
    fat32WriteFile_too_short geometry found chain nonempty small more free done
  exact not_grows geometry.numbers entries left other grows

/-- The file `A` of one cluster on a volume with one free cluster. -/
def growVolume : Volume :=
  smallVolume 5 (fun cluster => if cluster = 4 then 0 else endOfChain)
    (fun index => entryA.getD index 0)

theorem growVolume_wellFormed : WellFormed growVolume [2] :=
  oneFile_wellFormed (by decide) (by decide) rfl rfl

theorem growVolume_found : Found growVolume [0x41] entryA :=
  (found_iff growVolume_wellFormed.geometry growVolume_wellFormed.chain).mpr (by decide +kernel)

theorem growVolume_file : FileChain growVolume [2] entryA [3] :=
  ⟨⟨⟨by decide, show chainEnd ≤ fat32GetFatEntry growVolume 3 by decide⟩, by decide⟩, by decide,
    by decide, by decide, by decide⟩

/-- A buffer of 513 bytes, which needs the free cluster. -/
def longData : List UInt8 := replicate 513 0x78

theorem longData_length : longData.length = 513 := length_replicate

theorem longData_needs : longData.length < 2 ^ 32 ∧
    [3].length < clustersFor growVolume longData.length ∧
    clustersFor growVolume longData.length - [3].length ≤ (freeClusters growVolume).length := by
  rw [longData_length]
  decide

/-- A file of one cluster, written with two. -/
theorem growVolume_never_grows :
    ¬ ∃ result, fat32WriteFile roomy [] growVolume [0x41] longData = some result ∧
      Grows entryA [3] (clustersFor growVolume longData.length) longData.length result :=
  fat32WriteFile_never_grows growVolume growVolume_wellFormed.geometry [0x41] entryA
    growVolume_found [3] growVolume_file.chain growVolume_file.nonempty longData longData_needs.1
    longData_needs.2.1 longData_needs.2.2 roomy []

theorem growVolume_not_grows :
    ¬ ∀ v root name entry cells (data : List UInt8) stack, WellFormed v root →
      Found v name entry → FileChain v root entry cells → data.length < 2 ^ 32 →
      cells.length < clustersFor v data.length →
      clustersFor v data.length - cells.length ≤ (freeClusters v).length →
      ∃ result, fat32WriteFile roomy stack v name data = some result ∧
        Grows entry cells (clustersFor v data.length) data.length result := by
  intro all
  obtain ⟨small, more, free⟩ := longData_needs
  obtain ⟨result, done, grows⟩ := all growVolume [2] [0x41] entryA [3] longData []
    growVolume_wellFormed growVolume_found growVolume_file small more free
  obtain ⟨cells', left, other, entries⟩ := fat32WriteFile_too_short growVolume_wellFormed.geometry
    growVolume_found growVolume_file.chain growVolume_file.nonempty small more free done
  exact not_grows growVolume_wellFormed.geometry.numbers entries left other grows

end MinNT.Fat32
