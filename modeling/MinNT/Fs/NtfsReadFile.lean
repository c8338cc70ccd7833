import MinNT.Fs.NtfsRuns

namespace MinNT.Ntfs

open List MappingPair ByteMemory

theorem ntfsDecodeDataRun_end {memory : ByteMemory} {p : Nat} (zero : memory p = 0) :
    ntfsDecodeDataRun memory p = none := by
  rw [ntfsDecodeDataRun, if_pos zero]

/-- Of an encoded list the loop of `NtfsReadFile` goes through the runs that were encoded exactly
if every length is readable and every offset that is left adds up to the one that is meant. -/
theorem dataRuns_iff {pairs : List MappingPair} {prevLcn prevLength : Nat}
    (legal : Legal prevLcn pairs) {memory : ByteMemory} {p fuel : Nat}
    (held : memory.read p (encode prevLcn pairs).length = encode prevLcn pairs)
    (enough : pairs.length < fuel) :
    dataRuns fuel memory p ((prevLcn + prevLength) % 2 ^ 64) = some (pairs.map run) ↔
      Decodable prevLcn prevLength pairs := by
  induction pairs generalizing prevLcn prevLength p fuel with
  | nil =>
    obtain ⟨fuel, rfl⟩ : ∃ less, fuel = less + 1 := ⟨fuel - 1, by omega⟩
    have zero : memory p = 0 := by simpa [ByteMemory.read, encode] using held
    rw [dataRuns, ntfsDecodeDataRun_end zero]
    exact iff_of_true rfl trivial
  | cons pair pairs ih =>
    obtain ⟨fuel, rfl⟩ : ∃ less, fuel = less + 1 := ⟨fuel - 1, by omega⟩
    obtain ⟨first, rest⟩ := legal
    rw [encode, length_append, read_append] at held
    obtain ⟨here, behind⟩ := append_inj held (read_length _ _ _)
    have decoded := ntfsDecodeDataRun_eq (first.fields here).1 first.offsetSome
      first.offsetBytes_le first.lengthSome first.lengthBytes_le
    obtain ⟨readable, shifted⟩ := first.found (load_lt memory pair.offsetBytes (p + 1))
      (first.split here)
    rw [dataRuns, decoded]
    rw [pair.encode_length] at behind
    have place : p + 1 + pair.offsetBytes + pair.lengthBytes =
        p + (1 + (pair.lengthBytes + pair.offsetBytes)) := by omega
    have offset_lt : load memory pair.lengthBytes (p + 1 + pair.offsetBytes) < 2 ^ 64 :=
      Nat.lt_of_lt_of_le (load_lt _ _ _)
        (Nat.pow_le_pow_right (show 0 < 256 by omega) first.lengthBytes_le)
    have offset_le := TwosComplement.value_le pair.lengthBytes
      (load memory pair.lengthBytes (p + 1 + pair.offsetBytes))
    have lcn_lt := first.lcn_lt
    have next : dataRuns fuel memory (p + (1 + (pair.lengthBytes + pair.offsetBytes)))
        ((pair.lcn + pair.length) % 2 ^ 64) = some (pairs.map run) ↔
        Decodable pair.lcn pair.length pairs :=
      ih rest behind (Nat.lt_of_succ_lt_succ enough)
    dsimp only
    rw [place, first_run _ _ (by omega), Option.map_eq_some_iff, map_cons]
    generalize load memory pair.offsetBytes (p + 1) = length at *
    generalize load memory pair.lengthBytes (p + 1 + pair.offsetBytes) = offset at *
    constructor
    · rintro ⟨tail, found, same⟩
      obtain ⟨head, rfl⟩ := List.cons.inj same
      obtain ⟨lcn, sameLength⟩ := DataRun.mk.inj head
      have isReadable := readable.mp sameLength
      rw [lcn, sameLength] at found
      refine ⟨isReadable, ?_, next.mp found⟩
      rw [← shifted isReadable, delta]
      omega
    · rintro ⟨isReadable, divides, later⟩
      have lcn : ((prevLcn + prevLength) % 2 ^ 64 +
          (max (TwosComplement.value pair.lengthBytes offset) 0).toNat) % 2 ^ 64 = pair.lcn := by
        rw [← shifted isReadable, delta] at divides
        omega
      refine ⟨pairs.map run, ?_, ?_⟩
      · rw [lcn, readable.mpr isReadable]
        exact next.mpr later
      · rw [lcn, readable.mpr isReadable]
        rfl

/-- What the loop of `NtfsReadFile` uses of an `NTFS_MOUNT`. -/
structure NtfsMount where
  partitionStart : Nat
  bytesPerSector : Nat
  bytesPerCluster : Nat

/-- The disk and the pool: what a command that reads sectors puts into a buffer, whether the pool
has a block, and what a fresh block holds. -/
structure Machine where
  readSectors : Nat → Nat → Except NtStatus ByteMemory
  allocates : Nat → Bool
  fresh : ByteMemory

/-- `ExAllocatePool` gives a block; it refuses an empty one. -/
def exAllocatePool (machine : Machine) (size : Nat) : Bool := size ≠ 0 && machine.allocates size

/-- `AhciReadSectors`, which reads 256 sectors where more are asked for. -/
def ahciReadSectors (machine : Machine) (lba count : Nat) : Except NtStatus ByteMemory :=
  machine.readSectors lba (if count > 256 then 256 else count)

def ntfsReadSectors (machine : Machine) (lba count : Nat) : Except NtStatus ByteMemory :=
  if count = 0 then .ok machine.fresh else ahciReadSectors machine lba count

/-- The loop of `NtfsReadFile` over the runs of a non-resident attribute; `copied` is what the
buffer holds so far. -/
def readRuns (machine : Machine) (mount : NtfsMount) (bufsize : Nat) :
    Nat → ByteMemory → Nat → Nat → List UInt8 → Option (Except NtStatus (List UInt8))
  | 0, _, _, _, _ => none
  | fuel + 1, memory, runs, prevLcn, copied =>
      if ¬ copied.length < bufsize then some (.ok copied)
      else
        match ntfsDecodeDataRun memory runs with
        | none => some (.ok copied)
        | some (run, next) =>
            let prevLcn := if prevLcn = 0 then run.lcn else (prevLcn + run.lcn) % 2 ^ 64
            let runBytes := run.length * mount.bytesPerCluster % 2 ^ 64
            let toRead := min (bufsize - copied.length) runBytes
            let lba := (mount.partitionStart +
              prevLcn * mount.bytesPerCluster % 2 ^ 64 / mount.bytesPerSector) % 2 ^ 64
            -- the sum is cut to a `ULONG` in front of the division
            let numSectors :=
              (toRead + mount.bytesPerSector - 1) % 2 ^ 32 / mount.bytesPerSector
            if ¬ exAllocatePool machine (numSectors * mount.bytesPerSector % 2 ^ 32) then
              some (.error statusNoMemory)
            else
              match ntfsReadSectors machine lba numSectors with
              | .error status => some (.error status)
              | .ok clusterBuf =>
                  readRuns machine mount bufsize fuel memory next
                    ((prevLcn + run.length) % 2 ^ 64) (copied ++ clusterBuf.read 0 toRead)

/-- Clusters of whole sectors. -/
structure NtfsMount.Whole (mount : NtfsMount) : Prop where
  sector : 0 < mount.bytesPerSector
  clusters : mount.bytesPerSector ∣ mount.bytesPerCluster

/-- A disk whose bytes are `disk`, by commands of up to 256 sectors, and pool memory for every
buffer. -/
structure Volume (machine : Machine) (mount : NtfsMount) (disk : ByteMemory) : Prop where
  allocates : ∀ size, machine.allocates size = true
  reads : ∀ lba, ∀ count ≤ 256, ∃ buffer, machine.readSectors lba count = .ok buffer ∧
    buffer.read 0 (count * mount.bytesPerSector) =
      disk.read (lba * mount.bytesPerSector) (count * mount.bytesPerSector)

/-- The clusters of a run lie where 64-bit numbers reach. -/
structure DataRun.Addressed (run : DataRun) (mount : NtfsMount) : Prop where
  bytes : run.length * mount.bytesPerCluster < 2 ^ 64
  start : run.lcn * mount.bytesPerCluster < 2 ^ 64
  sector : mount.partitionStart + run.lcn * mount.bytesPerCluster / mount.bytesPerSector < 2 ^ 64

/-- The bytes of the clusters of a run. -/
def DataRun.clusters (run : DataRun) (mount : NtfsMount) (disk : ByteMemory) : List UInt8 :=
  disk.read (mount.partitionStart * mount.bytesPerSector + run.lcn * mount.bytesPerCluster)
    (run.length * mount.bytesPerCluster)

/-- Up to `left` bytes, no run is empty, and what is taken of a run fits into one command. -/
def OneCommandEach (mount : NtfsMount) : Nat → List DataRun → Prop
  | _, [] => True
  | left, run :: runs =>
      left = 0 ∨ (0 < run.length * mount.bytesPerCluster ∧
        min left (run.length * mount.bytesPerCluster) ≤ 256 * mount.bytesPerSector ∧
        OneCommandEach mount (left - min left (run.length * mount.bytesPerCluster)) runs)

theorem read_take (memory : ByteMemory) {address count whole : Nat} (inside : count ≤ whole) :
    (memory.read address whole).take count = memory.read address count := by
  obtain ⟨rest, rfl⟩ := Nat.exists_eq_add_of_le inside
  rw [read_append, take_left' (read_length _ _ _)]

theorem take_append_min {α : Type} (copied piece rest : List α) (size : Nat) :
    (copied ++ piece.take (min (size - copied.length) piece.length) ++ rest).take size =
      (copied ++ (piece ++ rest)).take size := by
  by_cases fits : piece.length ≤ size - copied.length
  · rw [Nat.min_eq_right fits, List.take_length, append_assoc]
  · have cut : min (size - copied.length) piece.length = size - copied.length := by omega
    have none : size - copied.length - piece.length = 0 := by omega
    rw [cut]
    simp only [append_assoc, take_append, take_take, length_take, Nat.min_self,
      cut, none, Nat.sub_self, take_zero]

section Turn

variable {machine : Machine} {mount : NtfsMount} {disk memory : ByteMemory}
  {bufsize fuel p prevLcn lcn length next : Nat} {copied : List UInt8}

/-- The sectors that cover what is read of a run. -/
theorem sectors_cover (whole : mount.Whole) {toRead : Nat} (some : 0 < toRead)
    (small : toRead + mount.bytesPerSector ≤ 2 ^ 32) :
    ∃ numSectors, (toRead + mount.bytesPerSector - 1) % 2 ^ 32 / mount.bytesPerSector = numSectors ∧
      0 < numSectors ∧ numSectors * mount.bytesPerSector % 2 ^ 32 ≠ 0 ∧
      toRead ≤ numSectors * mount.bytesPerSector ∧
      (numSectors ≤ 256 ↔ toRead ≤ 256 * mount.bytesPerSector) := by
  have sector := whole.sector
  have less := Nat.lt_mul_div_succ (toRead + mount.bytesPerSector - 1) sector
  have most := Nat.div_mul_le_self (toRead + mount.bytesPerSector - 1) mount.bytesPerSector
  rw [Nat.mul_add, Nat.mul_comm] at less
  refine ⟨_, rfl, ?_⟩
  rw [Nat.mod_eq_of_lt (show toRead + mount.bytesPerSector - 1 < 2 ^ 32 by omega)]
  have few : (toRead + mount.bytesPerSector - 1) / mount.bytesPerSector ≤ 256 ↔
      toRead ≤ 256 * mount.bytesPerSector := by
    rw [← Nat.lt_succ_iff, Nat.div_lt_iff_lt_mul sector, Nat.succ_mul]
    omega
  have positive : 0 < (toRead + mount.bytesPerSector - 1) / mount.bytesPerSector :=
    Nat.div_pos (by omega) sector
  refine ⟨positive, ?_, by omega, few⟩
  rw [Nat.mod_eq_of_lt (by omega)]
  omega

/-- A turn of the loop on a run without bytes. -/
theorem readRuns_empty (unfinished : copied.length < bufsize) {run : DataRun}
    (found : ntfsDecodeDataRun memory p = some (run, next))
    (empty : run.length * mount.bytesPerCluster = 0) (small : mount.bytesPerSector ≤ 2 ^ 32) :
    readRuns machine mount bufsize (fuel + 1) memory p prevLcn copied =
      some (.error statusNoMemory) := by
  have none : (0 + mount.bytesPerSector - 1) % 2 ^ 32 / mount.bytesPerSector = 0 := by
    rcases Nat.eq_zero_or_pos mount.bytesPerSector with zero | sector
    · rw [zero]
      rfl
    · exact Nat.div_eq_of_lt (Nat.lt_of_le_of_lt (Nat.mod_le _ _) (by omega))
  simp only [readRuns, not_not.mpr unfinished, found, empty, Nat.zero_mod, Nat.min_zero, none,
    Nat.zero_mul, exAllocatePool, if_false]
  rfl

/-- A turn of the loop on a run with bytes. -/
theorem readRuns_turn (whole : mount.Whole) (allocates : ∀ size, machine.allocates size = true)
    (unfinished : copied.length < bufsize) {run : DataRun}
    (found : ntfsDecodeDataRun memory p = some (run, next))
    (start : (if prevLcn = 0 then run.lcn else (prevLcn + run.lcn) % 2 ^ 64) = lcn)
    (addressed : DataRun.Addressed ⟨lcn, run.length⟩ mount)
    (some' : 0 < run.length * mount.bytesPerCluster)
    (small : bufsize + mount.bytesPerSector ≤ 2 ^ 32) :
    ∃ numSectors, min (bufsize - copied.length) (run.length * mount.bytesPerCluster) ≤
        numSectors * mount.bytesPerSector ∧
      (numSectors ≤ 256 ↔ min (bufsize - copied.length) (run.length * mount.bytesPerCluster) ≤
        256 * mount.bytesPerSector) ∧
      ∀ buffer, ahciReadSectors machine
          (mount.partitionStart + lcn * mount.bytesPerCluster / mount.bytesPerSector) numSectors =
            .ok buffer →
        readRuns machine mount bufsize (fuel + 1) memory p prevLcn copied =
          readRuns machine mount bufsize fuel memory next ((lcn + run.length) % 2 ^ 64)
            (copied ++ buffer.read 0
              (min (bufsize - copied.length) (run.length * mount.bytesPerCluster))) := by
  obtain ⟨bytes, address, sector⟩ := addressed
  dsimp only at bytes address sector
  obtain ⟨numSectors, count, positive, block, covers, few⟩ := sectors_cover whole
    (show 0 < min (bufsize - copied.length) (run.length * mount.bytesPerCluster) by omega)
    (by omega)
  have allocated : exAllocatePool machine (numSectors * mount.bytesPerSector % 2 ^ 32) = true := by
    rw [exAllocatePool, allocates, Bool.and_true, decide_eq_true block]
  refine ⟨numSectors, covers, few, fun buffer done => ?_⟩
  rw [readRuns, if_neg (not_not.mpr unfinished), found]
  dsimp only
  rw [start, Nat.mod_eq_of_lt bytes, Nat.mod_eq_of_lt address, Nat.mod_eq_of_lt sector, count,
    if_neg (not_not.mpr allocated), ntfsReadSectors, if_neg (Nat.ne_of_gt positive), done]

end Turn

/-- The loop reads the clusters of the runs that it goes through, up to the size of the buffer. -/
theorem Volume.readRuns {machine : Machine} {mount : NtfsMount} {disk : ByteMemory}
    (volume : Volume machine mount disk) (whole : mount.Whole) {bufsize : Nat}
    (small : bufsize + mount.bytesPerSector ≤ 2 ^ 32) {fuel : Nat} {memory : ByteMemory}
    {p prevLcn : Nat} {runs : List DataRun} {copied : List UInt8}
    (decoded : dataRuns fuel memory p prevLcn = some runs)
    (addressed : ∀ run ∈ runs, run.Addressed mount)
    (each : OneCommandEach mount (bufsize - copied.length) runs) (room : copied.length ≤ bufsize) :
    readRuns machine mount bufsize fuel memory p prevLcn copied =
      some (.ok ((copied ++ runs.flatMap (·.clusters mount disk)).take bufsize)) := by
  induction fuel generalizing p prevLcn runs copied with
  | zero => cases decoded
  | succ fuel ih =>
    by_cases unfinished : copied.length < bufsize
    · rw [dataRuns] at decoded
      cases found : ntfsDecodeDataRun memory p with
      | none =>
        rw [found] at decoded
        cases decoded
        rw [Ntfs.readRuns, if_neg (not_not.mpr unfinished), found]
        simp only [flatMap_nil, append_nil, take_of_length_le room]
      | some result =>
        obtain ⟨run, next⟩ := result
        rw [found] at decoded
        dsimp only at decoded
        generalize start : (if prevLcn = 0 then run.lcn else (prevLcn + run.lcn) % 2 ^ 64) =
          lcn at decoded
        obtain ⟨rest, later, rfl⟩ := Option.map_eq_some_iff.mp decoded
        obtain ⟨bytes, few, each⟩ := each.resolve_left (by omega)
        dsimp only at bytes few each
        have here := addressed _ mem_cons_self
        obtain ⟨numSectors, covers, fits, turn⟩ :=
          @readRuns_turn _ _ memory _ fuel _ _ _ _ _ whole volume.allocates unfinished _ found
            start here bytes small
        obtain ⟨buffer, done, content⟩ := volume.reads (mount.partitionStart +
          lcn * mount.bytesPerCluster / mount.bytesPerSector) numSectors (fits.mpr few)
        have clamped : ahciReadSectors machine (mount.partitionStart +
            lcn * mount.bytesPerCluster / mount.bytesPerSector) numSectors = .ok buffer := by
          rw [ahciReadSectors, if_neg (Nat.not_lt.mpr (fits.mpr few)), done]
        have aligned : lcn * mount.bytesPerCluster / mount.bytesPerSector *
            mount.bytesPerSector = lcn * mount.bytesPerCluster :=
          Nat.div_mul_cancel (Dvd.dvd.mul_left whole.clusters lcn)
        have piece : (DataRun.clusters ⟨lcn, run.length⟩ mount disk).length =
            run.length * mount.bytesPerCluster := read_length _ _ _
        have taken := congrArg (List.take
          (min (bufsize - copied.length) (run.length * mount.bytesPerCluster))) content
        rw [read_take _ covers, read_take _ covers, Nat.add_mul, aligned] at taken
        rw [turn buffer clamped, taken, ih later (fun other member => addressed other
          (mem_cons_of_mem _ member)) (by
            rw [length_append, read_length, Nat.sub_add_eq]
            exact each) (by
            rw [length_append, read_length]
            omega), ← read_take disk (Nat.min_le_right _ _), flatMap_cons,
          ← take_append_min copied (DataRun.clusters ⟨lcn, run.length⟩ mount disk), piece]
        rfl
    · rw [Ntfs.readRuns, if_pos unfinished, take_append_of_le_length (by omega),
        take_of_length_le room]

/-- An empty disk, and a pool whose blocks hold ones. -/
def emptyMachine (mount : NtfsMount) : Machine where
  readSectors := fun _ count =>
    .ok fun index => if index < count * mount.bytesPerSector then 0 else 1
  allocates := fun _ => true
  fresh := fun _ => 1

theorem emptyMachine_volume (mount : NtfsMount) :
    Volume (emptyMachine mount) mount fun _ => 0 where
  allocates := fun _ => rfl
  reads := by
    intro lba count _
    refine ⟨_, rfl, map_congr_left fun index member => ?_⟩
    rw [Nat.zero_add]
    exact if_pos (mem_range.mp member)

/-- What the loop has copied stays in front of what it copies. -/
theorem readRuns_prefix {machine : Machine} {mount : NtfsMount} {bufsize : Nat}
    {memory : ByteMemory} {result : List UInt8} (fuel : Nat) :
    ∀ {p prevLcn : Nat} {copied : List UInt8},
      readRuns machine mount bufsize fuel memory p prevLcn copied = some (.ok result) →
        copied <+: result := by
  induction fuel with
  | zero => exact fun done => nomatch done
  | succ fuel ih =>
    intro p prevLcn copied done
    rw [readRuns] at done
    split at done
    · cases done
      exact prefix_rfl
    split at done
    · cases done
      exact prefix_rfl
    · dsimp only at done
      split at done
      · cases done
      · split at done
        · cases done
        · exact (prefix_append _ _).trans (ih done)

/-- Where the loop reads an empty disk as such, it sends one command for each run. -/
theorem oneCommandEach_of_zeros {mount : NtfsMount} (whole : mount.Whole) {bufsize : Nat}
    (small : bufsize + mount.bytesPerSector ≤ 2 ^ 32) {memory : ByteMemory} {result : List UInt8}
    (zeros : ∀ byte ∈ result, byte = 0) (fuel : Nat) :
    ∀ {p prevLcn : Nat} {runs : List DataRun} {copied : List UInt8},
      dataRuns fuel memory p prevLcn = some runs → (∀ run ∈ runs, run.Addressed mount) →
      readRuns (emptyMachine mount) mount bufsize fuel memory p prevLcn copied =
        some (.ok result) →
      OneCommandEach mount (bufsize - copied.length) runs := by
  induction fuel with
  | zero => exact fun decoded => nomatch decoded
  | succ fuel ih =>
    intro p prevLcn runs copied decoded addressed done
    rw [dataRuns] at decoded
    cases found : ntfsDecodeDataRun memory p with
    | none =>
      rw [found] at decoded
      cases decoded
      trivial
    | some next =>
      obtain ⟨run, next⟩ := next
      rw [found] at decoded
      dsimp only at decoded
      generalize start : (if prevLcn = 0 then run.lcn else (prevLcn + run.lcn) % 2 ^ 64) =
        lcn at decoded
      obtain ⟨rest, later, rfl⟩ := Option.map_eq_some_iff.mp decoded
      by_cases unfinished : copied.length < bufsize
      · refine .inr ?_
        dsimp only
        have bytes : 0 < run.length * mount.bytesPerCluster := by
          apply Nat.pos_of_ne_zero
          intro empty
          rw [readRuns_empty unfinished found empty (by omega)] at done
          cases done
        obtain ⟨numSectors, covers, fits, turn⟩ :=
          @readRuns_turn (emptyMachine mount) _ memory _ fuel _ _ _ _ _ whole (fun _ => rfl)
            unfinished _ found start (addressed _ mem_cons_self) bytes small
        rw [turn _ rfl] at done
        have few : numSectors ≤ 256 := by
          by_contra more
          -- the last byte of the piece is behind the sectors that are read
          have behind := zeros 1 (( readRuns_prefix fuel done).subset (mem_append_right _
            (List.mem_map.mpr ⟨min (bufsize - copied.length)
              (run.length * mount.bytesPerCluster) - 1, by
                rw [mem_range]
                omega, ?_⟩)))
          · cases behind
          · rw [if_pos (Nat.not_le.mp more), Nat.zero_add]
            exact if_neg (by omega)
        refine ⟨bytes, fits.mp few, ?_⟩
        have next := ih later (fun other member => addressed other (mem_cons_of_mem _ member)) done
        rwa [length_append, read_length, Nat.sub_add_eq] at next
      · exact .inl (Nat.sub_eq_zero_of_le (Nat.le_of_not_lt unfinished))

/-- On every disk the loop of `NtfsReadFile` finds exactly the runs, and brings their clusters in
file order, up to the size of the buffer. -/
structure ReadsInOrder (mount : NtfsMount) (bufsize fuel : Nat) (memory : ByteMemory) (p : Nat)
    (runs : List DataRun) : Prop where
  found : dataRuns fuel memory p 0 = some runs
  reads : ∀ machine disk, Volume machine mount disk →
    readRuns machine mount bufsize fuel memory p 0 [] =
      some (.ok ((runs.flatMap (·.clusters mount disk)).take bufsize))

/-- For every list of runs in any legal widths, `ntfs.c` finds exactly these runs if and only if
every length is readable and every offset that is left adds up to the one that is meant; reading
then brings the clusters in file order if and only if no run that is read is empty or takes more
than one command. -/
theorem ntfs_run_list {pairs : List MappingPair} (legal : Legal 0 pairs) {memory : ByteMemory}
    {p fuel : Nat} (held : memory.read p (encode 0 pairs).length = encode 0 pairs)
    (enough : pairs.length < fuel) :
    (dataRuns fuel memory p 0 = some (pairs.map run) ↔ Decodable 0 0 pairs) ∧
      ∀ mount bufsize, mount.Whole → (∀ pair ∈ pairs, pair.run.Addressed mount) →
        bufsize + mount.bytesPerSector ≤ 2 ^ 32 →
        (ReadsInOrder mount bufsize fuel memory p (pairs.map run) ↔
          Decodable 0 0 pairs ∧
            OneCommandEach mount bufsize (pairs.map run)) := by
  have found : dataRuns fuel memory p 0 = some (pairs.map run) ↔ Decodable 0 0 pairs :=
    @dataRuns_iff pairs 0 0 legal memory p fuel held enough
  refine ⟨found, fun mount bufsize whole addressed small => ⟨fun inOrder => ?_, ?_⟩⟩
  · refine ⟨found.mp inOrder.found, ?_⟩
    have zeros : ∀ byte ∈ ((pairs.map run).flatMap
        (·.clusters mount fun _ => 0)).take bufsize, byte = 0 := by
      intro byte member
      obtain ⟨run, _, inside⟩ := mem_flatMap.mp (mem_of_mem_take member)
      obtain ⟨_, _, same⟩ := List.mem_map.mp inside
      exact same.symm
    exact oneCommandEach_of_zeros whole small zeros fuel inOrder.found
      (forall_mem_map.mpr addressed) (inOrder.reads _ _ (emptyMachine_volume mount))
  · rintro ⟨decodable, each⟩
    refine ⟨found.mpr decodable, fun machine disk volume => ?_⟩
    exact @Volume.readRuns _ _ _ volume whole _ small _ _ _ _ _ [] (found.mpr decodable)
      (forall_mem_map.mpr addressed) each (Nat.zero_le bufsize)

/-- A list of runs in memory. -/
def placed (pairs : List MappingPair) : ByteMemory := fun index => (encode 0 pairs).getD index 0

/-- A disk in sectors of 512 bytes that holds `disk`. -/
def diskMachine (disk : ByteMemory) : Machine where
  readSectors := fun lba _ => .ok fun index => disk (lba * 512 + index)
  allocates := fun _ => true
  fresh := fun _ => 0

def volumeMount : NtfsMount := ⟨2048, 512, 4096⟩

theorem volumeMount_whole : volumeMount.Whole := ⟨by decide, by decide⟩

theorem diskMachine_volume (disk : ByteMemory) :
    Volume (diskMachine disk) volumeMount disk where
  allocates := fun _ => rfl
  reads := by
    intro lba count _
    refine ⟨_, rfl, ?_⟩
    unfold ByteMemory.read
    simp only [volumeMount, Nat.zero_add]

/-- The length of the first run makes up for what the decoder takes from the second offset. -/
def luckyRuns : List MappingPair := [⟨255, 16, 1, 1⟩, ⟨3, 272, 1, 2⟩]

/-- Two runs whose starts come out right. -/
theorem ntfs_run_list_lucky :
    dataRuns 3 (placed luckyRuns) 0 0 = some [⟨16, 255⟩, ⟨272, 3⟩] ∧
      ∀ disk, readRuns (diskMachine disk) volumeMount 8192 3 (placed luckyRuns) 0 0 [] =
        some (.ok (([⟨16, 255⟩, ⟨272, 3⟩] : List DataRun).flatMap
          (·.clusters volumeMount disk) |>.take 8192)) := by
  have legal : Legal 0 luckyRuns := by
    refine ⟨⟨?_, ?_, ?_, ?_, ?_, ?_, ?_, ?_⟩, ⟨?_, ?_, ?_, ?_, ?_, ?_, ?_, ?_⟩, trivial⟩ <;> decide
  have decodable : Decodable 0 0 luckyRuns := by
    refine ⟨?_, ?_, ?_, ?_, trivial⟩ <;> decide
  have held : (placed luckyRuns).read 0 (encode 0 luckyRuns).length = encode 0 luckyRuns := by
    decide
  obtain ⟨found, inOrder⟩ := @ntfs_run_list luckyRuns legal (placed luckyRuns) 0 3 held (by decide)
  have addressed : ∀ pair ∈ luckyRuns, pair.run.Addressed volumeMount := by
    intro pair member
    rcases mem_cons.mp member with rfl | member
    · exact ⟨by decide, by decide, by decide⟩
    · rw [mem_singleton.mp member]
      exact ⟨by decide, by decide, by decide⟩
  have each : OneCommandEach volumeMount 8192 (luckyRuns.map run) :=
    .inr ⟨by decide, by decide, .inl (Nat.sub_eq_zero_of_le (le_min (Nat.le_refl _) (by decide)))⟩
  have exact' := (inOrder volumeMount 8192 volumeMount_whole addressed (by decide)).mpr
    ⟨decodable, each⟩
  exact ⟨found.mpr decodable, fun disk => exact'.reads _ disk (diskMachine_volume disk)⟩

/-- One run of four clusters at 0x1234, with one byte for the length and two for the offset:
the decoder finds a run of 0x3404 clusters at 0x12. -/
theorem not_ntfs_run_list : Legal 0 [⟨4, 0x1234, 1, 2⟩] ∧
    dataRuns 2 (placed [⟨4, 0x1234, 1, 2⟩]) 0 0 = some [⟨0x12, 0x3404⟩] ∧
    dataRuns 2 (placed [⟨4, 0x1234, 1, 2⟩]) 0 0 ≠ some ([⟨4, 0x1234, 1, 2⟩].map run) := by
  refine ⟨⟨⟨?_, ?_, ?_, ?_, ?_, ?_, ?_, ?_⟩, trivial⟩, ?_, ?_⟩ <;> decide

end MinNT.Ntfs
