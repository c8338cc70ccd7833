import MinNT.Fs.RamDiskNames
import MinNT.Lib.WriteLog

namespace MinNT.Fs

open List ByteMemory WriteLog

/-- `sizeof(FILE_DIRECTORY_INFORMATION)`. -/
def directoryInformationSize : Nat := 56

/-- Offset of `FileName` in it. -/
def fileNameOffset : Nat := 48

/-- The `UNICODE_STRING` of a request: `Length` in bytes, and `Buffer`. -/
structure FilterName where
  length : Nat
  buffer : Nat → UInt16

/-- `RtlEqualUnicodeString` of the filter and the name of an entry. -/
def FilterName.matches (filter : FilterName) (name : WideString) : Bool :=
  filter.length == 2 * name.length && equalNames ((List.range name.length).map filter.buffer) name

/-- The filter of a request, if it has one that counts. -/
def activeFilter (fileName : Option FilterName) : Option FilterName :=
  fileName.filter fun filter => filter.length > 0

/-- The stores to the fields of one entry of the answer. -/
def directoryInformation (offset next fileIndex endOfFile : Nat) (name : WideString) : List Write :=
  [bytes offset (encodeLE 4 next), bytes (offset + 4) (encodeLE 4 fileIndex),
    zeros (offset + 8) 8, zeros (offset + 16) 8, zeros (offset + 24) 8, zeros (offset + 32) 8,
    bytes (offset + 40) (encodeLE 4 endOfFile),
    bytes (offset + 44) (encodeLE 4 (2 * name.length)),
    bytes (offset + fileNameOffset) (wideBytes name)]

/-- The answer so far: the writes to the caller's buffer, the locals, and where the
entries are that `entriesReturned` counts. -/
structure Listing where
  writes : List Write
  bytesUsed : Nat
  found : Bool
  returned : List Nat

def dotName : WideString := [wideDot, 0, 0]
def dotDotName : WideString := [wideDot, wideDot, 0, 0]

/-- `NextEntryOffset` of `.`. -/
def dotDotOffset : Nat := directoryInformationSize + 2 * 3

/-- `bytesUsed` behind the two dot entries. -/
def dotEntriesSize : Nat := dotDotOffset + (directoryInformationSize + 2 * 4)

/-- The two dot entries, which are written without a look at `Length`. -/
def dotEntries (length : Nat) : Listing :=
  { writes := [zeros 0 length] ++ directoryInformation 0 dotDotOffset 0 0 dotName ++
      [zeros dotDotOffset (subtract32 length dotDotOffset)] ++
      directoryInformation dotDotOffset 0 1 0 dotDotName
    bytesUsed := dotEntriesSize
    found := true
    returned := [0, dotDotOffset] }

/-- `entrySize`: a multiple of 8. -/
def entrySize (name : WideString) : Nat :=
  (directoryInformationSize + 2 * name.length + 7) / 8 * 8

/-- One entry of the directory put behind the others. -/
def Listing.add (listing : Listing) (disk : RamDisk) (slot : Nat) (returnSingleEntry : Bool) :
    Listing :=
  let size := entrySize (entryName disk slot)
  { writes := listing.writes ++ [zeros listing.bytesUsed size] ++
      directoryInformation listing.bytesUsed (if returnSingleEntry then 0 else size) slot
        (fileSize disk slot) (entryName disk slot)
    bytesUsed := listing.bytesUsed + size
    found := true
    returned := listing.returned ++ [listing.bytesUsed] }

/-- The answer when the next entry does not fit. -/
def Listing.full (listing : Listing) (returnSingleEntry : Bool) : Listing :=
  if returnSingleEntry && listing.found then
    { listing with writes := listing.writes ++ [bytes 0 (encodeLE 4 0)] }
  else listing

/-- The entry is neither deleted nor the volume label, and passes the filter. -/
def listedSlot (disk : RamDisk) (filter : Option FilterName) (slot : Nat) : Bool :=
  firstNameByte disk slot ≠ 0xE5 &&
    disk.memory (dirEntry disk slot + 11) &&& fat16AttrVolumeId == 0 &&
    filter.all fun filter => filter.matches (entryName disk slot)

/-- The scan of the root directory, over the slots that are left. -/
def scanDirectory (disk : RamDisk) (length : Nat) (returnSingleEntry : Bool)
    (filter : Option FilterName) : List Nat → Listing → Listing
  | [], listing => listing
  | slot :: slots, listing =>
      if firstNameByte disk slot = 0 then listing
      else if listedSlot disk filter slot then
        if (listing.bytesUsed + entrySize (entryName disk slot)) % 2 ^ 32 > length then
          listing.full returnSingleEntry
        else if returnSingleEntry then listing.add disk slot returnSingleEntry
        else
          scanDirectory disk length returnSingleEntry filter slots
            (listing.add disk slot returnSingleEntry)
      else scanDirectory disk length returnSingleEntry filter slots listing

/-- What the caller gets: the status block, the writes to the buffer, and where the
returned entries are in it. -/
structure DirectoryAnswer where
  ioStatus : IoStatus
  writes : List Write
  returned : List Nat

/-- `NtQueryDirectoryFile` with a status block; `fileInformation` tells whether there is
a buffer. -/
def ntQueryDirectoryFile (disk : RamDisk) (fileInformation : Bool) (length : Nat)
    (returnSingleEntry : Bool) (fileName : Option FilterName) : DirectoryAnswer :=
  if !fileInformation || length == 0 then ⟨⟨statusInvalidParameter, 0⟩, [], []⟩
  else
    let filter := activeFilter fileName
    let start :=
      if filter.isNone then dotEntries length else ⟨[zeros 0 length], 0, false, []⟩
    let listing := scanDirectory disk length returnSingleEntry filter (List.range rootEntryCount)
      start
    if listing.found then
      ⟨⟨statusSuccess, listing.bytesUsed⟩, listing.writes, listing.returned⟩
    else ⟨⟨statusNoSuchFile, 0⟩, listing.writes, listing.returned⟩

/-- From `offset` on, the `NextEntryOffset` fields lead through the entries, and the
last of them is 0. -/
def Visits (memory : ByteMemory) : Nat → List Nat → Prop
  | _, [] => False
  | offset, [last] => offset = last ∧ memory.load 4 offset = 0
  | offset, entry :: next :: entries =>
      offset = entry ∧ memory.load 4 offset ≠ 0 ∧
        Visits memory (offset + memory.load 4 offset) (next :: entries)

/-- An answer a caller can walk through, written inside the buffer. -/
def WellFormed (answer : DirectoryAnswer) (memory : ByteMemory) (length : Nat) : Prop :=
  answer.ioStatus.status = statusSuccess →
    Visits (replay memory answer.writes) 0 answer.returned ∧ Within length answer.writes

/-- The slots among some that a request lists, up to the end mark. -/
def listedAmong (disk : RamDisk) (filter : Option FilterName) (slots : List Nat) : List Nat :=
  (slots.takeWhile (fun slot => firstNameByte disk slot ≠ 0)).filter (listedSlot disk filter)

/-- The slots a request lists. -/
def listedSlots (disk : RamDisk) (filter : Option FilterName) : List Nat :=
  listedAmong disk filter (List.range rootEntryCount)

/-- The first slot of a request, if there is one, and whether there is room for it
behind `used` bytes. -/
def FirstFits (disk : RamDisk) (length used : Nat) (filter : Option FilterName) : Prop :=
  ∃ slot, (listedSlots disk filter).head? = some slot ∧
    used + entrySize (entryName disk slot) ≤ length

/-- With a filter: one entry is asked for, or none is returned. Without one: the dot
entries have room and stay alone, and the link of the first is not cut. -/
def ListingCovered (disk : RamDisk) (fileInformation : Bool) (length : Nat)
    (returnSingleEntry : Bool) (fileName : Option FilterName) : Prop :=
  if !fileInformation || length == 0 then True
  else
    match activeFilter fileName with
    | some filter => returnSingleEntry = true ∨ ¬ FirstFits disk length 0 (some filter)
    | none =>
        dotDotOffset + fileNameOffset + 2 * 4 ≤ length ∧
          ¬ FirstFits disk length dotEntriesSize none ∧
          (returnSingleEntry = true → listedSlots disk none = [])

theorem untilBlank_length_le (bytes : List UInt8) : (untilBlank bytes).length ≤ bytes.length := by
  rw [untilBlank, length_map]
  exact ( takeWhile_prefix _).length_le

theorem entryName_length_le (disk : RamDisk) (slot : Nat) : (entryName disk slot).length ≤ 12 := by
  have name := untilBlank_length_le (disk.memory.read (dirEntry disk slot) 8)
  have ext := untilBlank_length_le (disk.memory.read (dirEntry disk slot + 8) 3)
  rw [read_length] at name ext
  unfold entryName
  dsimp only
  split
  · omega
  · rw [length_append, length_cons]
    omega

theorem entrySize_bounds (disk : RamDisk) (slot : Nat) :
    fileNameOffset + 2 * (entryName disk slot).length ≤ entrySize (entryName disk slot) ∧
      0 < entrySize (entryName disk slot) ∧ entrySize (entryName disk slot) ≤ 80 := by
  have length := entryName_length_le disk slot
  simp only [entrySize, directoryInformationSize, fileNameOffset]
  omega

theorem directoryInformation_range (offset next fileIndex endOfFile : Nat) (name : WideString) :
    ∀ write ∈ directoryInformation offset next fileIndex endOfFile name,
      offset ≤ write.offset ∧
        write.offset + write.count ≤ offset + fileNameOffset + 2 * name.length := by
  intro write member
  simp only [directoryInformation, mem_cons, not_mem_nil, or_false] at member
  rcases member with rfl | rfl | rfl | rfl | rfl | rfl | rfl | rfl | rfl <;>
    simp only [bytes, zeros, encodeLE_length, wideBytes_length, fileNameOffset] <;>
    omega

theorem directoryInformation_link (memory : ByteMemory) (offset next fileIndex endOfFile : Nat)
    (name : WideString) (small : next < 2 ^ 32) :
    (replay memory (directoryInformation offset next fileIndex endOfFile name)).load 4 offset =
      next := by
  rw [directoryInformation, replay_cons, load_replay_below]
  · rw [put_bytes]
    exact (load_store_same memory 4 offset next).trans (Nat.mod_eq_of_lt small)
  · intro write member
    simp only [mem_cons, not_mem_nil, or_false] at member
    rcases member with rfl | rfl | rfl | rfl | rfl | rfl | rfl | rfl <;>
      simp only [bytes, zeros, fileNameOffset] <;> omega

variable {memory : ByteMemory}

theorem Visits.last {entries : List Nat} :
    ∀ {offset : Nat}, Visits memory offset entries →
      ∃ last, entries.getLast? = some last ∧ memory.load 4 last = 0 := by
  induction entries with
  | nil => intro offset visits; exact visits.elim
  | cons entry entries ih =>
    intro offset visits
    cases entries with
    | nil => exact ⟨entry, rfl, visits.1 ▸ visits.2⟩
    | cons next entries =>
      obtain ⟨last, isLast, ends⟩ := ih visits.2.2
      exact ⟨last, by rw [getLast?_cons_cons]; exact isLast, ends⟩

/-- The scan goes on to the next listed slot, or to the end. -/
theorem scanDirectory_cases (disk : RamDisk) (length : Nat) (returnSingleEntry : Bool)
    (filter : Option FilterName) (listing : Listing) (slots : List Nat) :
    (listedAmong disk filter slots = [] ∧
        scanDirectory disk length returnSingleEntry filter slots listing = listing) ∨
      ∃ slot rest, listedAmong disk filter slots = slot :: listedAmong disk filter rest ∧
        scanDirectory disk length returnSingleEntry filter slots listing =
          if (listing.bytesUsed + entrySize (entryName disk slot)) % 2 ^ 32 > length then
            listing.full returnSingleEntry
          else if returnSingleEntry then listing.add disk slot returnSingleEntry
          else scanDirectory disk length returnSingleEntry filter rest
            (listing.add disk slot returnSingleEntry) := by
  induction slots with
  | nil => exact .inl ⟨rfl, rfl⟩
  | cons slot slots ih =>
    rw [scanDirectory]
    by_cases ended : firstNameByte disk slot = 0
    · left
      rw [if_pos ended, listedAmong, takeWhile_cons_of_neg (by simpa using ended)]
      exact ⟨rfl, rfl⟩
    · rw [if_neg ended]
      have unfolded : listedAmong disk filter (slot :: slots) =
          if listedSlot disk filter slot then slot :: listedAmong disk filter slots
          else listedAmong disk filter slots := by
        rw [listedAmong, takeWhile_cons_of_pos (by simpa using ended), filter_cons]
        rfl
      rw [unfolded]
      by_cases listed : listedSlot disk filter slot = true
      · rw [if_pos listed, if_pos listed]
        exact .inr ⟨slot, slots, rfl, rfl⟩
      · rw [if_neg listed, if_neg listed]
        exact ih

/-- The last entry returned so far leads on, although nothing follows. -/
def DanglingLast (memory : ByteMemory) (listing : Listing) : Prop :=
  listing.found = true ∧ ∃ last, listing.returned.getLast? = some last ∧
    (replay memory listing.writes).load 4 last ≠ 0

theorem DanglingLast.add (memory : ByteMemory) (listing : Listing) (disk : RamDisk) (slot : Nat) :
    DanglingLast memory (listing.add disk slot false) := by
  obtain ⟨_, positive, small⟩ := entrySize_bounds disk slot
  refine ⟨rfl, listing.bytesUsed, getLast?_concat, ?_⟩
  simp only [Listing.add, Bool.false_eq_true, if_false]
  rw [replay_append, directoryInformation_link _ _ _ _ _ _ (by omega)]
  omega

theorem DanglingLast.scan {disk : RamDisk} {length : Nat}
    {filter : Option FilterName} (slots : List Nat) :
    ∀ {listing : Listing}, DanglingLast memory listing →
      DanglingLast memory (scanDirectory disk length false filter slots listing) := by
  induction slots with
  | nil => exact fun dangling => dangling
  | cons slot slots ih =>
    intro listing dangling
    rw [scanDirectory]
    split
    · exact dangling
    · split
      · split
        · simp only [Listing.full, Bool.false_and, Bool.false_eq_true, if_false]
          exact dangling
        · exact ih (DanglingLast.add memory listing disk slot)
      · exact ih dangling

theorem DanglingLast.not_visits {listing : Listing} (dangling : DanglingLast memory listing) :
    ¬ Visits (replay memory listing.writes) 0 listing.returned := by
  intro visits
  obtain ⟨last, isLast, ends⟩ := visits.last
  obtain ⟨_, other, isOther, leads⟩ := dangling
  rw [isLast] at isOther
  cases isOther
  exact leads ends

/-- The first listed slot is returned if it fits. -/
theorem scanDirectory_first (disk : RamDisk) (length : Nat) (returnSingleEntry : Bool)
    (filter : Option FilterName) (listing : Listing) (small : listing.bytesUsed ≤ dotEntriesSize) :
    (FirstFits disk length listing.bytesUsed filter ∧
        ∃ slot, listing.bytesUsed + entrySize (entryName disk slot) ≤ length ∧
          ∃ rest, scanDirectory disk length returnSingleEntry filter (List.range rootEntryCount)
              listing =
            if returnSingleEntry then listing.add disk slot returnSingleEntry
            else scanDirectory disk length returnSingleEntry filter rest
              (listing.add disk slot returnSingleEntry)) ∨
      (¬ FirstFits disk length listing.bytesUsed filter ∧
        scanDirectory disk length returnSingleEntry filter (List.range rootEntryCount) listing =
          if listedSlots disk filter = [] then listing else listing.full returnSingleEntry) := by
  rcases scanDirectory_cases disk length returnSingleEntry filter listing
      (List.range rootEntryCount) with ⟨empty, scanned⟩ | ⟨slot, rest, first, scanned⟩
  · right
    have none : listedSlots disk filter = [] := empty
    refine ⟨?_, by rw [scanned, if_pos none]⟩
    intro fits
    obtain ⟨slot, head, _⟩ := fits
    rw [none] at head
    cases head
  · have bounds := entrySize_bounds disk slot
    have noWrap : (listing.bytesUsed + entrySize (entryName disk slot)) % 2 ^ 32 =
        listing.bytesUsed + entrySize (entryName disk slot) := by
      apply Nat.mod_eq_of_lt
      simp only [dotEntriesSize, dotDotOffset, directoryInformationSize] at small
      omega
    have head : (listedSlots disk filter).head? = some slot := by rw [listedSlots, first]; rfl
    rw [noWrap] at scanned
    by_cases fits : listing.bytesUsed + entrySize (entryName disk slot) ≤ length
    · left
      refine ⟨⟨slot, head, fits⟩, slot, fits, rest, ?_⟩
      rw [scanned, if_neg (Nat.not_lt.mpr fits)]
    · right
      refine ⟨?_, ?_⟩
      · intro other
        obtain ⟨_, same, enough⟩ := other
        rw [head] at same
        cases same
        exact fits enough
      · have present : listedSlots disk filter ≠ [] := by
          intro none
          rw [none] at head
          cases head
        rw [scanned, if_pos (Nat.lt_of_not_le fits), if_neg present]

theorem dotEntries_links (memory : ByteMemory) (length : Nat) :
    (replay memory (dotEntries length).writes).load 4 0 = dotDotOffset ∧
      (replay memory (dotEntries length).writes).load 4 dotDotOffset = 0 := by
  have separate : ∀ write ∈ [zeros dotDotOffset (subtract32 length dotDotOffset)] ++
      directoryInformation dotDotOffset 0 1 0 dotDotName, 0 + 4 ≤ write.offset := by
    intro write member
    have far : 4 ≤ dotDotOffset := by decide
    rcases mem_append.mp member with first | later
    · rw [mem_singleton.mp first]
      exact far
    · have range := (directoryInformation_range dotDotOffset 0 1 0 dotDotName write later).1
      omega
  constructor
  · rw [dotEntries, append_assoc, replay_append, load_replay_below separate, replay_append]
    exact directoryInformation_link _ 0 dotDotOffset 0 0 dotName (by decide)
  · rw [dotEntries, replay_append]
    exact directoryInformation_link _ dotDotOffset 0 1 0 dotDotName (by decide)

theorem dotEntries_within (length : Nat) :
    Within length (dotEntries length).writes ↔ dotDotOffset + fileNameOffset + 2 * 4 ≤ length := by
  constructor
  · intro within
    have last := within (bytes (dotDotOffset + fileNameOffset) (wideBytes dotDotName))
      (mem_append_right _ (by simp [directoryInformation]))
      (dotDotOffset + fileNameOffset + 7) (by decide)
    omega
  · intro enough
    have named : dotDotName.length = 4 := rfl
    have shorter : dotName.length = 3 := rfl
    rw [dotEntries]
    apply within_of_end
    intro write member
    simp only [mem_append, mem_singleton] at member
    rcases member with ((rfl | first) | rfl) | second
    · exact Nat.le_of_eq (Nat.zero_add length)
    · have range := (directoryInformation_range 0 dotDotOffset 0 0 dotName write first).2
      omega
    · show dotDotOffset + subtract32 length dotDotOffset ≤ length
      rw [subtract32_of_le (by omega)]
      omega
    · have range := (directoryInformation_range dotDotOffset 0 1 0 dotDotName write second).2
      omega

/-- A caller can walk through a listing that stays inside the buffer. -/
def Listing.Sound (listing : Listing) (memory : ByteMemory) (length : Nat) : Prop :=
  listing.found = true →
    Visits (replay memory listing.writes) 0 listing.returned ∧ Within length listing.writes

theorem DanglingLast.not_sound {listing : Listing} {length : Nat}
    (dangling : DanglingLast memory listing) : ¬ listing.Sound memory length :=
  fun sound => dangling.not_visits (sound dangling.1).1

/-- The listing under a filter. -/
theorem filteredListing_sound_iff (disk : RamDisk) (length : Nat) (returnSingleEntry : Bool)
    (filter : FilterName) (memory : ByteMemory) :
    (scanDirectory disk length returnSingleEntry (some filter) (List.range rootEntryCount)
        ⟨[zeros 0 length], 0, false, []⟩).Sound memory length ↔
      returnSingleEntry = true ∨ ¬ FirstFits disk length 0 (some filter) := by
  rcases scanDirectory_first disk length returnSingleEntry (some filter)
      ⟨[zeros 0 length], 0, false, []⟩ (Nat.zero_le _) with
    ⟨first, slot, fits, rest, scanned⟩ | ⟨noFirst, scanned⟩
  · rw [scanned]
    cases returnSingleEntry with
    | true =>
      refine iff_of_true ?_ (.inl rfl)
      intro _
      have bounds := entrySize_bounds disk slot
      have enough : entrySize (entryName disk slot) ≤ length := by
        omega
      constructor
      · refine ⟨rfl, ?_⟩
        simp only [if_true, Listing.add]
        rw [replay_append]
        exact directoryInformation_link _ 0 0 slot _ _ (by decide)
      · simp only [if_true, Listing.add]
        apply within_of_end
        intro write member
        simp only [mem_append, mem_singleton] at member
        rcases member with (rfl | rfl) | field
        · exact Nat.le_of_eq (Nat.zero_add length)
        · exact (Nat.zero_add _).trans_le enough
        · have range := (directoryInformation_range 0 0 slot _ _ write field).2
          omega
    | false =>
      refine iff_of_false ?_ (by simpa using first)
      rw [if_neg Bool.false_ne_true]
      exact ((DanglingLast.add memory _ disk slot).scan rest).not_sound
  · refine iff_of_true ?_ (.inr noFirst)
    intro found
    rw [scanned] at found
    split at found
    · cases found
    · simp only [Listing.full, Bool.and_false, Bool.false_eq_true, if_false] at found

/-- The listing without a filter, with the dot entries. -/
theorem plainListing_sound_iff (disk : RamDisk) (length : Nat) (returnSingleEntry : Bool)
    (memory : ByteMemory) :
    (scanDirectory disk length returnSingleEntry none (List.range rootEntryCount)
        (dotEntries length)).Sound memory length ↔
      dotDotOffset + fileNameOffset + 2 * 4 ≤ length ∧
        ¬ FirstFits disk length dotEntriesSize none ∧
        (returnSingleEntry = true → listedSlots disk none = []) := by
  have links := dotEntries_links memory length
  rcases scanDirectory_first disk length returnSingleEntry none (dotEntries length)
      (Nat.le_refl _) with ⟨first, slot, fits, rest, scanned⟩ | ⟨noFirst, scanned⟩
  · refine iff_of_false ?_ (fun known => known.2.1 first)
    rw [scanned]
    cases returnSingleEntry with
    | true =>
      intro sound
      -- The link of `..` is 0, although the entry of `slot` follows.
      obtain ⟨_, _, place, onward, _⟩ := (sound rfl).1
      rw [place] at onward
      apply onward
      simp only [if_true, Listing.add]
      rw [append_assoc, replay_append, load_replay_below, links.2]
      intro write member
      have far : dotDotOffset + 4 ≤ dotEntriesSize := by decide
      rcases mem_append.mp member with clear | field
      · rw [mem_singleton.mp clear]
        exact far
      · exact Nat.le_trans far (directoryInformation_range _ _ _ _ _ write field).1
    | false =>
      rw [if_neg Bool.false_ne_true]
      exact ((DanglingLast.add memory _ disk slot).scan rest).not_sound
  · rw [scanned]
    have visits : Visits (replay memory (dotEntries length).writes) 0 [0, dotDotOffset] := by
      refine ⟨rfl, ?_, ?_, ?_⟩
      · rw [links.1]
        decide
      · rw [links.1, Nat.zero_add]
      · rw [links.1, Nat.zero_add]
        exact links.2
    have within := dotEntries_within length
    have kept : (dotEntries length).Sound memory length ↔
        dotDotOffset + fileNameOffset + 2 * 4 ≤ length := by
      rw [← within]
      exact ⟨fun sound => (sound rfl).2, fun inside _ => ⟨visits, inside⟩⟩
    by_cases none : listedSlots disk none = []
    · rw [if_pos none, kept]
      exact ⟨fun enough => ⟨enough, noFirst, fun _ => none⟩, fun known => known.1⟩
    rw [if_neg none]
    cases returnSingleEntry with
    | true =>
      refine iff_of_false ?_ (fun known => none (known.2.2 rfl))
      intro sound
      -- The link of `.` is cut, although `..` follows.
      obtain ⟨_, onward, _⟩ := (sound rfl).1
      apply onward
      show (replay memory ((dotEntries length).writes ++ [_])).load 4 0 = 0
      rw [replay_append]
      exact load_store_same _ 4 0 0
    | false =>
      rw [show (dotEntries length).full false = dotEntries length from rfl, kept]
      exact ⟨fun enough => ⟨enough, noFirst, fun single => absurd single Bool.false_ne_true⟩,
        fun known => known.1⟩

/-- A successful answer can be walked through and stays inside the buffer exactly if
the request is covered. -/
theorem ntQueryDirectoryFile_wellFormed_iff (disk : RamDisk) (fileInformation : Bool) (length : Nat)
    (returnSingleEntry : Bool) (fileName : Option FilterName) (memory : ByteMemory) :
    WellFormed (ntQueryDirectoryFile disk fileInformation length returnSingleEntry fileName) memory
        length ↔
      ListingCovered disk fileInformation length returnSingleEntry fileName := by
  have answered : ∀ listing : Listing,
      WellFormed (if listing.found then
          ⟨⟨statusSuccess, listing.bytesUsed⟩, listing.writes, listing.returned⟩
        else ⟨⟨statusNoSuchFile, 0⟩, listing.writes, listing.returned⟩) memory length ↔
        listing.Sound memory length := by
    intro listing
    unfold WellFormed Listing.Sound
    cases listing.found with
    | true => exact Iff.intro (fun sound _ => sound rfl) (fun sound _ => sound rfl)
    | false =>
      have failed : statusNoSuchFile ≠ statusSuccess := by decide
      exact iff_of_true (fun success => absurd success failed)
        (fun found => absurd found Bool.false_ne_true)
  rw [ntQueryDirectoryFile, ListingCovered]
  by_cases refused : (!fileInformation || length == 0) = true
  · rw [if_pos refused, if_pos refused]
    exact iff_of_true (fun success => absurd success (by decide)) trivial
  · rw [if_neg refused, if_neg refused]
    dsimp only
    rw [answered]
    cases activeFilter fileName with
    | none => exact plainListing_sound_iff disk length returnSingleEntry memory
    | some filter => exact filteredListing_sound_iff disk length returnSingleEntry filter memory

/-- One file in the root directory: its entry stands behind `..`, whose link is 0. -/
theorem oneFile_notWellFormed :
    ¬ ∀ (disk : RamDisk) (fileInformation : Bool) (length : Nat) (returnSingleEntry : Bool)
      (fileName : Option FilterName) (memory : ByteMemory),
      WellFormed (ntQueryDirectoryFile disk fileInformation length returnSingleEntry fileName)
        memory length := by
  intro wellFormed
  have answer := wellFormed (fillEntry oneMegabyte 0 [0x41] 0) true 4096 false none (fun _ => 0)
    (by decide +kernel)
  have links : (ntQueryDirectoryFile
    (fillEntry oneMegabyte 0 [0x41] 0) true 4096 false none).returned
      = [0, 62, 126] := by decide +kernel
  have cut : (replay (fun _ => 0) (ntQueryDirectoryFile (fillEntry oneMegabyte 0 [0x41] 0) true 4096
      false none).writes).load 4 62 = 0 := by decide +kernel
  rw [links] at answer
  obtain ⟨⟨_, _, same, onward, _⟩, _⟩ := answer
  rw [same] at onward
  exact onward cut

end MinNT.Fs
