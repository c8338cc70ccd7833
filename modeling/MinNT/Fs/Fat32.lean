import Mathlib.Logic.Function.Basic
import MinNT.Lib.ByteMemory
import MinNT.NtStatus

open ByteMemory

namespace MinNT.Fat32

/-- `g_Fat32Mount`, with the disk behind it. -/
structure Volume where
  valid : Bool
  bytesPerSector : Nat
  sectorsPerCluster : Nat
  bytesPerCluster : Nat
  rootCluster : Nat
  /-- The first block of the first FAT. -/
  fatStart : Nat
  /-- The first block of cluster 2. -/
  dataStart : Nat
  fatEntries : Nat
  fatCache : Nat → Nat
  disk : ByteMemory

/-- The loops of the driver go on from a cluster number and at most one more
32-bit word. One that has not ended after so many steps never ends. -/
@[irreducible] def loopSteps : Nat := 2 ^ 64

/-- Values from here on end a chain. -/
def chainEnd : Nat := 0x0FFFFFF8

/-- The mark that the driver itself puts behind a chain. -/
def endOfChain : Nat := 0x0FFFFFFF

/-- `Fat32ReadSectors`, from a device that answers every request. Its blocks are
of 512 bytes. -/
def fat32ReadSectors (v : Volume) (lba count : Nat) : List UInt8 :=
  v.disk.read (lba * 512) (count * 512)

def fat32WriteSectors (v : Volume) (lba : Nat) (buffer : List UInt8) : Volume :=
  { v with disk := v.disk.write (lba * 512) buffer }

/-- The first block of a cluster. -/
def clusterLba (v : Volume) (cluster : Nat) : Nat :=
  v.dataStart + (cluster - 2) * v.sectorsPerCluster

def fat32ReadCluster (v : Volume) (cluster : Nat) : Except NtStatus (List UInt8) :=
  if cluster < 2 then .error statusInvalidParameter
  else .ok (fat32ReadSectors v (clusterLba v cluster) v.sectorsPerCluster)

def fat32WriteCluster (v : Volume) (cluster : Nat) (buffer : List UInt8) : NtStatus × Volume :=
  if cluster < 2 then (statusInvalidParameter, v)
  else (statusSuccess, fat32WriteSectors v (clusterLba v cluster) buffer)

def fat32GetFatEntry (v : Volume) (cluster : Nat) : Nat :=
  if v.fatEntries ≤ cluster then endOfChain else v.fatCache cluster % 2 ^ 28

/-- `Fat32SetFatEntry`: the cache, and the first FAT on the disk. -/
def fat32SetFatEntry (v : Volume) (cluster value : Nat) : NtStatus × Volume :=
  if v.fatEntries ≤ cluster then (statusInvalidParameter, v)
  else
    let byteOffset := cluster * 4 % 2 ^ 32
    let lba := v.fatStart + byteOffset / v.bytesPerSector
    let offsetInSector := byteOffset % v.bytesPerSector
    let sector := fat32ReadSectors v lba 1
    let cached := { v with fatCache := Function.update v.fatCache cluster (value % 2 ^ 28) }
    (statusSuccess,
      fat32WriteSectors cached lba
        (sector.take offsetInSector ++ encodeLE 4 (value % 2 ^ 28) ++
          sector.drop (offsetInSector + 4)))

def fat32FindFreeCluster (v : Volume) : Except NtStatus Nat :=
  match (List.range' 2 (v.fatEntries - 2)).find? (fun cluster => v.fatCache cluster == 0) with
  | some cluster => .ok cluster
  | none => .error statusDiskFull

/-- `Fat32AllocateChain`, by the number of passes that are left. -/
def fat32AllocateChain : Volume → Nat → Nat → NtStatus × Volume
  | v, _, 0 => (statusSuccess, v)
  | v, cur, 1 => (statusSuccess, (fat32SetFatEntry v cur endOfChain).2)
  | v, cur, count + 2 =>
      match fat32FindFreeCluster v with
      | .error status => (status, (fat32SetFatEntry v cur endOfChain).2)
      | .ok next =>
          let marked := (fat32SetFatEntry v next endOfChain).2
          fat32AllocateChain (fat32SetFatEntry marked cur next).2 next (count + 1)

/-- `FAT_DIR_ENTRY`, a packed structure of 32 bytes. -/
abbrev DirEntry := List UInt8

def DirEntry.name (entry : DirEntry) : List UInt8 := entry.take 11

/-- `Name[0]`. -/
def DirEntry.mark (entry : DirEntry) : UInt8 := entry.headD 0

/-- `(FirstClusterHigh << 16) | FirstClusterLow`. -/
def DirEntry.firstCluster (entry : DirEntry) : Nat :=
  decodeLE ((entry.drop 20).take 2) * 2 ^ 16 + decodeLE ((entry.drop 26).take 2)

def DirEntry.fileSize (entry : DirEntry) : Nat := decodeLE ((entry.drop 28).take 4)

/-- `Name[0] == 0` ends a directory. -/
def DirEntry.ended (entry : DirEntry) : Bool := entry.mark == 0

/-- `Name[0] == 0xE5` is a deleted entry. -/
def DirEntry.deleted (entry : DirEntry) : Bool := entry.mark == 0xE5

/-- The entries in the bytes of a cluster. -/
def directoryEntries (v : Volume) (cluster : List UInt8) : List DirEntry :=
  (List.range (v.bytesPerCluster / 32)).map (fun i => (cluster.drop (32 * i)).take 32)

/-- The inner loop of `Fat32ReadDirectory`: what has been collected, and whether
the end of the directory was met. -/
def collectEntries (maxEntries : Nat) : List DirEntry → List DirEntry → List DirEntry × Bool
  | [], entries => (entries, false)
  | entry :: rest, entries =>
      if entries.length < maxEntries then
        if entry.ended then (entries, true)
        else if entry.deleted then collectEntries maxEntries rest entries
        else collectEntries maxEntries rest (entries ++ [entry])
      else (entries, false)

/-- The outer loop of `Fat32ReadDirectory`. -/
def readDirectoryFrom (v : Volume) (maxEntries : Nat) :
    Nat → Nat → List DirEntry → Option (Except NtStatus (List DirEntry))
  | 0, _, _ => none
  | fuel + 1, cur, entries =>
      if cur < chainEnd ∧ 2 ≤ cur ∧ entries.length < maxEntries then
        match fat32ReadCluster v cur with
        | .error status => some (.error status)
        | .ok cluster =>
            match collectEntries maxEntries (directoryEntries v cluster) entries with
            | (entries, true) => some (.ok entries)
            | (entries, false) =>
                let next := fat32GetFatEntry v cur
                if next = 0 ∨ chainEnd ≤ next then some (.ok entries)
                else readDirectoryFrom v maxEntries fuel next entries
      else some (.ok entries)

/-- `Fat32ReadDirectory`; `room` tells whether the pool has a cluster buffer. The
outer `none` is a call that does not return. -/
def fat32ReadDirectory (room : Bool) (v : Volume) (dirCluster maxEntries : Nat) :
    Option (Except NtStatus (List DirEntry)) :=
  if room then readDirectoryFrom v maxEntries loopSteps dirCluster []
  else some (.error statusNoMemory)

def upcase (c : UInt8) : UInt8 := if 0x61 ≤ c ∧ c ≤ 0x7A then c - 32 else c

/-- The first `width` characters in upper case, and `pad` behind them. -/
def nameField (pad : UInt8) (width : Nat) (chars : List UInt8) : List UInt8 :=
  let field := (chars.take width).map upcase
  field ++ List.replicate (width - field.length) pad

/-- The conversion of a C string to the 8.3 format. `Fat32FindEntry` leaves
zeros behind short parts, `Fat32WriteFile` spaces. -/
def fatName (pad : UInt8) (name : List UInt8) : List UInt8 :=
  nameField pad 8 (name.takeWhile (fun c => c != 0x2E)) ++
    nameField pad 3 ((name.dropWhile (fun c => c != 0x2E)).drop 1)

/-- The name that `Fat32FindEntry` looks for. -/
def searchName (name : List UInt8) : List UInt8 := fatName 0 name

/-- The name that `Fat32WriteFile` gives a new entry. -/
def storedName (name : List UInt8) : List UInt8 := fatName 0x20 name

def fat32FindEntry (room : Bool) (v : Volume) (dirCluster : Nat) (name : List UInt8) :
    Option (Except NtStatus DirEntry) :=
  match fat32ReadDirectory room v dirCluster 64 with
  | none => none
  | some (.error status) => some (.error status)
  | some (.ok entries) =>
      match entries.find? (fun entry => entry.name == searchName name) with
      | some entry => some (.ok entry)
      | none => some (.error statusObjectNameNotFound)

/-- The loop of `Fat32WriteDirectoryEntry`. -/
def writeEntryFrom (v : Volume) (entry : DirEntry) : Nat → Nat → Option (NtStatus × Volume)
  | 0, _ => none
  | fuel + 1, cur =>
      if cur < chainEnd ∧ 2 ≤ cur then
        match fat32ReadCluster v cur with
        | .error status => some (status, v)
        | .ok cluster =>
            match (directoryEntries v cluster).findIdx? (fun old => old.ended || old.deleted) with
            | some i =>
                some (fat32WriteCluster v cur
                  (cluster.take (32 * i) ++ entry ++ cluster.drop (32 * i + 32)))
            | none =>
                let next := fat32GetFatEntry v cur
                if next = 0 ∨ chainEnd ≤ next then some (statusDiskFull, v)
                else writeEntryFrom v entry fuel next
      else some (statusDiskFull, v)

def fat32WriteDirectoryEntry (room : Bool) (v : Volume) (dirCluster : Nat) (entry : DirEntry) :
    Option (NtStatus × Volume) :=
  if room then writeEntryFrom v entry loopSteps dirCluster else some (statusNoMemory, v)

/-- What `Fat32ReadFile` returns and leaves in `*bytes_read` and in the buffer. -/
structure ReadResult where
  status : NtStatus
  bytesRead : Nat
  buffer : ByteMemory

/-- The loop of `Fat32ReadFile`. The sum in the comparison is one of 32 bits. -/
def readClusters (v : Volume) (readSize : Nat) :
    Nat → Nat → Nat → ByteMemory → Option ReadResult
  | 0, _, _, _ => none
  | fuel + 1, cur, copied, buffer =>
      if 2 ≤ cur ∧ cur < chainEnd ∧ copied < readSize then
        match fat32ReadCluster v cur with
        | .error status => some ⟨status, 0, buffer⟩
        | .ok cluster =>
            let copy :=
              if (copied + v.bytesPerCluster) % 2 ^ 32 > readSize then readSize - copied
              else v.bytesPerCluster
            readClusters v readSize fuel (fat32GetFatEntry v cur) ((copied + copy) % 2 ^ 32)
              (buffer.write copied (cluster.take copy))
      else some ⟨statusSuccess, copied, buffer⟩

/-- `Fat32ReadFile`; `room` answers for the allocations of the call. -/
def fat32ReadFile (room : Nat → Bool) (v : Volume) (name : List UInt8) (buffer : ByteMemory)
    (bufsize : Nat) : Option ReadResult :=
  if v.valid then
    match fat32FindEntry (room 0) v v.rootCluster name with
    | none => none
    | some (.error status) => some ⟨status, 0, buffer⟩
    | some (.ok entry) =>
        if entry.fileSize = 0 then some ⟨statusSuccess, 0, buffer⟩
        else if entry.firstCluster < 2 then some ⟨statusInvalidParameter, 0, buffer⟩
        else if room 1 then
          readClusters v (min entry.fileSize bufsize) loopSteps entry.firstCluster 0 buffer
        else some ⟨statusNoMemory, 0, buffer⟩
  else some ⟨statusDeviceDoesNotExist, 0, buffer⟩

/-- The loop that counts the clusters of a chain: their number, in 32 bits, and
the last of them. The source makes the same walk a second time for the latter. -/
def walkChain (v : Volume) : Nat → Nat → Nat → Nat → Option (Nat × Nat)
  | 0, _, _, _ => none
  | fuel + 1, cur, existing, prev =>
      if cur < chainEnd ∧ 2 ≤ cur then
        walkChain v fuel (fat32GetFatEntry v cur) ((existing + 1) % 2 ^ 32) cur
      else some (existing, prev)

def clustersNeeded (v : Volume) (bufsize : Nat) : Nat :=
  max 1 ((bufsize + v.bytesPerCluster - 1) % 2 ^ 32 / v.bytesPerCluster)

/-- The part of `Fat32WriteFile` that makes the chain of an existing file longer. -/
def extendChain (v : Volume) (startCluster needed : Nat) : Option (NtStatus × Volume) :=
  match walkChain v loopSteps startCluster 0 0 with
  | none => none
  | some (existing, prev) =>
      if existing < needed then some (fat32AllocateChain v prev (needed - existing))
      else some (statusSuccess, v)

/-- The loop of `Fat32WriteFile` over the data: the status, the number of bytes
written and the volume. -/
def writeClusters (room : Nat → Bool) (data : List UInt8) :
    Nat → Volume → Nat → Nat → Option (NtStatus × Nat × Volume)
  | 0, _, _, _ => none
  | fuel + 1, v, cur, written =>
      if written < data.length ∧ 2 ≤ cur ∧ cur < chainEnd then
        if room written then
          let copy := min (data.length - written) v.bytesPerCluster
          let cluster := (data.drop written).take copy ++
            List.replicate (v.bytesPerCluster - copy) 0
          let (status, v) := fat32WriteCluster v cur cluster
          if ntSuccess status then
            let next := fat32GetFatEntry v cur
            if chainEnd ≤ next ∨ next = 0 then some (statusSuccess, written + copy, v)
            else writeClusters room data fuel v next (written + copy)
          else some (status, written, v)
        else some (statusNoMemory, written, v)
      else some (statusSuccess, written, v)

def newEntry (name : List UInt8) (startCluster : Nat) : DirEntry :=
  storedName name ++ [0x20] ++ List.replicate 8 0 ++ encodeLE 2 (startCluster / 2 ^ 16) ++
    List.replicate 4 0 ++ encodeLE 2 startCluster ++ encodeLE 4 0

/-- The assignment of `entry.FileSize`. -/
def DirEntry.withSize (entry : DirEntry) (size : Nat) : DirEntry :=
  entry.take 28 ++ encodeLE 4 size

/-- What the allocations of a write answer: the buffers of `Fat32FindEntry` and
of the two directory writes, and those of the data loop, by the bytes written
before. -/
structure WriteRoom where
  find : Bool
  create : Bool
  update : Bool
  data : Nat → Bool

/-- What `Fat32WriteFile` returns, what it stores in `*bytes_written`, if it does,
and the volume it leaves. -/
structure WriteResult where
  status : NtStatus
  bytesWritten : Option Nat
  volume : Volume

/-- `Fat32WriteFile` once the chain is there. A new file ends with a write of
`entry`, which nothing has set: it is what the stack held. -/
def writeData (room : WriteRoom) (stack : DirEntry) (v : Volume) (isNew : Bool)
    (startCluster : Nat) (data : List UInt8) : Option WriteResult :=
  match writeClusters room.data data loopSteps v startCluster 0 with
  | none => none
  | some (status, written, v) =>
      if ntSuccess status then
        let bytesWritten := if written = 0 then none else some written
        if isNew then
          match fat32WriteDirectoryEntry room.update v v.rootCluster (stack.withSize written) with
          | none => none
          | some (status, v) => some ⟨status, bytesWritten, v⟩
        else some ⟨statusSuccess, bytesWritten, v⟩
      else some ⟨status, none, v⟩

/-- `Fat32WriteFile` for a name that was not found. -/
def createFile (room : WriteRoom) (stack : DirEntry) (v : Volume) (name data : List UInt8) :
    Option WriteResult :=
  match fat32FindFreeCluster v with
  | .error status => some ⟨status, none, v⟩
  | .ok startCluster =>
      let marked := (fat32SetFatEntry v startCluster endOfChain).2
      match fat32WriteDirectoryEntry room.create marked marked.rootCluster
          (newEntry name startCluster) with
      | none => none
      | some (status, v) =>
          if ntSuccess status then
            let (status, v) := fat32AllocateChain v startCluster (clustersNeeded v data.length)
            if ntSuccess status then writeData room stack v true startCluster data
            else some ⟨status, none, v⟩
          else some ⟨status, none, v⟩

/-- `Fat32WriteFile` for an entry that was found. -/
def overwriteFile (room : WriteRoom) (stack : DirEntry) (v : Volume) (entry : DirEntry)
    (data : List UInt8) : Option WriteResult :=
  if entry.firstCluster < 2 then some ⟨statusInvalidParameter, none, v⟩
  else
    match extendChain v entry.firstCluster (clustersNeeded v data.length) with
    | none => none
    | some (status, v) =>
        if ntSuccess status then writeData room stack v false entry.firstCluster data
        else some ⟨status, none, v⟩

def fat32WriteFile (room : WriteRoom) (stack : DirEntry) (v : Volume) (name data : List UInt8) :
    Option WriteResult :=
  if v.valid then
    match fat32FindEntry room.find v v.rootCluster name with
    | none => none
    | some (.ok entry) => overwriteFile room stack v entry data
    | some (.error _) => createFile room stack v name data
  else some ⟨statusDeviceDoesNotExist, none, v⟩

/-- The loop that frees a chain. -/
def freeChain : Nat → Volume → Nat → Option Volume
  | 0, _, _ => none
  | fuel + 1, v, cur =>
      if cur < chainEnd ∧ 2 ≤ cur then
        freeChain fuel (fat32SetFatEntry v cur 0).2 (fat32GetFatEntry v cur)
      else some v

/-- `Fat32DeleteFile`; `room` answers for the buffers of the search and of the
directory write. -/
def fat32DeleteFile (room : Bool × Bool) (v : Volume) (name : List UInt8) :
    Option (NtStatus × Volume) :=
  if v.valid then
    match fat32FindEntry room.1 v v.rootCluster name with
    | none => none
    | some (.error status) => some (status, v)
    | some (.ok entry) =>
        match freeChain loopSteps v entry.firstCluster with
        | none => none
        | some v => fat32WriteDirectoryEntry room.2 v v.rootCluster (entry.set 0 0xE5)
  else some (statusDeviceDoesNotExist, v)

end MinNT.Fat32
