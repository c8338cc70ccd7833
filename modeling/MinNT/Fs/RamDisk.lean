import MinNT.Lib.ByteMemory
import MinNT.NtStatus

namespace MinNT.Fs

def ramdiskSectorSize : Nat := 512
def sectorsPerCluster : Nat := 4
def reservedSectors : Nat := 1
def rootEntryCount : Nat := 512

def rootDirSectors : Nat := (rootEntryCount * 32 + ramdiskSectorSize - 1) / ramdiskSectorSize

/-- `sizeof(FAT16_DIR_ENTRY)`: the packed structure has no creation-time word. -/
def dirEntrySize : Nat := 30

/-- The RAM disk's statics. Addresses count from `RamDiskBase`. -/
structure RamDisk where
  size : Nat
  sectors : Nat
  sectorsPerFat : Nat
  fat : Nat
  rootDir : Nat
  dataArea : Nat
  memory : ByteMemory

/-- `dataSectors / SectorsPerCluster` with the minimal FAT of two sectors. -/
def firstTotalClusters (totalSectors : Nat) : Nat :=
  subtract32 (subtract32 (subtract32 totalSectors reservedSectors) 2) rootDirSectors /
    sectorsPerCluster

/-- `fatSectors` after the adjustment. -/
def fatSectors (totalSectors : Nat) : Nat :=
  if firstTotalClusters totalSectors > 4085 then
    ((firstTotalClusters totalSectors + 1 + 1) * 2 + ramdiskSectorSize - 1) / ramdiskSectorSize
  else 2

/-- The disk `FsCreateRamDisk` sets up in a block of the pool; `around` is the
memory before the call. -/
def formatRamDisk (around : ByteMemory) (sizeInMB : Nat) : RamDisk :=
  let size := sizeInMB * 2 ^ 20 % 2 ^ 32
  let totalSectors := size / ramdiskSectorSize
  let fat := reservedSectors * ramdiskSectorSize
  let rootDir := fat + fatSectors totalSectors * ramdiskSectorSize
  { size := size
    sectors := totalSectors
    sectorsPerFat := fatSectors totalSectors % 2 ^ 16
    fat := fat
    rootDir := rootDir
    dataArea := rootDir + rootDirSectors * ramdiskSectorSize
    memory := ByteMemory.write (fun address => if address < size then 0 else around address) fat
      [0xF8, 0xFF, 0xFF, 0xFF] }

/-- `FsCreateRamDisk`; `block` tells whether the pool had a block of that size. -/
def fsCreateRamDisk (existing : Option RamDisk) (around : ByteMemory) (block : Bool)
    (sizeInMB : Nat) : NtStatus × Option RamDisk :=
  match existing with
  | some disk => (statusSuccess, some disk)
  | none =>
      if block then (statusSuccess, some (formatRamDisk around sizeInMB))
      else (statusNoMemory, none)

def fsClusterSize : Nat := sectorsPerCluster * ramdiskSectorSize

def fsClusterBase (disk : RamDisk) (cluster : Nat) : Nat :=
  disk.dataArea + subtract32 cluster 2 * fsClusterSize % 2 ^ 32

def fsReadFatEntry (disk : RamDisk) (cluster : Nat) : Nat :=
  disk.memory.load 2 (disk.fat + 2 * cluster)

def fsWriteFatEntry (disk : RamDisk) (cluster value : Nat) : RamDisk :=
  { disk with memory := disk.memory.store 2 (disk.fat + 2 * cluster) value }

/-- The bound of both allocation loops, a `USHORT`. -/
def totalClusters (disk : RamDisk) : Nat :=
  subtract32 (subtract32 (subtract32 disk.sectors reservedSectors) disk.sectorsPerFat)
    rootDirSectors / sectorsPerCluster % 2 ^ 16

/-- The search of both allocation loops: the first free cluster from 2 on. -/
def findFreeCluster (disk : RamDisk) : Option Nat :=
  (List.range' 2 (totalClusters disk - 2)).find? (fun cluster => fsReadFatEntry disk cluster = 0)

/-- Address of `RamDiskRootDir[slot]`. -/
def dirEntry (disk : RamDisk) (slot : Nat) : Nat := disk.rootDir + dirEntrySize * slot

/-- `FileName[0]`. -/
def firstNameByte (disk : RamDisk) (slot : Nat) : UInt8 := disk.memory (dirEntry disk slot)

def firstCluster (disk : RamDisk) (slot : Nat) : Nat :=
  disk.memory.load 2 (dirEntry disk slot + 24)

def fileSize (disk : RamDisk) (slot : Nat) : Nat := disk.memory.load 4 (dirEntry disk slot + 26)

def setFirstCluster (disk : RamDisk) (slot cluster : Nat) : RamDisk :=
  { disk with memory := disk.memory.store 2 (dirEntry disk slot + 24) cluster }

def setFileSize (disk : RamDisk) (slot size : Nat) : RamDisk :=
  { disk with memory := disk.memory.store 4 (dirEntry disk slot + 26) size }

/-- A slot that creation may take. -/
def emptySlot (disk : RamDisk) (slot : Nat) : Bool :=
  firstNameByte disk slot = 0 || firstNameByte disk slot = 0xE5

/-- A `PCWSTR` without its terminator. -/
abbrev WideString := List UInt16

def wideDot : UInt16 := 0x2E

/-- The part before the last dot, or the whole name, and the part after it. -/
def splitLastDot (name : WideString) : WideString × WideString :=
  if wideDot ∈ name then
    ((name.reverse.dropWhile (· ≠ wideDot)).tail.reverse,
      (name.reverse.takeWhile (· ≠ wideDot)).reverse)
  else (name, [])

/-- The first `count` characters of `part`, the length being a `USHORT`, padded
with zeros to `count`. -/
def copyPart (part : WideString) (count : Nat) : WideString :=
  let copied := part.take (min (part.length % 2 ^ 16) count)
  copied ++ List.replicate (count - copied.length) 0

def wideBytes (text : WideString) : List UInt8 :=
  text.flatMap (fun char => ByteMemory.encodeLE 2 char.toNat)

def fat16AttrArchive : UInt8 := 0x20

/-- Fill one entry. Of the wide name and extension 8 and 3 bytes are kept. -/
def fillEntry (disk : RamDisk) (slot : Nat) (name : WideString) (size : Nat) : RamDisk :=
  let parts := splitLastDot name
  let entry := dirEntry disk slot
  let memory := disk.memory.write entry ((wideBytes (copyPart parts.1 8)).take 8)
  let memory := memory.write (entry + 8) ((wideBytes (copyPart parts.2 3)).take 3)
  let memory := memory.write (entry + 11) [fat16AttrArchive]
  let memory := memory.store 4 (entry + 26) size
  { disk with memory := memory.store 2 (entry + 24) 0 }

def fsCreateFileEntry (disk : RamDisk) (name : WideString) (size : Nat) : Option (Nat × RamDisk) :=
  ((List.range rootEntryCount).find? (emptySlot disk)).map fun slot =>
    (slot, fillEntry disk slot name size)

/-- A FAT value at which both chain walks stop. -/
def chainStops (next : Nat) : Bool := next = 0xFFFF || next = 0

/-- The loop of `FsResolveClusterChain`, which takes one step for each whole
cluster of the offset. -/
def resolveSteps (disk : RamDisk) : Nat → Nat → Option Nat
  | 0, cluster => some cluster
  | steps + 1, cluster =>
      if chainStops (fsReadFatEntry disk cluster) then none
      else resolveSteps disk steps (fsReadFatEntry disk cluster)

/-- `FsResolveClusterChain`: cluster and offset in it. -/
def fsResolveClusterChain (disk : RamDisk) (slot offset : Nat) : Option (Nat × Nat) :=
  if firstCluster disk slot = 0 ∨ offset ≥ fileSize disk slot then none
  else
    (resolveSteps disk (offset / fsClusterSize) (firstCluster disk slot)).map
      fun cluster => (cluster, offset % fsClusterSize)

/-- The chase to the end of a chain. It depends on a `USHORT` alone, so one that
has not ended after `2 ^ 16` steps never ends: `none`. -/
def chaseSteps (disk : RamDisk) : Nat → Nat → Option Nat
  | 0, _ => none
  | fuel + 1, cluster =>
      if cluster = 0 then some cluster
      else if chainStops (fsReadFatEntry disk cluster) then some cluster
      else chaseSteps disk fuel (fsReadFatEntry disk cluster)

@[irreducible] def chaseFuel : Nat := 2 ^ 16

/-- Mark a free cluster as the end of a chain and hang it behind the chain of
the entry. -/
def linkCluster (disk : RamDisk) (slot cluster : Nat) : Option RamDisk :=
  let marked := fsWriteFatEntry disk cluster 0xFFFF
  if firstCluster marked slot = 0 then some (setFirstCluster marked slot cluster)
  else
    (chaseSteps marked chaseFuel (firstCluster marked slot)).map fun last =>
      fsWriteFatEntry marked last cluster

/-- The allocation inside `NtWriteFile`. `some none` is a full disk. -/
def allocateCluster (disk : RamDisk) (slot : Nat) : Option (Option (Nat × RamDisk)) :=
  match findFreeCluster disk with
  | none => some none
  | some cluster => (linkCluster disk slot cluster).map fun disk => some (cluster, disk)

/-- `FILE_OBJECT`: `FsContext` is the slot of the file's directory entry. -/
structure FileObject where
  currentOffset : Nat
  fsContext : Nat
deriving DecidableEq, Repr

structure IoStatus where
  status : NtStatus
  information : Nat
deriving DecidableEq, Repr

/-- The file offset a request starts at, a `ULONG`. -/
def requestOffset (file : FileObject) (byteOffset : Option Nat) : Nat :=
  match byteOffset with
  | some offset => offset % 2 ^ 32
  | none => file.currentOffset

/-- How many of `remaining` bytes the current cluster takes. -/
def clusterPart (size remaining currentOffset offsetInCluster : Nat) : Nat :=
  let part :=
    if (currentOffset + remaining) % 2 ^ 32 > size then subtract32 size currentOffset
    else remaining
  min part (fsClusterSize - offsetInCluster)

/-- The copy loop of `NtReadFile`: the bytes in order. Every turn reads at least
one byte, so `remaining` turns are enough. -/
def readLoop (disk : RamDisk) (slot : Nat) : Nat → Nat → Nat → List UInt8
  | 0, _, _ => []
  | fuel + 1, remaining, currentOffset =>
      if remaining = 0 ∨ ¬ currentOffset < fileSize disk slot then []
      else
        match fsResolveClusterChain disk slot currentOffset with
        | none => []
        | some (cluster, offsetInCluster) =>
            let toRead :=
              clusterPart (fileSize disk slot) remaining currentOffset offsetInCluster
            disk.memory.read (fsClusterBase disk cluster + offsetInCluster) toRead ++
              readLoop disk slot fuel (remaining - toRead) ((currentOffset + toRead) % 2 ^ 32)

/-- `NtReadFile` on an open file: the result, the bytes put into the buffer and
the file object afterwards. -/
def ntReadFile (disk : RamDisk) (file : FileObject) (byteOffset : Option Nat) (length : Nat) :
    IoStatus × List UInt8 × FileObject :=
  let readOffset := requestOffset file byteOffset
  let size := fileSize disk file.fsContext
  if readOffset ≥ size then (⟨statusEndOfFile, 0⟩, [], file)
  else
    let readLength :=
      if (readOffset + length) % 2 ^ 32 > size then size - readOffset else length
    let bytes := readLoop disk file.fsContext readLength readLength readOffset
    (⟨statusSuccess, bytes.length⟩, bytes,
      { file with currentOffset := (readOffset + bytes.length) % 2 ^ 32 })

/-- Where the next bytes of a write go: an existing cluster of the chain or a
new one. The outer `none` is a chase that never ends, the inner one a full disk. -/
def writeTarget (disk : RamDisk) (slot currentOffset : Nat) :
    Option (Option (Nat × Nat × RamDisk)) :=
  match fsResolveClusterChain disk slot currentOffset with
  | some (cluster, offsetInCluster) => some (some (cluster, offsetInCluster, disk))
  | none =>
      (allocateCluster disk slot).map fun allocated =>
        allocated.map fun (cluster, disk) => (cluster, 0, disk)

/-- Copy into a cluster of the data area. -/
def writeData (disk : RamDisk) (cluster offsetInCluster : Nat) (bytes : List UInt8) : RamDisk :=
  { disk with
    memory := disk.memory.write (fsClusterBase disk cluster + offsetInCluster) bytes }

/-- The loop of `NtWriteFile` on the bytes still to be written: the disk and the
bytes left when the disk was full. `none` is a loop that does not end, or one
that would read past the caller's buffer. -/
def writeLoop : Nat → RamDisk → Nat → List UInt8 → Nat → Option (RamDisk × List UInt8)
  | _, disk, _, [], _ => some (disk, [])
  | 0, _, _, _ :: _, _ => none
  | fuel + 1, disk, slot, byte :: rest, currentOffset =>
      match writeTarget disk slot currentOffset with
      | none => none
      | some none => some (disk, byte :: rest)
      | some (some (cluster, offsetInCluster, disk)) =>
          let src := byte :: rest
          let toWrite :=
            clusterPart (fileSize disk slot) src.length currentOffset offsetInCluster
          if toWrite > src.length then none
          else
            writeLoop fuel (writeData disk cluster offsetInCluster (src.take toWrite)) slot
              (src.drop toWrite) ((currentOffset + toWrite) % 2 ^ 32)

/-- The size update in front of the loop, made before any cluster is found. -/
def growFileSize (disk : RamDisk) (slot size : Nat) : RamDisk :=
  if size > fileSize disk slot then setFileSize disk slot size else disk

/-- `NtWriteFile` on an open file; the `Length` is the length of the buffer. -/
def ntWriteFile (disk : RamDisk) (file : FileObject) (byteOffset : Option Nat)
    (buffer : List UInt8) : Option (IoStatus × FileObject × RamDisk) :=
  let writeOffset := requestOffset file byteOffset
  let grown := growFileSize disk file.fsContext ((writeOffset + buffer.length) % 2 ^ 32)
  (writeLoop buffer.length grown file.fsContext buffer writeOffset).map fun (disk, left) =>
    (⟨statusSuccess, buffer.length - left.length⟩,
      { file with currentOffset := (writeOffset + (buffer.length - left.length)) % 2 ^ 32 }, disk)

end MinNT.Fs
