import MinNT.Fs.RamDisk
import MinNT.Ob.HandleLifetime

namespace MinNT.Fs

open List Ob Transition

def fsMaxFiles : Nat := 64

/-- `sizeof(FILE_OBJECT)`. -/
def fileObjectSize : Nat := 56

def fat16AttrVolumeId : UInt8 := 0x08
def fileCreate : Nat := 0x00000002
def fileOpenIf : Nat := 0x00000003
def fileCreated : Nat := 0x00000001

/-- An entry of `FsFileTable`, with its `FileName` and its entry in `FsFileInUse`. -/
structure OpenFile where
  inUse : Bool
  fileName : WideString
  file : FileObject
deriving DecidableEq, Repr

/-- The RAM disk, if there is one, `FsFileTable`, and where that table lies. -/
structure FileSystem where
  disk : Option RamDisk
  openFiles : Nat → OpenFile
  fsFileTable : Address

/-- `&FsFileTable[fd]`. -/
def FileSystem.fileObject (files : FileSystem) (fd : Nat) : Address :=
  files.fsFileTable + BitVec.ofNat 64 (fileObjectSize * fd)

/-- The characters of a `UNICODE_STRING` made of a name, whose length is a
`USHORT` number of bytes. -/
def unicodeText (name : WideString) : WideString := name.take (name.length % 2 ^ 15)

/-- `RtlEqualUnicodeString` of two file names. -/
def equalNames (left right : WideString) : Bool :=
  Cm.rtlEqualUnicodeString (left.map UInt16.toBitVec) (right.map UInt16.toBitVec)

/-- The part of an 8.3 name in front of its blanks. -/
def untilBlank (bytes : List UInt8) : WideString :=
  (bytes.takeWhile (· ≠ 0x20)).map UInt8.toUInt16

/-- The 8.3 name of a directory entry as a wide string. -/
def entryName (disk : RamDisk) (slot : Nat) : WideString :=
  let name := untilBlank (disk.memory.read (dirEntry disk slot) 8)
  if disk.memory (dirEntry disk slot + 8) = 0x20 then name
  else name ++ wideDot :: untilBlank (disk.memory.read (dirEntry disk slot + 8) 3)

def fsFindFile (disk : RamDisk) (name : WideString) : Option Nat :=
  ((range rootEntryCount).takeWhile fun slot => firstNameByte disk slot ≠ 0).find? fun slot =>
    firstNameByte disk slot ≠ 0xE5 &&
      disk.memory (dirEntry disk slot + 11) &&& fat16AttrVolumeId == 0 &&
      equalNames (entryName disk slot) (unicodeText name)

/-- The search of `FsOpenFile` for a file that is open already. -/
def findOpenFile (files : FileSystem) (name : WideString) : Option Nat :=
  (range fsMaxFiles).find? fun fd =>
    (files.openFiles fd).inUse &&
      equalNames (unicodeText (files.openFiles fd).fileName) (unicodeText name)

def freeDescriptor (files : FileSystem) : Option Nat :=
  (range fsMaxFiles).find? fun fd => !(files.openFiles fd).inUse

def FileSystem.setOpenFile (files : FileSystem) (fd : Nat) (entry : OpenFile) : FileSystem :=
  { files with openFiles := Function.update files.openFiles fd entry }

/-- `FsOpenFile`; `nameMemory` tells whether the pool had memory for the name. -/
def fsOpenFile (files : FileSystem) (name : WideString) (nameMemory : Bool) :
    NtStatus × Option Nat × FileSystem :=
  match findOpenFile files name with
  | some fd => (statusSuccess, some fd, files)
  | none =>
      match files.disk.bind fun disk => fsFindFile disk name with
      | none => (statusNoSuchFile, none, files)
      | some entry =>
          match freeDescriptor files with
          | none => (statusInsufficientResources, none, files)
          | some fd =>
              if nameMemory then
                (statusSuccess, some fd, files.setOpenFile fd ⟨true, name, ⟨0, entry⟩⟩)
              else (statusNoMemory, none, files.setOpenFile fd ⟨false, [], ⟨0, 0⟩⟩)

/-- The objects and the file system. -/
structure Kernel where
  objects : SystemObjects
  files : FileSystem

/-- What `NtCreateFile` returns, and what it puts into the caller's status block. -/
structure CreateAnswer where
  status : NtStatus
  handle : Option Handle
  ioStatus : Option IoStatus

/-- `ObInsertHandle` on the address of a file object. -/
def insertFile (kernel : Kernel) (file : Address) : NtStatus × Option Handle × Kernel :=
  let (status, handle, manager) := obInsertHandle kernel.objects.manager file
  (status, handle, { kernel with objects := { kernel.objects with manager := manager } })

/-- The branch of `NtCreateFile` that creates the file. `fileMemory` is the pool's
answer to `ExAllocatePool`. -/
def createNewFile (kernel : Kernel) (name : WideString) (fileMemory : Option Address) :
    CreateAnswer × Kernel :=
  match kernel.files.disk.bind fun disk => fsCreateFileEntry disk name 0 with
  | none => (⟨statusDiskFull, none, some ⟨statusDiskFull, 0⟩⟩, kernel)
  | some (_, disk) =>
      let kernel := { kernel with files := { kernel.files with disk := some disk } }
      match fileMemory with
      | none => (⟨statusNoMemory, none, some ⟨statusNoMemory, 0⟩⟩, kernel)
      | some file =>
          let (status, handle, kernel) := insertFile kernel file
          if ntSuccess status then
            (⟨status, handle, some ⟨statusSuccess, fileCreated⟩⟩, kernel)
          else (⟨status, none, none⟩, kernel)

/-- `NtCreateFile`, with the name that is passed in `EaBuffer`. -/
def ntCreateFile (kernel : Kernel) (outFileHandle : Bool) (name : WideString)
    (createDisposition : Nat) (nameMemory : Bool) (fileMemory : Option Address) :
    CreateAnswer × Kernel :=
  if outFileHandle = false then (⟨statusInvalidParameter, none, none⟩, kernel)
  else
    match fsOpenFile kernel.files name nameMemory with
    | (status, none, files) =>
        let kernel := { kernel with files := files }
        if createDisposition = fileCreate ∨ createDisposition = fileOpenIf then
          createNewFile kernel name fileMemory
        else (⟨status, none, some ⟨status, 0⟩⟩, kernel)
    | (_, some fd, files) =>
        let (status, handle, kernel) :=
          insertFile { kernel with files := files } (files.fileObject fd)
        if ntSuccess status then (⟨statusSuccess, handle, some ⟨statusSuccess, 0⟩⟩, kernel)
        else (⟨status, none, some ⟨status, 0⟩⟩, kernel)

inductive KernelCall where
  | createFile (outFileHandle : Bool) (name : WideString) (createDisposition : Nat)
      (nameMemory : Bool) (fileMemory : Option Address)
  | createEvent (eventHandle : Bool) (objectAttributes : Option (Option (List Cm.WChar)))
      (eventType : Nat) (initialState : Bool) (memory : Option Address)
  | createPort (outPortHandle : Bool) (portName : Option (List Cm.WChar))
      (memory : Option Address)
  | connectPort (outPortHandle : Bool) (serverPortName : Option (List Cm.WChar))
      (memory : Option Address)
  | insertHandle (body : Address)
  | close (handle : Handle)
deriving DecidableEq, Repr

def Kernel.withObjects (kernel : Kernel) (answer : NtStatus × Option Handle × SystemObjects) :
    Kernel :=
  { kernel with objects := answer.2.2 }

def Kernel.withManager (kernel : Kernel) (manager : ObjectManager) : Kernel :=
  { kernel with objects := { kernel.objects with manager := manager } }

def kernelCall (kernel : Kernel) : KernelCall → Except BugCheck Kernel
  | .createFile outFileHandle name createDisposition nameMemory fileMemory =>
      .ok (ntCreateFile kernel outFileHandle name createDisposition nameMemory fileMemory).2
  | .createEvent eventHandle objectAttributes eventType initialState memory =>
      (ntCreateEvent kernel.objects eventHandle objectAttributes eventType initialState memory).map
        kernel.withObjects
  | .createPort outPortHandle portName memory =>
      (ntCreatePort kernel.objects outPortHandle portName memory).map kernel.withObjects
  | .connectPort outPortHandle serverPortName memory =>
      (ntConnectPort kernel.objects outPortHandle serverPortName memory).map kernel.withObjects
  | .insertHandle body =>
      .ok (kernel.withManager (obInsertHandle kernel.objects.manager body).2.2)
  | .close handle =>
      (obCloseHandle kernel.objects.manager handle).map fun answer => kernel.withManager answer.2

def kernelStep (kernel : Kernel) (call : KernelCall) : Option Kernel :=
  (kernelCall kernel call).toOption

/-- The pool hands out memory that is not in use for objects, and a caller of
`ObInsertHandle` has the body of an object. -/
def ObjectsPassed (kernel : Kernel) : KernelCall → Prop
  | .createFile _ _ _ _ memory | .createEvent _ _ _ _ memory | .createPort _ _ memory
  | .connectPort _ _ memory => ∀ body ∈ memory, body ≠ 0 ∧ body ∉ kernel.objects.manager.live
  | .insertHandle body => body ∈ kernel.objects.manager.live
  | .close _ => True

/-- The file is open already, or it is in the directory and there are a
descriptor and memory for its name. -/
def Opens (files : FileSystem) (name : WideString) (nameMemory : Bool) : Prop :=
  (findOpenFile files name).isSome ∨
    (files.disk.bind fun disk => fsFindFile disk name).isSome ∧
      (freeDescriptor files).isSome ∧ nameMemory = true

/-- There is no disk, or no slot of its directory is empty. -/
def DirectoryFull (files : FileSystem) : Prop :=
  ∀ disk ∈ files.disk, ∀ slot < rootEntryCount, emptySlot disk slot = false

/-- `NtCreateFile` gets as far as the handle of a file. -/
def ReachesHandle (kernel : Kernel) (name : WideString) (createDisposition : Nat)
    (nameMemory : Bool) (fileMemory : Option Address) : Prop :=
  Opens kernel.files name nameMemory ∨
    (createDisposition = fileCreate ∨ createDisposition = fileOpenIf) ∧
      ¬ DirectoryFull kernel.files ∧ fileMemory.isSome

def HandleTableFull (kernel : Kernel) : Prop :=
  ∀ slot < obpHandleTableSize, kernel.objects.manager.handleTable slot ≠ none

/-- No call of `NtCreateFile` makes a handle. -/
def NoFileHandle (kernel : Kernel) (call : KernelCall) : Prop :=
  ObjectsPassed kernel call ∧
    match call with
    | .createFile outFileHandle name createDisposition nameMemory fileMemory =>
        outFileHandle = true →
          ReachesHandle kernel name createDisposition nameMemory fileMemory →
          HandleTableFull kernel
    | _ => True

/-- Every body in the handle table is that of an object created and not deleted,
so that the header in front of it is the object's own. -/
def HandlesReferToObjects (kernel : Kernel) : Prop :=
  ∀ slot < obpHandleTableSize, ∀ body, kernel.objects.manager.handleTable slot = some body →
    body ∈ kernel.objects.manager.live

def Kernel.init (memory : Address → ObjectHeader) (deleteProcedures : Nat → Bool)
    (events : Address → KEvent) (ports : Address → LpcPort) (files : FileSystem) : Kernel :=
  ⟨⟨obInitSystem memory deleteProcedures, events, ports⟩, files⟩

variable {kernel : Kernel}

theorem firstFree_of_full (full : HandleTableFull kernel) :
    HandleTable.firstFree obpHandleTableSize kernel.objects.manager.handleTable = none := by
  cases found : HandleTable.firstFree obpHandleTableSize kernel.objects.manager.handleTable with
  | none => rfl
  | some slot =>
    obtain ⟨inside, free⟩ := HandleTable.firstFree_free found
    exact absurd free (full slot inside)

theorem insertFile_full (full : HandleTableFull kernel) (files : FileSystem)
    (file : Address) : insertFile { kernel with files := files } file =
      (statusInsufficientResources, none, { kernel with files := files }) := by
  unfold insertFile
  rw [insertHandle_full (firstFree_of_full full)]

variable {files : FileSystem}

theorem fsOpenFile_none {name : WideString} {nameMemory : Bool}
    (cannot : ¬ Opens files name nameMemory) : (fsOpenFile files name nameMemory).2.1 = none := by
  unfold Opens at cannot
  unfold fsOpenFile
  rw [not_or] at cannot
  rw [Option.not_isSome_iff_eq_none.mp cannot.1]
  cases entry : files.disk.bind fun disk => fsFindFile disk name with
  | none => rfl
  | some slot =>
    cases descriptor : freeDescriptor files with
    | none => rfl
    | some fd =>
      rw [entry, descriptor] at cannot
      cases nameMemory with
      | false => rfl
      | true => exact absurd ⟨rfl, rfl, rfl⟩ cannot.2

theorem fsOpenFile_disk (files : FileSystem) (name : WideString) (nameMemory : Bool) :
    (fsOpenFile files name nameMemory).2.2.disk = files.disk := by
  unfold fsOpenFile
  split
  · rfl
  split
  · rfl
  split
  · rfl
  split
  · rfl
  · rfl

theorem fsCreateFileEntry_full (full : DirectoryFull files)
    (name : WideString) : (files.disk.bind fun disk => fsCreateFileEntry disk name 0) = none := by
  cases mounted : files.disk with
  | none => rfl
  | some disk =>
    have empty : (range rootEntryCount).find? (emptySlot disk) = none := by
      rw [find?_eq_none]
      intro slot member
      rw [full disk mounted slot (mem_range.mp member)]
      exact Bool.false_ne_true
    rw [Option.bind_some, fsCreateFileEntry, empty, Option.map_none]

theorem createNewFile_of_full (full : HandleTableFull kernel)
    (files : FileSystem) (name : WideString) (fileMemory : Option Address) :
    (createNewFile { kernel with files := files } name fileMemory).2.objects =
      kernel.objects := by
  unfold createNewFile
  split
  · rfl
  dsimp only
  split
  · rfl
  · rw [insertFile_full full]
    dsimp only
    split
    · rfl
    · rfl

theorem createNewFile_of_none (kernel : Kernel) {fileMemory : Option Address}
    (without : DirectoryFull files ∨ fileMemory = none) (name : WideString) :
    (createNewFile { kernel with files := files } name fileMemory).2.objects =
      kernel.objects := by
  unfold createNewFile
  rcases without with full | none
  · rw [fsCreateFileEntry_full full]
  · rw [none]
    split
    · rfl
    · rfl

/-- A call that gives no handle leaves the objects alone. -/
theorem ntCreateFile_objects {outFileHandle : Bool} {name : WideString}
    {createDisposition : Nat} {nameMemory : Bool} {fileMemory : Option Address}
    (noHandle : outFileHandle = true →
      ReachesHandle kernel name createDisposition nameMemory fileMemory → HandleTableFull kernel) :
    (ntCreateFile kernel outFileHandle name createDisposition nameMemory fileMemory).2.objects =
      kernel.objects := by
  unfold ntCreateFile
  split
  · rfl
  rename_i wanted
  rw [Bool.not_eq_false] at wanted
  have disk := fsOpenFile_disk kernel.files name nameMemory
  rcases opened : fsOpenFile kernel.files name nameMemory with ⟨status, found, files⟩
  rw [opened] at disk
  cases found with
  | none =>
    dsimp only
    split
    · rename_i creates
      by_cases full : HandleTableFull kernel
      · exact createNewFile_of_full full files name fileMemory
      · have stops : ¬ (¬ DirectoryFull kernel.files ∧ fileMemory.isSome) := fun reaches =>
          full (noHandle wanted (.inr ⟨creates, reaches⟩))
        rw [not_and_or, not_not, Option.not_isSome_iff_eq_none] at stops
        have sameDisk : DirectoryFull files ↔ DirectoryFull kernel.files := by
          unfold DirectoryFull
          rw [disk]
        exact createNewFile_of_none kernel (stops.imp_left sameDisk.mpr) name
    · rfl
  | some fd =>
    have opens : Opens kernel.files name nameMemory := by
      by_contra cannot
      have none := fsOpenFile_none cannot
      rw [opened] at none
      cases none
    have full := noHandle wanted (.inl opens)
    dsimp only
    rw [insertFile_full full]
    dsimp only
    split
    · rfl
    · rfl

/-- The objects are accounted for, with what creators have not dropped. -/
def ObjectsSound (kernel : Kernel) : Prop :=
  ∃ held, Accounts kernel.objects.manager held ∧ held.Nodup

theorem withManager_manager (kernel : Kernel) (manager : ObjectManager) :
    (kernel.withManager manager).objects.manager = manager := rfl

/-- Calls without file handles keep the objects sound. -/
theorem ObjectsSound.step {kernel next : Kernel} (sound : ObjectsSound kernel) {call : KernelCall}
    (meets : NoFileHandle kernel call) (done : kernelStep kernel call = some next) :
    ObjectsSound next := by
  obtain ⟨held, accounts, once⟩ := sound
  obtain ⟨passed, noHandle⟩ := meets
  have few : Few held := fun body =>
    (nodup_iff_count_le_one.mp once body).trans (by decide)
  cases call with
  | createFile outFileHandle name createDisposition nameMemory fileMemory =>
    cases done
    unfold ObjectsSound
    rw [ntCreateFile_objects noHandle]
    exact ⟨held, accounts, once⟩
  | createEvent eventHandle objectAttributes eventType initialState memory =>
    obtain ⟨status, handle, after, answered, outcome⟩ := ntCreateEvent_outcome
      accounts few eventHandle objectAttributes eventType initialState passed
    rw [kernelStep, kernelCall, answered] at done
    cases done
    exact outcome.sound accounts.heldLive passed once
  | createPort outPortHandle portName memory =>
    obtain ⟨status, handle, after, answered, outcome⟩ :=
      ntCreatePort_outcome accounts few outPortHandle portName passed
    rw [kernelStep, kernelCall, answered] at done
    cases done
    exact outcome.sound accounts.heldLive passed once
  | connectPort outPortHandle serverPortName memory =>
    obtain ⟨status, handle, after, answered, outcome⟩ :=
      ntConnectPort_outcome accounts few outPortHandle serverPortName passed
    rw [kernelStep, kernelCall, answered] at done
    cases done
    exact outcome.sound accounts.heldLive passed once
  | insertHandle body =>
    have live : body ∈ kernel.objects.manager.live := passed
    have inserted : Accounts (obInsertHandle kernel.objects.manager body).2.2 held :=
      accounts.insertHandle (few.room _ 0 0).mono.mono live
    have same : kernel.withManager (obInsertHandle kernel.objects.manager body).2.2 = next :=
      Option.some.inj done
    rw [← same, ObjectsSound, withManager_manager]
    exact ⟨held, inserted, once⟩
  | close handle =>
    obtain ⟨status, after, answered, kept⟩ := accounts.closeHandle handle
    rw [kernelStep, kernelCall, answered] at done
    cases done
    exact ⟨held, kept, once⟩

/-- The handles of a run refer to objects as long as `NtCreateFile` makes none. -/
theorem handles_referToObjects (memory : Address → ObjectHeader) (deleteProcedures : Nat → Bool)
    (events : Address → KEvent) (ports : Address → LpcPort) (files : FileSystem) (kernel : Kernel)
    (run : Reaches kernelStep NoFileHandle (.init memory deleteProcedures events ports files)
      kernel) : HandlesReferToObjects kernel := by
  have sound : ObjectsSound kernel := run.invariant ⟨[], .init memory deleteProcedures, nodup_nil⟩
    (fun _ _ _ sound meets done => sound.step meets done)
  obtain ⟨held, accounts, _⟩ := sound
  intro slot inside body taken
  exact accounts.slotsLive body (HandleTable.mem_occupants.mpr ⟨slot, inside, taken⟩)

/-- A RAM disk of one megabyte that has just been set up, and no open files. -/
def FileSystem.fresh : FileSystem where
  disk := some (formatRamDisk (fun _ => 0) 1)
  openFiles := fun _ => ⟨false, [], ⟨0, 0⟩⟩
  fsFileTable := 4096#64

/-- The kernel over memory of zeros. -/
def Kernel.fresh : Kernel :=
  .init (fun _ => ⟨0, 0, none, [], 0⟩) (fun _ => false) (fun _ => ⟨0, false⟩)
    (fun _ => ⟨0, [], none, none, false, 0⟩) .fresh

set_option maxRecDepth 8192 in
/-- A file that is not there is not opened, and an event gets a handle. -/
theorem handles_referToObjects_event : ∃ kernel : Kernel,
    kernel.objects.manager.live = [8#64] ∧ HandlesReferToObjects kernel := by
  have initial : Reaches kernelStep NoFileHandle .fresh _ := .start
  have absent : NoFileHandle .fresh (.createFile true [0x41] 1 true none) := by
    refine ⟨(fun _ same => by cases same), fun _ reaches => ?_⟩
    rcases reaches with opens | ⟨_, _, given⟩
    · have found : (findOpenFile FileSystem.fresh [0x41]).isSome = false := rfl
      have entry : (FileSystem.fresh.disk.bind fun disk => fsFindFile disk [0x41]).isSome =
          false := rfl
      rcases opens with already | ⟨listed, _⟩
      · exact absurd (found.symm.trans already) Bool.false_ne_true
      · exact absurd (entry.symm.trans listed) Bool.false_ne_true
    · cases given
  have refused := initial.step absent rfl
  have created := refused.step (show NoFileHandle _ (.createEvent true none 0 false (some 8#64))
    from ⟨fun body same => by
      cases same
      exact ⟨by decide, not_mem_nil⟩, trivial⟩) rfl
  exact ⟨_, rfl, handles_referToObjects _ _ _ _ _ _ created⟩

set_option maxRecDepth 8192 in
/-- A new file gets a handle whose slot holds no object. -/
theorem handles_referToFile : ∃ kernel, Reaches kernelStep ObjectsPassed .fresh kernel ∧
    ¬ HandlesReferToObjects kernel := by
  have initial : Reaches kernelStep ObjectsPassed .fresh _ := .start
  have created := initial.step (show ObjectsPassed _
    (.createFile true [0x41] fileCreate true (some 800#64)) from fun body same => by
      cases same
      exact ⟨by decide, not_mem_nil⟩) rfl
  refine ⟨_, created, fun refers => ?_⟩
  have live : 800#64 ∈ ([] : List Address) := refers 0 (by decide) 800#64 rfl
  cases live

end MinNT.Fs
