import Mathlib.Data.List.Range
import Mathlib.Logic.Function.Basic
import MinNT.Drivers.DmaBuffers

namespace MinNT.Ahci

open ByteMemory MinNT.Mm MinNT.Dma

def ahciMaxPorts : Nat := 32

/-- `AHCI_CONTROLLER`. -/
structure Controller where
  numPorts : Nat
  /-- `ports[i].attached`. -/
  attached : Nat → Bool

/-- `AhciInitController`, by the ports implemented and by the ports at which
`AhciInitPort` finds a disk. -/
def ahciInitController (pi : BitVec 32) (found : Nat → Bool) : Controller where
  numPorts := (List.range 32).countP fun i => pi.getLsbD i
  attached := fun i => pi.getLsbD i && found i

/-- A port, by the place of its controller in the list. -/
structure PortAddress where
  controller : Nat
  index : Nat
deriving DecidableEq, Repr

def ahciGetFirstPort : List Controller → Option PortAddress
  | [] => none
  | ctl :: _ => ((List.range ahciMaxPorts).find? ctl.attached).map fun i => ⟨0, i⟩

/-- The loop over the ports of a controller: the port, and `idx`. -/
def searchPorts (ctl : Controller) (diskNumber : Nat) : Nat → Nat → Nat → Option Nat × Nat
  | 0, _, idx => (none, idx)
  | left + 1, i, idx =>
      if ctl.attached i then
        if idx = diskNumber then (some i, idx)
        else searchPorts ctl diskNumber left (i + 1) (idx + 1)
      else searchPorts ctl diskNumber left (i + 1) idx

/-- The loop over the controllers. -/
def searchControllers (diskNumber : Nat) : List Controller → Nat → Nat → Option PortAddress
  | [], _, _ => none
  | ctl :: rest, position, idx =>
      match searchPorts ctl diskNumber ctl.numPorts 0 idx with
      | (some i, _) => some ⟨position, i⟩
      | (none, idx) => searchControllers diskNumber rest (position + 1) idx

def ahciGetPortByIndex (controllers : List Controller) (diskNumber : Nat) : Option PortAddress :=
  searchControllers diskNumber controllers 0 0

def ahciGetDiskCount (controllers : List Controller) : Nat :=
  controllers.foldl
    (fun count ctl =>
      (List.range ctl.numPorts).foldl (fun count i => if ctl.attached i then count + 1 else count)
        count)
    0

/-- The controllers, their disks, and the memory with the window for DMA buffers. -/
structure Machine where
  controllers : List Controller
  disks : PortAddress → ByteMemory
  dma : AhciDma
  cr3 : Nat

def Machine.memory (m : Machine) : ByteMemory := m.dma.mm.memory

def Machine.withMemory (m : Machine) (memory : ByteMemory) : Machine :=
  { m with dma := m.dma.withMm { m.dma.mm with memory := memory } }

/-- `RtlCopyMemory` to virtual addresses. -/
def storeVirtual (cr3 : Nat) : Nat → List UInt8 → ByteMemory → Except Stopped ByteMemory
  | _, [], memory => .ok memory
  | va, byte :: bytes, memory =>
      match physicalAt memory cr3 va with
      | none => .error (.pageFault va)
      | some pa => storeVirtual cr3 (va + 1) bytes (memory.write pa [byte])

/-- `RtlCopyMemory` from virtual addresses. -/
def loadVirtual (cr3 : Nat) (memory : ByteMemory) : Nat → Nat → Except Stopped (List UInt8)
  | _, 0 => .ok []
  | va, count + 1 =>
      match physicalAt memory cr3 va with
      | none => .error (.pageFault va)
      | some pa => (loadVirtual cr3 memory (va + 1) count).map (memory pa :: ·)

/-- `FIS_REG_H2D`. -/
structure Fis where
  command : UInt8
  lba0 : UInt8
  lba1 : UInt8
  lba2 : UInt8
  lba3 : UInt8
  lba4 : UInt8
  lba5 : UInt8
  countLo : UInt8
  countHi : UInt8
deriving DecidableEq, Repr

def ataCmdReadDmaExt : UInt8 := 0x25
def ataCmdWriteDmaExt : UInt8 := 0x35

/-- The assignments to the fields of a FIS. -/
def commandFis (command : UInt8) (lba count : Nat) : Fis where
  command := command
  lba0 := UInt8.ofNat lba
  lba1 := UInt8.ofNat (lba / 2 ^ 8)
  lba2 := UInt8.ofNat (lba / 2 ^ 16)
  lba3 := UInt8.ofNat (lba / 2 ^ 24)
  lba4 := UInt8.ofNat (lba / 2 ^ 32)
  lba5 := UInt8.ofNat (lba / 2 ^ 40)
  countLo := UInt8.ofNat count
  countHi := UInt8.ofNat (count / 2 ^ 8)

/-- The first sector of a command. -/
def Fis.lba (fis : Fis) : Nat :=
  decodeLE [fis.lba0, fis.lba1, fis.lba2, fis.lba3, fis.lba4, fis.lba5]

/-- The number of sectors of a command; a disk takes zero as 65536. -/
def Fis.count (fis : Fis) : Nat :=
  if decodeLE [fis.countLo, fis.countHi] = 0 then 65536 else decodeLE [fis.countLo, fis.countHi]

/-- The disk at a port carries out a command, with the one region at `prdAddr`. -/
def carryOut (m : Machine) (port : PortAddress) (fis : Fis) (prdAddr : Nat) : Machine :=
  if fis.command = ataCmdReadDmaExt then
    m.withMemory (m.memory.write prdAddr ((m.disks port).read (fis.lba * 512) (fis.count * 512)))
  else if fis.command = ataCmdWriteDmaExt then
    { m with
      disks := Function.update m.disks port
        ((m.disks port).write (fis.lba * 512) (m.memory.read prdAddr (fis.count * 512))) }
  else m

/-- `AhciIssueCommand`, by whether the command completes before the driver gives up. -/
def ahciIssueCommand (completes : Bool) (m : Machine) (port : PortAddress) (fis : Fis)
    (prdAddr : Nat) : NtStatus × Machine :=
  if completes then (statusSuccess, carryOut m port fis prdAddr) else (statusIoTimeout, m)

/-- A status, with the machine and the caller's buffer afterwards. -/
structure Outcome where
  status : NtStatus
  machine : Machine
  buffer : ByteMemory

/-- `AhciReadSectors`. The addresses of `dma_buf` and `dma_phys` are not null. -/
def ahciReadSectors (completes : Bool) (m : Machine) (lba count : Nat) (buffer : ByteMemory) :
    Except Stopped Outcome :=
  match ahciGetFirstPort m.controllers with
  | none => .ok ⟨statusDeviceDoesNotExist, m, buffer⟩
  | some port => do
      let count := if count > 256 then 256 else count
      let bufBytes := count * 512
      let (dmaBuf, dma) ← ahciAllocDmaBuffer m.dma m.cr3 bufBytes 1 1
      let m := { m with dma := dma }
      if ntSuccess dmaBuf.status then
        let (s, m) := ahciIssueCommand completes m port (commandFis ataCmdReadDmaExt lba count)
          dmaBuf.phys
        if ntSuccess s then
          let data ← loadVirtual m.cr3 m.memory dmaBuf.virt bufBytes
          .ok ⟨s, m, buffer.write 0 data⟩
        else .ok ⟨s, m, buffer⟩
      else .ok ⟨dmaBuf.status, m, buffer⟩

def ahciWriteSectors (completes : Bool) (m : Machine) (lba count : Nat) (buffer : ByteMemory) :
    Except Stopped Outcome :=
  match ahciGetFirstPort m.controllers with
  | none => .ok ⟨statusDeviceDoesNotExist, m, buffer⟩
  | some port => do
      let count := if count > 256 then 256 else count
      let bufBytes := count * 512
      let (dmaBuf, dma) ← ahciAllocDmaBuffer m.dma m.cr3 bufBytes 1 1
      let m := { m with dma := dma }
      if ntSuccess dmaBuf.status then
        let memory ← storeVirtual m.cr3 dmaBuf.virt (buffer.read 0 bufBytes) m.memory
        let (s, m) := ahciIssueCommand completes (m.withMemory memory) port
          (commandFis ataCmdWriteDmaExt lba count) dmaBuf.phys
        .ok ⟨s, m, buffer⟩
      else .ok ⟨dmaBuf.status, m, buffer⟩

def ahciReadSectorsEx (completes : Bool) (m : Machine) (diskNumber lba count : Nat)
    (buffer : ByteMemory) : Except Stopped Outcome :=
  match ahciGetPortByIndex m.controllers diskNumber with
  | none => .ok ⟨statusDeviceDoesNotExist, m, buffer⟩
  | some _ => ahciReadSectors completes m lba count buffer

def ahciWriteSectorsEx (completes : Bool) (m : Machine) (diskNumber lba count : Nat)
    (buffer : ByteMemory) : Except Stopped Outcome :=
  match ahciGetPortByIndex m.controllers diskNumber with
  | none => .ok ⟨statusDeviceDoesNotExist, m, buffer⟩
  | some _ => ahciWriteSectors completes m lba count buffer

end MinNT.Ahci
