import MinNT.Lib.ByteMemory
import MinNT.NtStatus

open ByteMemory

namespace MinNT.UsbMass

def statusIoDeviceError : NtStatus := 0xC0000185#32

def usbBotCbwSignature : Nat := 0x43425355
def usbBotCswSignature : Nat := 0x53425355

/-- `BOT_CBW`. -/
structure Cbw where
  signature : Nat
  tag : BitVec 32
  dataTransferLength : Nat
  flags : UInt8
  lun : UInt8
  cbLength : UInt8
  cb : List UInt8
deriving DecidableEq, Repr

/-- The packed structure; what `cb` leaves of its sixteen bytes is zero. -/
def Cbw.bytes (cbw : Cbw) : List UInt8 :=
  encodeLE 4 cbw.signature ++ encodeLE 4 cbw.tag.toNat ++ encodeLE 4 cbw.dataTransferLength ++
    [cbw.flags, cbw.lun, cbw.cbLength] ++ cbw.cb ++ List.replicate (16 - cbw.cb.length) 0

/-- `BOT_CSW`. -/
structure Csw where
  signature : Nat
  tag : Nat
  dataResidue : Nat
  status : UInt8
deriving DecidableEq, Repr

def Csw.decode (bytes : ByteMemory) : Csw where
  signature := load bytes 4 0
  tag := load bytes 4 4
  dataResidue := load bytes 4 8
  status := bytes 12

/-- `SCSI_READ10` and `SCSI_WRITE10`, as filled in by their callers. -/
def command10 (opcode : UInt8) (lba : BitVec 64) (count : BitVec 32) : List UInt8 :=
  [opcode, 0, UInt8.ofNat (lba.toNat / 2 ^ 24), UInt8.ofNat (lba.toNat / 2 ^ 16),
    UInt8.ofNat (lba.toNat / 2 ^ 8), UInt8.ofNat lba.toNat, 0, UInt8.ofNat (count.toNat / 2 ^ 8),
    UInt8.ofNat count.toNat, 0]

/-- The arguments of `USB_HCD_BULK_TRANSFER`, with the bytes that an OUT transfer is
given. -/
structure Request where
  devAddr : UInt8
  ep : UInt8
  speed : UInt8
  len : Nat
  isIn : Bool
  bytes : List UInt8
deriving DecidableEq, Repr

/-- Its status, its `actual`, and what the buffer of an IN transfer holds afterwards. -/
structure Answer where
  status : NtStatus
  actual : BitVec 32
  data : ByteMemory

structure Exchange where
  request : Request
  answer : Answer

/-- How the host controller and the device answer a transfer, after those before it. -/
abbrev Endpoints := List Exchange → Request → Answer

def Endpoints.bulkTransfer (endpoints : Endpoints) (history : List Exchange) (request : Request) :
    Exchange :=
  ⟨request, endpoints history request⟩

/-- `USB_MASS_DISK`. -/
structure Disk where
  deviceAddress : UInt8
  bulkInEndpoint : UInt8
  bulkOutEndpoint : UInt8
  speed : UInt8
  blockSize : BitVec 32
deriving DecidableEq, Repr

/-- The status of a command, `g_BotTag` and the caller's buffer afterwards, and the
transfers that were made. -/
structure Outcome where
  status : NtStatus
  botTag : BitVec 32
  buffer : Option ByteMemory
  exchanges : List Exchange

/-- A transfer of the data, if there is any and somewhere for it. -/
def dataRequest (devAddr ep speed : UInt8) (dataBuffer : Option ByteMemory) (dataLength : Nat)
    (isDataIn : Bool) : Option Request :=
  match dataBuffer with
  | none => none
  | some buffer =>
      if 0 < dataLength then
        some ⟨devAddr, ep, speed, dataLength, isDataIn,
          if isDataIn then [] else buffer.read 0 dataLength⟩
      else none

/-- The test of the status wrapper. -/
def checkCsw (csw : Csw) (tag : BitVec 32) : NtStatus :=
  if csw.signature ≠ usbBotCswSignature then statusIoDeviceError
  else if csw.tag ≠ tag.toNat then statusIoDeviceError
  else if csw.status ≠ 0 then statusIoDeviceError
  else statusSuccess

/-- The data phase: its transfer, and the buffer afterwards. -/
def dataPhase (endpoints : Endpoints) (history : List Exchange) (dataBuffer : Option ByteMemory) :
    Option Request → Option Exchange × Option ByteMemory
  | none => (none, dataBuffer)
  | some request =>
      let moved := endpoints.bulkTransfer history request
      (some moved,
        if request.isIn then
          dataBuffer.map fun buffer => buffer.write 0 (moved.answer.data.read 0 request.len)
        else dataBuffer)

def Exchange.succeeds (exchange : Exchange) : Bool := ntSuccess exchange.answer.status

/-- The phase of the status wrapper. -/
def statusPhase (endpoints : Endpoints) (tag : BitVec 32) (devAddr speed bulkInEp : UInt8)
    (dataBuffer : Option ByteMemory) (history : List Exchange) : Outcome :=
  let received := endpoints.bulkTransfer history ⟨devAddr, bulkInEp, speed, 13, true, []⟩
  if received.succeeds = false ∨ received.answer.actual ≠ 13 then
    ⟨received.answer.status, tag, dataBuffer, history ++ [received]⟩
  else
    ⟨checkCsw (Csw.decode received.answer.data) tag, tag, dataBuffer, history ++ [received]⟩

/-- `UsbMassBotCommand`; `cb` is the `CbLength` bytes at `Cb`. -/
def usbMassBotCommand (endpoints : Endpoints) (botTag : BitVec 32)
    (devAddr speed bulkInEp bulkOutEp : UInt8) (cb : List UInt8) (dataBuffer : Option ByteMemory)
    (dataLength : Nat) (isDataIn : Bool) : Outcome :=
  let cb := cb.take 16
  if cb.length = 0 then ⟨statusInvalidParameter, botTag, dataBuffer, []⟩
  else
    let tag := botTag + 1
    let cbw : Cbw := ⟨usbBotCbwSignature, tag, dataLength, if isDataIn then 0x80 else 0, 0,
      UInt8.ofNat cb.length, cb⟩
    let sent := endpoints.bulkTransfer [] ⟨devAddr, bulkOutEp, speed, 31, false, cbw.bytes⟩
    if sent.succeeds = false ∨ sent.answer.actual ≠ 31 then
      ⟨sent.answer.status, tag, dataBuffer, [sent]⟩
    else
      let phase := dataPhase endpoints [sent] dataBuffer
        (dataRequest devAddr (if isDataIn then bulkInEp else bulkOutEp) speed dataBuffer dataLength
          isDataIn)
      let history := [sent] ++ phase.1.toList
      match phase.1.filter fun exchange => !exchange.succeeds with
      | some failed => ⟨failed.answer.status, tag, phase.2, history⟩
      | none => statusPhase endpoints tag devAddr speed bulkInEp phase.2 history

/-- `g_UsbMassDisks` up to `g_UsbMassDiskCount`, and `g_BotTag`. -/
structure Driver where
  disks : List Disk
  botTag : BitVec 32

/-- A command on sectors of a disk. -/
def sectorsCommand (opcode : UInt8) (isIn : Bool) (endpoints : Endpoints) (driver : Driver)
    (diskNumber : Nat) (lba : BitVec 64) (count : BitVec 32) (buffer : Option ByteMemory) :
    Outcome :=
  match driver.disks[diskNumber]? with
  | none => ⟨statusDeviceDoesNotExist, driver.botTag, buffer, []⟩
  | some d =>
      usbMassBotCommand endpoints driver.botTag d.deviceAddress d.speed d.bulkInEndpoint
        d.bulkOutEndpoint (command10 opcode lba count) buffer (count * d.blockSize).toNat isIn

def usbMassReadSectors : Endpoints → Driver → Nat → BitVec 64 → BitVec 32 → Option ByteMemory →
    Outcome :=
  sectorsCommand 0x28 true

def usbMassWriteSectors : Endpoints → Driver → Nat → BitVec 64 → BitVec 32 → Option ByteMemory →
    Outcome :=
  sectorsCommand 0x2A false

end MinNT.UsbMass
