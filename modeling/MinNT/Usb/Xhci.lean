import MinNT.Lib.CycleRing
import MinNT.Lib.Transition
import MinNT.NtStatus

namespace MinNT.Xhci

/-- `XHCI_TRB`, with its union as one word. -/
structure Trb where
  data : BitVec 64
  control : BitVec 32
  trbStatus : BitVec 32
deriving DecidableEq, Repr

def xhciTrbRingSize : Nat := 256

def trbTypeNormal : BitVec 32 := 1
def trbTypeSetupStage : BitVec 32 := 2
def trbTypeDataStage : BitVec 32 := 3
def trbTypeStatusStage : BitVec 32 := 4

def trbSuccess : BitVec 32 := 1
def trbShortPacket : BitVec 32 := 13

def trbCtrlCycle : BitVec 32 := 1#32 <<< 0
def trbCtrlIoc : BitVec 32 := 1#32 <<< 5
def trbCtrlDirIn : BitVec 32 := 1#32 <<< 16

def trbCtrlType (type : BitVec 32) : BitVec 32 := (type &&& 0x3F) <<< 10
def trbStatusLength (length : BitVec 32) : BitVec 32 := length &&& 0x1FFFF
def trbStatusTdSize (size : BitVec 32) : BitVec 32 := (size &&& 0x1F) <<< 17

def Trb.cycle (trb : Trb) : Bool := trb.control.getLsbD 0

/-- `TRB_CTRL_GET_TYPE`. -/
def Trb.type (trb : Trb) : BitVec 32 := (trb.control >>> 10) &&& 0x3F

/-- `TRB_EVENT_COMP_CODE`. -/
def Trb.compCode (trb : Trb) : BitVec 32 := (trb.control >>> 24) &&& 0xFF

/-- `TRB_STATUS_GET_LENGTH`. -/
def Trb.transferred (trb : Trb) : BitVec 32 := trb.trbStatus &&& 0x1FFFF

def Trb.withCycle (trb : Trb) (cycle : Bool) : Trb :=
  { trb with
    control := if cycle then trb.control ||| trbCtrlCycle else trb.control &&& ~~~trbCtrlCycle }

theorem cycle_withCycle (trb : Trb) (cycle : Bool) : (trb.withCycle cycle).cycle = cycle := by
  cases cycle with
  | false => simp [Trb.cycle, Trb.withCycle, trbCtrlCycle]
  | true => simp [Trb.cycle, Trb.withCycle, trbCtrlCycle]

/-- `XHCI_DEVICE`. -/
structure Device where
  enabled : Bool
  address : BitVec 8
  ep0Ring : Option (Nat → Trb)
  ep0RingPhys : BitVec 64
  ep0EnqueueIdx : Nat
  ep0RingCycle : Bool

/-- The physical address of the next TRB of the ring. -/
def Device.trbPhys (device : Device) : BitVec 64 :=
  device.ep0RingPhys + BitVec.ofNat 64 (16 * device.ep0EnqueueIdx)

def Device.enqueue (device : Device) (trb : Trb) : Device :=
  let next := (device.ep0EnqueueIdx + 1) % xhciTrbRingSize
  { device with
    ep0Ring := device.ep0Ring.map fun ring =>
      Function.update ring device.ep0EnqueueIdx (trb.withCycle device.ep0RingCycle)
    ep0EnqueueIdx := next
    ep0RingCycle := if next = 0 then !device.ep0RingCycle else device.ep0RingCycle }

/-- The ring with some TRBs queued, and their physical addresses. -/
def Device.queue (device : Device) : List Trb → Device × List (BitVec 64)
  | [] => (device, [])
  | trb :: trbs =>
      let rest := (device.enqueue trb).queue trbs
      (rest.1, device.trbPhys :: rest.2)

/-- The stages of a control transfer; `setup` is the setup packet as one word, `data`
the physical address of the data. -/
def controlTrbs (setup : BitVec 64) (data : Option (BitVec 64)) (len : BitVec 16) (isIn : Bool) :
    List Trb :=
  [⟨setup, trbCtrlType trbTypeSetupStage ||| trbCtrlIoc, trbStatusLength 8⟩] ++
    (match data with
    | none => []
    | some phys =>
        if len = 0 then []
        else
          [⟨phys, trbCtrlType trbTypeDataStage ||| (if isIn then trbCtrlDirIn else 0) |||
            trbCtrlIoc, trbStatusLength (len.setWidth 32) ||| trbStatusTdSize 1⟩]) ++
    [⟨0, trbCtrlType trbTypeStatusStage ||| (if isIn then 0 else trbCtrlDirIn) ||| trbCtrlIoc, 0⟩]

def bulkTrbs (phys : BitVec 64) (len : BitVec 32) (isIn : Bool) : List Trb :=
  [⟨phys, trbCtrlType trbTypeNormal ||| (if isIn then trbCtrlDirIn else 0) ||| trbCtrlIoc,
    trbStatusLength len ||| trbStatusTdSize 1⟩]

inductive Kind where
  | control
  | bulk
deriving DecidableEq, Repr

/-- A transfer call: its length, whether it has an `Actual`, and the addresses of the
TRBs it queued. -/
structure Transfer where
  kind : Kind
  len : BitVec 32
  actual : Bool
  queued : List (BitVec 64)
deriving DecidableEq, Repr

/-- The completion codes that a transfer call takes as success. -/
def Transfer.completes (transfer : Transfer) (code : BitVec 32) : Prop :=
  code = trbSuccess ∨ transfer.kind = .bulk ∧ code = trbShortPacket

instance (transfer : Transfer) (code : BitVec 32) : Decidable (transfer.completes code) :=
  inferInstanceAs (Decidable (_ ∨ _ ∧ _))

/-- The call that the driver is in, with the turns its loop has left and, for a
transfer, the events it has consumed. -/
inductive Driver where
  | idle
  | polling (timeout : Nat)
  | waiting (transfer : Transfer) (timeout : Nat) (events : List Trb)
  /-- In a search that does not end, or behind a write through a NULL `Actual`. -/
  | lost

/-- What a call returned, the events it consumed, and its `*Actual`. -/
structure Result where
  transfer : Option Transfer
  status : NtStatus
  events : List Trb
  actual : Option (BitVec 32)

/-- `XHCI_CONTEXT`. The last three fields record the events that the controller has
written, those that the driver has consumed, and the results of the calls. -/
structure State where
  eventRing : Nat → Trb
  eventDequeueIdx : Nat
  eventRingCycle : Bool
  devices : Nat → Device
  maxSlots : Nat
  driver : Driver
  written : List Trb
  consumed : List Trb
  results : List Result

def State.event (s : State) : Trb := s.eventRing s.eventDequeueIdx

/-- The event at the dequeue index is consumed; the index wraps at a limit. -/
def State.advanceAt (s : State) (limit : Nat) : State :=
  { s with
    eventDequeueIdx := if limit ≤ s.eventDequeueIdx + 1 then 0 else s.eventDequeueIdx + 1
    eventRingCycle := if limit ≤ s.eventDequeueIdx + 1 then !s.eventRingCycle
      else s.eventRingCycle
    consumed := s.consumed ++ [s.event] }

/-- As `XhciPollEventRing` advances. -/
def State.advance (s : State) : State := s.advanceAt xhciTrbRingSize

/-- As a transfer call advances over an event without a completion code. -/
def State.advanceSkipped (s : State) : State := s.advanceAt (xhciTrbRingSize - 1)

/-- As a transfer call advances over a completion. -/
def State.advanceCompleted (s : State) : State :=
  let next := (s.eventDequeueIdx + 1) % xhciTrbRingSize
  { s with
    eventDequeueIdx := next
    eventRingCycle := if next = 0 then !s.eventRingCycle else s.eventRingCycle
    consumed := s.consumed ++ [s.event] }

def State.returns (s : State) (result : Result) : State :=
  { s with driver := .idle, results := s.results ++ [result] }

/-- The slots in the order of the search; its `UCHAR` goes on from 255 to 0. -/
def State.searched (s : State) : List Nat :=
  List.range' 1 s.maxSlots ++ if s.maxSlots = 255 then [0] else []

def State.findDevice (s : State) (devAddr : BitVec 8) : Option Nat :=
  s.searched.find? fun i => (s.devices i).enabled && (s.devices i).address == devAddr

/-- A transfer call finds its device and queues its TRBs. -/
def State.submit (s : State) (devAddr : BitVec 8) (kind : Kind) (len : BitVec 32) (actual : Bool)
    (trbs : List Trb) : State :=
  match s.findDevice devAddr with
  | none =>
      if s.maxSlots = 255 then { s with driver := .lost }
      else s.returns ⟨some ⟨kind, len, actual, []⟩, statusUnsuccessful, [], none⟩
  | some i =>
      match (s.devices i).ep0Ring with
      | none => s.returns ⟨some ⟨kind, len, actual, []⟩, statusUnsuccessful, [], none⟩
      | some _ =>
          let queued := (s.devices i).queue trbs
          { s with
            devices := Function.update s.devices i queued.1
            driver := .waiting ⟨kind, len, actual, queued.2⟩ 5000 [] }

/-- `XhciControlTransfer` up to its loop. -/
def controlTransfer (s : State) (devAddr : BitVec 8) (setup data : Option (BitVec 64))
    (len : BitVec 16) (isIn actual : Bool) : State :=
  match setup with
  | none =>
      s.returns ⟨some ⟨.control, len.setWidth 32, actual, []⟩, statusInvalidParameter, [], none⟩
  | some packet =>
      s.submit devAddr .control (len.setWidth 32) actual (controlTrbs packet data len isIn)

/-- `XhciBulkTransfer` up to its loop. -/
def bulkTransfer (s : State) (devAddr : BitVec 8) (data : Option (BitVec 64)) (len : BitVec 32)
    (isIn actual : Bool) : State :=
  match data with
  | none => s.returns ⟨some ⟨.bulk, len, actual, []⟩, statusInvalidParameter, [], none⟩
  | some phys =>
      if len = 0 then
        s.returns ⟨some ⟨.bulk, len, actual, []⟩, statusInvalidParameter, [], none⟩
      else s.submit devAddr .bulk len actual (bulkTrbs phys len isIn)

/-- One turn of the loop of `XhciPollEventRing`. -/
def State.pollTurn (s : State) (timeout : Nat) : State :=
  if s.event.cycle = s.eventRingCycle then
    s.advance.returns ⟨none, statusSuccess, [s.event], none⟩
  else { s with driver := .polling timeout }

/-- One turn of the loop of a transfer call. -/
def State.transferTurn (s : State) (transfer : Transfer) (timeout : Nat) (events : List Trb) :
    State :=
  if s.event.cycle = s.eventRingCycle then
    if transfer.completes s.event.compCode then
      if transfer.actual then
        s.advanceCompleted.returns ⟨some transfer, statusSuccess, events ++ [s.event],
          some (transfer.len - s.event.transferred)⟩
      else { s with driver := .lost }
    else if s.event.compCode ≠ 0 then
      s.advanceCompleted.returns ⟨some transfer, statusUnsuccessful, events ++ [s.event], none⟩
    else { s.advanceSkipped with driver := .waiting transfer timeout (events ++ [s.event]) }
  else { s with driver := .waiting transfer timeout events }

/-- One turn of the loop of the call that the driver is in. -/
def turn (s : State) : Option State :=
  match s.driver with
  | .idle => none
  | .lost => none
  | .polling 0 => some (s.returns ⟨none, statusIoTimeout, [], none⟩)
  | .polling (timeout + 1) => some (s.pollTurn timeout)
  | .waiting transfer 0 events =>
      some (s.returns ⟨some transfer, statusIoTimeout, events, none⟩)
  | .waiting transfer (timeout + 1) events => some (s.transferTurn transfer timeout events)

/-- The controller writes an event with the cycle bit of its lap. It does not write
over an event that is still to be consumed. -/
def controller (s : State) (trb : Trb) : Option State :=
  if s.written.length < s.consumed.length + xhciTrbRingSize then
    let event := trb.withCycle (lapMark xhciTrbRingSize s.written.length)
    some { s with
      eventRing := Function.update s.eventRing (s.written.length % xhciTrbRingSize) event
      written := s.written ++ [event] }
  else none

inductive Label where
  | controller (trb : Trb)
  | poll (timeoutMs : BitVec 32)
  | control (devAddr : BitVec 8) (setup data : Option (BitVec 64)) (len : BitVec 16)
      (isIn actual : Bool)
  | bulk (devAddr : BitVec 8) (data : Option (BitVec 64)) (len : BitVec 32) (isIn actual : Bool)
  | turn

def Driver.isIdle : Driver → Bool
  | .idle => true
  | _ => false

def step (s : State) : Label → Option State
  | .controller trb => controller s trb
  | .poll timeoutMs =>
      if s.driver.isIdle then some { s with driver := .polling (timeoutMs * 10).toNat } else none
  | .control devAddr setup data len isIn actual =>
      if s.driver.isIdle then some (controlTransfer s devAddr setup data len isIn actual) else none
  | .bulk devAddr data len isIn actual =>
      if s.driver.isIdle then some (bulkTransfer s devAddr data len isIn actual) else none
  | .turn => turn s

/-- What `XhciSetupEventRing` leaves, with any devices. -/
def setupEventRing (devices : Nat → Device) (maxSlots : Nat) : State where
  eventRing := fun _ => ⟨0, 0, 0⟩
  eventDequeueIdx := 0
  eventRingCycle := true
  devices := devices
  maxSlots := maxSlots
  driver := .idle
  written := []
  consumed := []
  results := []

end MinNT.Xhci
