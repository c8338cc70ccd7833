import MinNT.Lib.Ring
import MinNT.NtStatus

namespace MinNT.Win32k

structure W32kPoint where
  x : Int32
  y : Int32
deriving DecidableEq, Repr

structure W32kMsg where
  hwnd : UInt64
  message : UInt32
  wParam : UInt64
  lParam : Int64
  time : UInt32
  pt : W32kPoint
deriving DecidableEq, Repr

/-- The message that `RtlZeroMemory` leaves. -/
def zeroMsg : W32kMsg := ⟨0, 0, 0, 0, 0, ⟨0, 0⟩⟩

/-- `Head`, `Tail` and `Count` over the array `Messages`. The sums of the source
do not differ from these: both capacities divide 2 ^ 32. -/
abbrev MsgRing := RingBuffer W32kMsg

def zeroRing : MsgRing := ⟨fun _ => zeroMsg, 0, 0, 0⟩

/-- What a caller is told: the status and, if there is one, `*Msg`. -/
abbrev MsgReply := NtStatus × Option W32kMsg

def w32MsgqueueSize : Nat := 256
def pmRemove : UInt32 := 0x0001

/-- The window and the message range that a caller asks for. -/
structure MsgFilter where
  hWnd : UInt64
  msgFilterMin : UInt32
  msgFilterMax : UInt32
deriving DecidableEq, Repr

def win32kInitMessageQueue : MsgRing := zeroRing

def win32kMsgMatchesFilter (message msgFilterMin msgFilterMax : UInt32) : Bool :=
  if msgFilterMin = 0 ∧ msgFilterMax = 0 then true
  else decide (message ≥ msgFilterMin) && decide (message ≤ msgFilterMax)

/-- The two tests of `Win32kMsgQueueFind`. -/
def MsgFilter.accepts (filter : MsgFilter) (msg : W32kMsg) : Bool :=
  win32kMsgMatchesFilter msg.message filter.msgFilterMin filter.msgFilterMax &&
    !(decide (filter.hWnd ≠ 0) && decide (msg.hwnd ≠ filter.hWnd) && decide (msg.hwnd ≠ 0))

def win32kMsgQueueFind (queue : MsgRing) (filter : MsgFilter) (remove : Bool) :
    Option (W32kMsg × MsgRing) :=
  queue.find w32MsgqueueSize filter.accepts remove

/-- The contents of a message as a caller posts it. -/
structure PostedMsg where
  msg : UInt32
  wParam : UInt64
  lParam : Int64
deriving DecidableEq, Repr

/-- `Win32kQueuePostMessage`, with the `KeTickCount` it reads. -/
def win32kQueuePostMessage (queue : MsgRing) (hWnd : UInt64) (posted : PostedMsg)
    (keTickCount : UInt32) : NtStatus × MsgRing :=
  match queue.push w32MsgqueueSize
      (fun _ => ⟨hWnd, posted.msg, posted.wParam, posted.lParam, keTickCount, ⟨0, 0⟩⟩) with
  | none => (statusInsufficientResources, queue)
  | some queue => (statusSuccess, queue)

/-- One turn of the loop of `UserGetMessage`; without a reply the caller waits for
the event. `out` tells whether `Msg` is not `NULL`. -/
def userGetMessage (queue : MsgRing) (out : Bool) (filter : MsgFilter) :
    Option MsgReply × MsgRing :=
  if !out then (some (statusInvalidParameter, none), queue)
  else
    match win32kMsgQueueFind queue filter true with
    | none => (none, queue)
    | some (msg, queue) => (some (statusSuccess, some msg), queue)

def userPeekMessage (queue : MsgRing) (out : Bool) (filter : MsgFilter) (removeMsg : UInt32) :
    MsgReply × MsgRing :=
  if !out then ((statusInvalidParameter, none), queue)
  else
    match win32kMsgQueueFind queue filter (decide (removeMsg &&& pmRemove ≠ 0)) with
    | none => ((statusNoMoreEntries, none), queue)
    | some (msg, queue) => ((statusSuccess, some msg), queue)

inductive QueueCall where
  | post (hWnd : UInt64) (posted : PostedMsg) (keTickCount : UInt32)
  | peek (out : Bool) (filter : MsgFilter) (removeMsg : UInt32)
  | get (out : Bool) (filter : MsgFilter)
deriving DecidableEq, Repr

def queueCall (queue : MsgRing) : QueueCall → Option MsgReply × MsgRing
  | .post hWnd posted keTickCount =>
      let result := win32kQueuePostMessage queue hWnd posted keTickCount
      (some (result.1, none), result.2)
  | .peek out filter removeMsg =>
      let result := userPeekMessage queue out filter removeMsg
      (some result.1, result.2)
  | .get out filter => userGetMessage queue out filter

def maxThreadQueues : Nat := 32
def queueSize : Nat := 128

/-- `THREAD_MSG_QUEUE`. The messages are a ring here, and a list where the rings
are abstracted from. -/
structure ThreadMsgQueue (γ : Type) where
  threadId : UInt32
  messages : γ
  inUse : Bool

abbrev ThreadQueues (γ : Type) := Nat → ThreadMsgQueue γ

def queueInit : ThreadQueues MsgRing := fun _ => ⟨0, zeroRing, false⟩

/-- `QueueFindOrCreate`: the slot of a thread and the table with it. -/
def queueFindOrCreate {γ : Type} (empty : γ) (queues : ThreadQueues γ) (threadId : UInt32)
    (create : Bool) : Option (Nat × ThreadQueues γ) :=
  match (List.range maxThreadQueues).find? fun slot =>
      (queues slot).inUse && decide ((queues slot).threadId = threadId) with
  | some slot => some (slot, queues)
  | none =>
      if create then
        ((List.range maxThreadQueues).find? fun slot => !(queues slot).inUse).map fun freeSlot =>
          (freeSlot, Function.update queues freeSlot ⟨threadId, empty, true⟩)
      else none

def ThreadQueues.setMessages {γ : Type} (queues : ThreadQueues γ) (slot : Nat) (messages : γ) :
    ThreadQueues γ :=
  Function.update queues slot { queues slot with messages := messages }

/-- The fields that `UserPostThreadMessage` writes; `pt` keeps what was in the
slot. -/
def PostedMsg.write (posted : PostedMsg) (keTickCount : UInt32) (old : W32kMsg) : W32kMsg :=
  ⟨0, posted.msg, posted.wParam, posted.lParam, keTickCount, old.pt⟩

def userPostThreadMessage (queues : ThreadQueues MsgRing) (threadId : UInt32)
    (posted : PostedMsg) (keTickCount : UInt32) : NtStatus × ThreadQueues MsgRing :=
  match queueFindOrCreate zeroRing queues threadId true with
  | none => (statusInsufficientResources, queues)
  | some (slot, queues) =>
      match (queues slot).messages.push queueSize (posted.write keTickCount) with
      | none => (statusInsufficientResources, queues)
      | some messages => (statusSuccess, queues.setMessages slot messages)

/-- The test of `UserGetMessageForThread`. -/
def threadAccepts (msgFilterMin msgFilterMax : UInt32) (msg : W32kMsg) : Bool :=
  if msgFilterMin = 0 ∧ msgFilterMax = 0 then true
  else !(decide (msg.message < msgFilterMin) || decide (msg.message > msgFilterMax))

/-- One turn of the loop of `UserGetMessageForThread`; without a reply the caller
waits for the event of the queue. -/
def userGetMessageForThread (queues : ThreadQueues MsgRing) (threadId : UInt32) (out : Bool)
    (msgFilterMin msgFilterMax : UInt32) : Option MsgReply × ThreadQueues MsgRing :=
  if !out then (some (statusInvalidParameter, none), queues)
  else
    match queueFindOrCreate zeroRing queues threadId false with
    | none => (some (statusNotFound, none), queues)
    | some (slot, queues) =>
        match (queues slot).messages.find queueSize (threadAccepts msgFilterMin msgFilterMax)
            true with
        | none => (none, queues)
        | some (msg, messages) =>
            (some (statusSuccess, some msg), queues.setMessages slot messages)

def userDestroyThreadQueue (queues : ThreadQueues MsgRing) (threadId : UInt32) :
    NtStatus × ThreadQueues MsgRing :=
  match queueFindOrCreate zeroRing queues threadId false with
  | none => (statusSuccess, queues)
  | some (slot, queues) =>
      let queue := queues slot
      (statusSuccess, Function.update queues slot
        { queue with inUse := false, messages := { queue.messages with count := 0 } })

inductive ThreadCall where
  | post (threadId : UInt32) (posted : PostedMsg) (keTickCount : UInt32)
  | get (threadId : UInt32) (out : Bool) (msgFilterMin msgFilterMax : UInt32)
  | destroy (threadId : UInt32)
deriving DecidableEq, Repr

def threadCall (queues : ThreadQueues MsgRing) :
    ThreadCall → Option MsgReply × ThreadQueues MsgRing
  | .post threadId posted keTickCount =>
      let result := userPostThreadMessage queues threadId posted keTickCount
      (some (result.1, none), result.2)
  | .get threadId out msgFilterMin msgFilterMax =>
      userGetMessageForThread queues threadId out msgFilterMin msgFilterMax
  | .destroy threadId =>
      let result := userDestroyThreadQueue queues threadId
      (some (result.1, none), result.2)

end MinNT.Win32k
