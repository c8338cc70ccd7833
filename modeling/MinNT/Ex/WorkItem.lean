import MinNT.Ke.Dispatcher
import MinNT.Lib.Transition

namespace MinNT.Ex

open Transition

def workitemMaxThreads : Nat := 4
def workitemQueueMax : Nat := 256

inductive WorkQueueType where
  | criticalWorkItem
  | delayedWorkItem
  | hyperCriticalWorkItem
deriving DecidableEq, Repr

/-- The `WORK_ITEM` of a caller. -/
structure WorkRequest where
  routine : Option Nat
  context : Nat
  delayMs : Nat
deriving DecidableEq, Repr

/-- A slot of `g_Queue`. The ticket tells the queued items apart: it is the number
of items queued before this one. -/
structure WorkItem where
  routine : Option Nat
  context : Nat
  flags : Nat
  dueTime : Int
  inUse : Bool
  ticket : Nat
deriving DecidableEq, Repr

/-- A call of a routine with its context. -/
structure WorkCall where
  ticket : Nat
  routine : Nat
  context : Nat
deriving DecidableEq, Repr

/-- Where a worker is in `WorkItemRun`: before its wait, on the wait list, before
`WorkItemDequeue`, or before the call or the free of the item it has got. -/
inductive WorkerPhase where
  | wait
  | parked
  | dequeue
  | call (slot : Nat)
  | free (slot : Nat)
deriving DecidableEq, Repr

/-- The slots, `CurrentCount`, `SignalState` and the wait list of
`g_WorkAvailable`, the workers, the callers that have not come to their
`KeReleaseSemaphore`, and what was queued and called so far. -/
structure WorkQueue where
  slots : Nat → WorkItem
  currentCount : Int
  signaled : Bool
  waiters : List Nat
  workers : Nat → WorkerPhase
  releases : Nat
  queued : List WorkCall
  called : List WorkCall

/-- `RtlZeroMemory` of a slot. -/
def zeroItem : WorkItem := ⟨none, 0, 0, 0, false, 0⟩

/-- `ExInitializeWorkerFactory` with all of its threads started. -/
def exInitializeWorkerFactory : WorkQueue where
  slots := fun _ => zeroItem
  currentCount := 0
  signaled := false
  waiters := []
  workers := fun _ => .wait
  releases := 0
  queued := []
  called := []

def WorkQueue.setWorker (work : WorkQueue) (worker : Nat) (phase : WorkerPhase) : WorkQueue :=
  { work with workers := Function.update work.workers worker phase }

/-- The slot that `WorkItemAlloc` takes. -/
def workItemAlloc (work : WorkQueue) : Option Nat :=
  (List.range workitemQueueMax).find? fun slot => !(work.slots slot).inUse

/-- The contents of the slot of a queued item; `now` is `KeQuerySystemTime`. -/
def WorkRequest.item (request : WorkRequest) (queueType : WorkQueueType) (now : Int)
    (ticket : Nat) : WorkItem where
  routine := request.routine
  context := request.context
  flags := if queueType = .delayedWorkItem then 0x01 else 0x00
  dueTime := if queueType = .delayedWorkItem then now + request.delayMs * 10000 else 0
  inUse := true
  ticket := ticket

/-- The locked section of `ExQueueWorkItem`. -/
def exQueueWorkItem (work : WorkQueue) (request : WorkRequest) (queueType : WorkQueueType)
    (now : Int) : NtStatus × WorkQueue :=
  match request.routine with
  | none => (statusInvalidParameter, work)
  | some routine =>
      match workItemAlloc work with
      | none => (statusNoMemory, work)
      | some slot =>
          (statusSuccess, { work with
            slots := Function.update work.slots slot
              (request.item queueType now work.queued.length)
            releases := work.releases + 1
            queued := work.queued ++ [⟨work.queued.length, routine, request.context⟩] })

/-- `KeReleaseSemaphore(&g_WorkAvailable, 0, 1, FALSE)`, with the limit
0x7FFFFFFF. -/
def releaseWorkAvailable (work : WorkQueue) : WorkQueue :=
  let sum := Ke.addLong work.currentCount 1
  let count := if sum > 0x7FFFFFFF then 0x7FFFFFFF else sum
  let released := { work with currentCount := count, signaled := decide (count > 0) }
  match work.waiters with
  | [] => released
  | worker :: waiters => { released with waiters := waiters }.setWorker worker .dequeue

/-- `KeWaitForSingleObject(&g_WorkAvailable, ..)`: a wait that finds the semaphore
signaled takes nothing from it. -/
def waitWorkAvailable (work : WorkQueue) (worker : Nat) : WorkQueue :=
  if work.signaled then work.setWorker worker .dequeue
  else { work with waiters := work.waiters ++ [worker] }.setWorker worker .parked

/-- The test of `WorkItemDequeue`. -/
def WorkItem.due (item : WorkItem) (now : Int) : Bool :=
  item.inUse && !(decide (item.flags % 2 = 1) && decide (now < item.dueTime))

/-- `WorkItemDequeue` of a worker, which leaves the item in its slot. -/
def workItemDequeue (work : WorkQueue) (worker : Nat) (now : Int) : WorkQueue :=
  match (List.range workitemQueueMax).find? fun slot => (work.slots slot).due now with
  | none => work.setWorker worker .wait
  | some slot => work.setWorker worker (.call slot)

/-- `if (item->Routine) item->Routine(item->Context)`. -/
def callRoutine (work : WorkQueue) (worker slot : Nat) : WorkQueue :=
  let item := work.slots slot
  match item.routine with
  | none => work.setWorker worker (.free slot)
  | some routine =>
      let call : WorkCall := ⟨item.ticket, routine, item.context⟩
      { work with called := work.called ++ [call] }.setWorker worker (.free slot)

def workItemFree (work : WorkQueue) (worker slot : Nat) : WorkQueue :=
  { work with
    slots := Function.update work.slots slot
      { work.slots slot with inUse := false, routine := none, context := 0 } }.setWorker
    worker .dequeue

inductive WorkStep where
  | queue (request : WorkRequest) (queueType : WorkQueueType) (now : Int)
  | release
  | wait (worker : Nat)
  | giveUp (worker : Nat)
  | dequeue (worker : Nat) (now : Int)
  | call (worker : Nat)
  | free (worker : Nat)
deriving DecidableEq, Repr

/-- A step of a caller or of a worker. In `giveUp` the dispatcher has found no
other thread to run, and the wait returns. -/
def workStep (work : WorkQueue) : WorkStep → Option WorkQueue
  | .queue request queueType now => some (exQueueWorkItem work request queueType now).2
  | .release =>
      if 0 < work.releases then
        some (releaseWorkAvailable { work with releases := work.releases - 1 })
      else none
  | .wait worker =>
      if worker < workitemMaxThreads ∧ work.workers worker = .wait then
        some (waitWorkAvailable work worker)
      else none
  | .giveUp worker =>
      if work.workers worker = .parked then
        some ({ work with waiters := work.waiters.erase worker }.setWorker worker .dequeue)
      else none
  | .dequeue worker now =>
      if work.workers worker = .dequeue then some (workItemDequeue work worker now) else none
  | .call worker =>
      match work.workers worker with
      | .call slot => some (callRoutine work worker slot)
      | _ => none
  | .free worker =>
      match work.workers worker with
      | .free slot => some (workItemFree work worker slot)
      | _ => none

def WorkQueue.callAt (work : WorkQueue) (slot : Nat) : WorkCall :=
  ⟨(work.slots slot).ticket, (work.slots slot).routine.getD 0, (work.slots slot).context⟩

/-- The routines are called once each, with their own contexts and in the order
of queueing; what is not called yet is still in a slot; and as long as there is
such a slot, the release of which has been made, a worker is awake. -/
structure Delivered (work : WorkQueue) : Prop where
  inOrder : work.called <+: work.queued
  kept : ∀ call ∈ work.queued.drop work.called.length, ∃ slot < workitemQueueMax,
    (work.slots slot).inUse = true ∧ (work.slots slot).routine = some call.routine ∧
      (work.slots slot).context = call.context ∧ (work.slots slot).ticket = call.ticket
  awake : ∀ slot < workitemQueueMax, (work.slots slot).inUse = true → work.releases = 0 →
    ∃ worker < workitemMaxThreads, work.workers worker ≠ .parked

/-- The worker has got an item and not freed it yet. -/
def WorkerPhase.busy : WorkerPhase → Bool
  | .call _ | .free _ => true
  | _ => false

/-- The slot is in use, and no worker has got its item. -/
def WorkQueue.Unstarted (work : WorkQueue) (slot : Nat) : Prop :=
  (work.slots slot).inUse = true ∧
    ∀ worker, work.workers worker ≠ .call slot ∧ work.workers worker ≠ .free slot

/-- Items are critical ones. One is queued only while no free slot lies below an item
that no worker has got, and got only while no other worker has one; and the count of
the semaphore has not come to its limit. -/
def OneAtATime (work : WorkQueue) : WorkStep → Prop
  | .queue _ queueType _ => queueType = .criticalWorkItem ∧
      ∀ slot < workitemQueueMax, work.Unstarted slot →
        ∀ below < slot, (work.slots below).inUse = true
  | .dequeue worker _ => ∀ other, other ≠ worker → (work.workers other).busy = false
  | .release => work.currentCount < 0x7FFFFFFF
  | _ => True

end MinNT.Ex
