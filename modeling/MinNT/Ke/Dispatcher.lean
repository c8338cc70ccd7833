import MinNT.Lib.ListEntry
import MinNT.NtStatus

namespace MinNT.Ke

open Function ListEntry

def statusWait0 : NtStatus := 0x00000000#32
def statusTimeout : NtStatus := 0x00000102#32

/-- The `LIST_ENTRY`s the dispatcher links: `KiReadyListHead`, the `WaitListHead`
of each object and the one `WaitListEntry` of each thread. `null` is address 0,
which the boot stub maps as well. -/
inductive Node where
  | null
  | ready
  | object (index : Nat)
  | thread (index : Nat)
deriving DecidableEq, Repr

/-- `KTHREAD_STATE`. -/
inductive ThreadState where
  | initialized
  | ready
  | running
  | standby
  | terminated
  | waiting
deriving DecidableEq, Repr

/-- The fields of `KTHREAD` that the dispatcher uses, its `WaitListEntry` apart. -/
structure KThread where
  state : ThreadState
  waitStatus : NtStatus
  waitObject : Option Nat
deriving DecidableEq, Repr

/-- `Header.Type`. -/
inductive ObjectType where
  | eventObject
  | synchronizationEvent
  | semaphoreObject
  | mutantObject
deriving DecidableEq, Repr

/-- A `DISPATCHER_HEADER` with the fields of `KSEMAPHORE` and `KMUTANT` behind it;
the `WaitListHead` is a node of its own. -/
structure DispatcherObject where
  type : ObjectType
  signalState : Nat
  limit : Int
  currentCount : Int
  ownerThread : Option Nat
deriving DecidableEq, Repr

/-- Where a thread goes on after `KiSwapContext`: in code of its own, or behind
the `KiDispatchNextThread` of `KiWaitThread`, called directly or by
`KeWaitForSingleObject` for an object. -/
inductive Resume where
  | routine
  | waitThread
  | waitForSingleObject (object : Nat)
deriving DecidableEq, Repr

structure Dispatcher where
  links : Links Node
  threads : Nat → KThread
  threadCount : Nat
  objects : Nat → DispatcherObject
  objectCount : Nat
  current : Nat
  resume : Nat → Resume

/-- What a run shows of its waits and signals. -/
inductive Event where
  | waitCalled (thread object : Nat) (signaled : Bool)
  | waitReturned (thread object : Nat) (status : NtStatus)
  | woken (object thread : Nat)
  | semaphoreInitialized (object : Nat) (count limit : Int)
  | semaphoreReleased (object : Nat) (adjustment : Int)
  | mutexReleased (thread object : Nat)
deriving DecidableEq, Repr

namespace Dispatcher

def setThread (dispatcher : Dispatcher) (thread : Nat) (contents : KThread) : Dispatcher :=
  { dispatcher with threads := update dispatcher.threads thread contents }

def setState (dispatcher : Dispatcher) (thread : Nat) (state : ThreadState) : Dispatcher :=
  dispatcher.setThread thread { dispatcher.threads thread with state := state }

def setObject (dispatcher : Dispatcher) (object : Nat) (contents : DispatcherObject) :
    Dispatcher :=
  { dispatcher with objects := update dispatcher.objects object contents }

def withLinks (dispatcher : Dispatcher) (links : Links Node) : Dispatcher :=
  { dispatcher with links := links }

end Dispatcher

/-- `Entry->Flink = Entry->Blink = NULL`. -/
def clearEntry (links : Links Node) (entry : Node) : Links Node :=
  (links.setFlink entry .null).setBlink entry .null

/-- `CONTAINING_RECORD(Entry, KTHREAD, WaitListEntry)`; there is no thread around
the other nodes. -/
def containingThread : Node → Option Nat
  | .thread index => some index
  | _ => none

def kiReadyThread (dispatcher : Dispatcher) (thread : Nat) : Dispatcher :=
  (dispatcher.setState thread .ready).withLinks
    (insertTailList dispatcher.links .ready (.thread thread))

/-- The part of `PsCreateSystemThread` the dispatcher sees: a zeroed `KTHREAD`
that goes to the ready queue. -/
def psCreateSystemThread (dispatcher : Dispatcher) : Dispatcher :=
  let thread := dispatcher.threadCount
  let created := { dispatcher.setThread thread ⟨.initialized, 0, none⟩ with
    threadCount := thread + 1
    resume := update dispatcher.resume thread .routine }
  kiReadyThread created thread

def kiWakeThread (dispatcher : Dispatcher) (thread : Nat) (waitStatus : NtStatus) : Dispatcher :=
  (dispatcher.setThread thread ⟨.ready, waitStatus, none⟩).withLinks
    (insertTailList (clearEntry dispatcher.links (.thread thread)) .ready (.thread thread))

/-- `KiWakeFirstWaiterUnsafe`: the thread that was woken, if any. The outer `none`
is a list entry that belongs to no thread. -/
def kiWakeFirstWaiter (dispatcher : Dispatcher) (object : Nat) (waitStatus : NtStatus) :
    Option (Option Nat × Dispatcher) :=
  if isListEmpty dispatcher.links (.object object) then some (none, dispatcher)
  else
    let removed := removeHeadList dispatcher.links (.object object)
    match containingThread removed.1 with
    | none => none
    | some thread =>
        some (some thread, kiWakeThread (dispatcher.withLinks removed.2) thread waitStatus)

/-- `KiWakeAllWaitersUnsafe`: the threads that were woken. The loop ends before
the fuel does as long as no thread is met twice. -/
def kiWakeAllWaiters (object : Nat) (waitStatus : NtStatus) :
    Nat → Dispatcher → Option (List Nat × Dispatcher)
  | 0, _ => none
  | fuel + 1, dispatcher =>
      match kiWakeFirstWaiter dispatcher object waitStatus with
      | none => none
      | some (none, dispatcher) => some ([], dispatcher)
      | some (some thread, dispatcher) =>
          (kiWakeAllWaiters object waitStatus fuel dispatcher).map fun rest =>
            (thread :: rest.1, rest.2)

/-- `KiWaitThread` behind its call of `KiDispatchNextThread`. -/
def afterWait (dispatcher : Dispatcher) (thread : Nat) : Dispatcher :=
  if (dispatcher.threads thread).state = .waiting then
    (dispatcher.setState thread .ready).withLinks
      (insertTailList (clearEntry (removeEntryList dispatcher.links (.thread thread))
        (.thread thread)) .ready (.thread thread))
  else dispatcher

/-- The code a thread runs when `KiDispatchNextThread` has returned to it, up to
the return of a wait. -/
def continueAt (dispatcher : Dispatcher) (thread : Nat) : Resume → Dispatcher × List Event
  | .routine => (dispatcher, [])
  | .waitThread => (afterWait dispatcher thread, [])
  | .waitForSingleObject object =>
      let dispatcher := afterWait dispatcher thread
      (dispatcher, [.waitReturned thread object (dispatcher.threads thread).waitStatus])

/-- `Old` goes back to the ready queue if it is still running, and `New` becomes
`Prcb->CurrentThread`. -/
def switchTo (dispatcher : Dispatcher) (new : Nat) : Dispatcher :=
  let dispatcher := dispatcher.setState new .running
  let old := dispatcher.current
  let requeued :=
    if (dispatcher.threads old).state = .running then kiReadyThread dispatcher old
    else dispatcher
  { requeued with current := new }

/-- `KiDispatchNextThread`, called by the current thread at `point`, and what the
thread it switches to does up to its next call. A thread that is switched to
itself would load the stack pointer of an earlier switch: control is lost. -/
def kiDispatchNextThread (dispatcher : Dispatcher) (point : Resume) :
    Option (Dispatcher × List Event) :=
  if isListEmpty dispatcher.links .ready then
    some (continueAt dispatcher dispatcher.current point)
  else
    let removed := removeHeadList dispatcher.links .ready
    match containingThread removed.1 with
    | none => none
    | some new =>
        if new = dispatcher.current then none
        else
          let switched := switchTo { dispatcher.withLinks removed.2 with
            resume := update dispatcher.resume dispatcher.current point } new
          some (continueAt switched new (dispatcher.resume new))

/-- `KiWaitThread` of the current thread. -/
def kiWaitThread (dispatcher : Dispatcher) (object : Nat) (point : Resume) :
    Option (Dispatcher × List Event) :=
  let thread := dispatcher.current
  let blocked := dispatcher.setThread thread
    { dispatcher.threads thread with state := .waiting, waitObject := some object }
  kiDispatchNextThread
    (blocked.withLinks (insertTailList dispatcher.links (.object object) (.thread thread))) point

/-- A new object with an empty wait list. -/
def addObject (dispatcher : Dispatcher) (contents : DispatcherObject) : Dispatcher :=
  let object := dispatcher.objectCount
  { (dispatcher.setObject object contents).withLinks
      (initializeListHead dispatcher.links (.object object)) with objectCount := object + 1 }

def keInitializeEvent (dispatcher : Dispatcher) (notification state : Bool) : Dispatcher :=
  addObject dispatcher
    { type := if notification then .eventObject else .synchronizationEvent
      signalState := if state then 1 else 0
      limit := 0
      currentCount := 0
      ownerThread := none }

/-- `KeSetEvent`, which returns the old state. -/
def keSetEvent (dispatcher : Dispatcher) (object : Nat) :
    Option (Nat × Dispatcher × List Event) :=
  let event := dispatcher.objects object
  let signaled := dispatcher.setObject object { event with signalState := 1 }
  match event.type with
  | .eventObject =>
      (kiWakeAllWaiters object statusWait0 (dispatcher.threadCount + 1) signaled).map fun woken =>
        (event.signalState, woken.2, woken.1.map (.woken object))
  | _ =>
      match kiWakeFirstWaiter signaled object statusWait0 with
      | none => none
      | some (none, dispatcher) => some (event.signalState, dispatcher, [])
      | some (some thread, dispatcher) =>
          some (event.signalState,
            dispatcher.setObject object { dispatcher.objects object with signalState := 0 },
            [.woken object thread])

def keResetEvent (dispatcher : Dispatcher) (object : Nat) : Nat × Dispatcher :=
  let event := dispatcher.objects object
  (event.signalState, dispatcher.setObject object { event with signalState := 0 })

/-- A sum of two `LONG`s. -/
def addLong (left right : Int) : Int := (left + right).bmod (2 ^ 32)

def keInitializeSemaphore (dispatcher : Dispatcher) (count limit : Int) : Dispatcher :=
  addObject dispatcher
    { type := .semaphoreObject
      signalState := if count > 0 then 1 else 0
      limit := limit
      currentCount := count
      ownerThread := none }

/-- The wake loop of `KeReleaseSemaphore`. -/
def wakeWaiters (object : Nat) : Nat → Dispatcher → Option (List Nat × Dispatcher)
  | 0, dispatcher => some ([], dispatcher)
  | count + 1, dispatcher =>
      match kiWakeFirstWaiter dispatcher object statusWait0 with
      | none => none
      | some (none, dispatcher) => some ([], dispatcher)
      | some (some thread, dispatcher) =>
          (wakeWaiters object count dispatcher).map fun rest => (thread :: rest.1, rest.2)

/-- `CurrentCount` after `KeReleaseSemaphore`. -/
def countAfterRelease (semaphore : DispatcherObject) (adjustment : Int) : Int :=
  if addLong semaphore.currentCount adjustment > semaphore.limit then semaphore.limit
  else addLong semaphore.currentCount adjustment

/-- `KeReleaseSemaphore`, which returns the old count. -/
def keReleaseSemaphore (dispatcher : Dispatcher) (object : Nat) (adjustment : Int) :
    Option (Int × Dispatcher × List Event) :=
  let semaphore := dispatcher.objects object
  let count := countAfterRelease semaphore adjustment
  let released := dispatcher.setObject object
    { semaphore with currentCount := count, signalState := if count > 0 then 1 else 0 }
  (wakeWaiters object adjustment.toNat released).map fun woken =>
    (semaphore.currentCount, woken.2,
      .semaphoreReleased object adjustment :: woken.1.map (.woken object))

def keInitializeMutex (dispatcher : Dispatcher) : Dispatcher :=
  addObject dispatcher
    { type := .mutantObject
      signalState := 1
      limit := 0
      currentCount := 0
      ownerThread := none }

/-- `KeReleaseMutex` by the current thread. -/
def keReleaseMutex (dispatcher : Dispatcher) (object : Nat) : Option (Dispatcher × List Event) :=
  let mutex := dispatcher.objects object
  if mutex.ownerThread ≠ some dispatcher.current then some (dispatcher, [])
  else
    let dropped := dispatcher.setObject object { mutex with ownerThread := none }
    if isListEmpty dropped.links (.object object) then
      some (dropped.setObject object { dropped.objects object with signalState := 1 },
        [.mutexReleased dispatcher.current object])
    else
      match kiWakeFirstWaiter dropped object statusWait0 with
      | none => none
      | some (none, after) => some (after, [.mutexReleased dispatcher.current object])
      | some (some thread, after) =>
          some (after.setObject object
              { after.objects object with ownerThread := some thread, signalState := 0 },
            [.mutexReleased dispatcher.current object, .woken object thread])

/-- The signal is consumed by synchronization events and mutexes. -/
def consumeSignal (object : DispatcherObject) (thread : Nat) : DispatcherObject :=
  match object.type with
  | .synchronizationEvent => { object with signalState := 0 }
  | .mutantObject => { object with signalState := 0, ownerThread := some thread }
  | _ => object

/-- `KeWaitForSingleObject` of the current thread; `poll` is a timeout of 0, any
other timeout is ignored. -/
def keWaitForSingleObject (dispatcher : Dispatcher) (object : Nat) (poll : Bool) :
    Option (Dispatcher × List Event) :=
  let thread := dispatcher.current
  let header := dispatcher.objects object
  if header.signalState ≠ 0 then
    some (dispatcher.setObject object (consumeSignal header thread),
      [.waitCalled thread object true, .waitReturned thread object statusWait0])
  else if poll then
    some (dispatcher,
      [.waitCalled thread object false, .waitReturned thread object statusTimeout])
  else
    (kiWaitThread dispatcher object (.waitForSingleObject object)).map fun result =>
      (result.1, .waitCalled thread object false :: result.2)

/-- The calls of the running thread. -/
inductive Call where
  | createThread
  | exitThread
  | dispatchNext
  | initializeEvent (notification state : Bool)
  | initializeSemaphore (count limit : Int32)
  | initializeMutex
  | setEvent (object : Nat)
  | resetEvent (object : Nat)
  | releaseSemaphore (object : Nat) (adjustment : Int32)
  | releaseMutex (object : Nat)
  | waitForSingleObject (object : Nat) (poll : Bool)
  | waitThread (object : Nat)
  | wakeThread (thread : Nat) (status : NtStatus)
deriving DecidableEq

def Dispatcher.hasType (dispatcher : Dispatcher) (object : Nat) (types : List ObjectType) : Bool :=
  decide (object < dispatcher.objectCount) && types.contains (dispatcher.objects object).type

/-- Calls are made on initialised objects of their own type, by a thread that has
not ended; `KiWakeThread` is made for a waiting thread. -/
def Dispatcher.accepts (dispatcher : Dispatcher) : Call → Bool
  | .dispatchNext => true
  | call =>
      decide ((dispatcher.threads dispatcher.current).state ≠ .terminated) &&
        match call with
        | .setEvent object | .resetEvent object =>
            dispatcher.hasType object [.eventObject, .synchronizationEvent]
        | .releaseSemaphore object _ => dispatcher.hasType object [.semaphoreObject]
        | .releaseMutex object => dispatcher.hasType object [.mutantObject]
        | .waitForSingleObject object _ | .waitThread object =>
            decide (object < dispatcher.objectCount)
        | .wakeThread thread _ => decide ((dispatcher.threads thread).state = .waiting)
        | _ => true

/-- One call of the running thread, up to the next call of whichever thread runs
then. -/
def perform (dispatcher : Dispatcher) : Call → Option (Dispatcher × List Event)
  | .createThread => some (psCreateSystemThread dispatcher, [])
  | .exitThread =>
      kiDispatchNextThread (dispatcher.setState dispatcher.current .terminated) .routine
  | .dispatchNext => kiDispatchNextThread dispatcher .routine
  | .initializeEvent notification state =>
      some (keInitializeEvent dispatcher notification state, [])
  | .initializeSemaphore count limit =>
      some (keInitializeSemaphore dispatcher count.toInt limit.toInt,
        [.semaphoreInitialized dispatcher.objectCount count.toInt limit.toInt])
  | .initializeMutex => some (keInitializeMutex dispatcher, [])
  | .setEvent object => (keSetEvent dispatcher object).map Prod.snd
  | .resetEvent object => some ((keResetEvent dispatcher object).2, [])
  | .releaseSemaphore object adjustment =>
      (keReleaseSemaphore dispatcher object adjustment.toInt).map Prod.snd
  | .releaseMutex object => keReleaseMutex dispatcher object
  | .waitForSingleObject object poll => keWaitForSingleObject dispatcher object poll
  | .waitThread object => kiWaitThread dispatcher object .waitThread
  | .wakeThread thread status =>
      -- the caller takes the thread off its wait list first
      some (kiWakeThread (dispatcher.withLinks
        (removeEntryList dispatcher.links (.thread thread))) thread status, [])

def step (dispatcher : Dispatcher) (call : Call) : Option (Dispatcher × List Event) :=
  if dispatcher.accepts call then perform dispatcher call else none

/-- `KiInitializeScheduler`, and the boot thread adopted as the running one. -/
def bootDispatcher : Dispatcher where
  links := initializeListHead ⟨fun _ => .null, fun _ => .null⟩ .ready
  threads := update (fun _ => ⟨.initialized, 0, none⟩) 0 ⟨.running, 0, none⟩
  threadCount := 1
  objects := fun _ => ⟨.eventObject, 0, 0, 0, none⟩
  objectCount := 0
  current := 0
  resume := fun _ => .routine

/-- Cooperative runs from boot, all of whose calls meet a condition on the state
they are made in. -/
inductive DispatcherRun (allowed : Dispatcher → Call → Prop) : Dispatcher → List Event → Prop
  | boot : DispatcherRun allowed bootDispatcher []
  | call {dispatcher after : Dispatcher} {history events : List Event} {call : Call}
      (run : DispatcherRun allowed dispatcher history) (meets : allowed dispatcher call)
      (done : step dispatcher call = some (after, events)) :
      DispatcherRun allowed after (history ++ events)

end MinNT.Ke
