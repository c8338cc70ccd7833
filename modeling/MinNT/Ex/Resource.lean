import MinNT.Ke.IdleSemaphore
import MinNT.Lib.Transition

namespace MinNT.Ex

open Ke ListEntry

/-- `1 << ERESOURCE_EXCLUSIVE_BIT`. -/
def exclusiveState : BitVec 32 := BitVec.twoPow 32 31

structure EResourceThreadEntry where
  thread : Nat
  sharedCount : Int
  exclusiveOwner : Bool
deriving DecidableEq, Repr

/-- `ERESOURCE`. Its semaphores are objects of the dispatcher. -/
structure EResource where
  state : BitVec 32
  sharedWaiters : Nat
  exclusiveWaiter : Nat
  exclusiveOwner : Option Nat
  owners : List EResourceThreadEntry
  name : List UInt8
deriving DecidableEq, Repr

inductive AcquireMode where
  | shared
  | exclusive
deriving DecidableEq, Repr

/-- What the callers see: the acquires and releases that return `STATUS_SUCCESS`,
and those that return another status. -/
inductive ResourceEvent where
  | acquired (thread : Nat) (mode : AcquireMode)
  | released (thread : Nat) (mode : AcquireMode)
  | refused (thread : Nat) (status : NtStatus)
deriving DecidableEq, Repr

structure ResourceAnswer where
  dispatcher : Dispatcher
  resource : EResource
  events : List ResourceEvent

def exInitializeResourceLite (dispatcher : Dispatcher) (name : Option (List UInt8)) :
    EResource × Dispatcher :=
  let shared := keInitializeSemaphore dispatcher 0 0x7FFFFFFF
  ({ state := 0
     sharedWaiters := dispatcher.objectCount
     exclusiveWaiter := shared.objectCount
     exclusiveOwner := none
     owners := []
     name := ((name.getD []).takeWhile (· ≠ 0)).take 63 }, keInitializeSemaphore shared 0 1)

def keReadStateSemaphore (dispatcher : Dispatcher) (semaphore : Nat) : Int :=
  (dispatcher.objects semaphore).currentCount

/-- The walk over `Owners` to the entry of a thread. -/
def findOwner (owners : List EResourceThreadEntry) (thread : Nat) : Option EResourceThreadEntry :=
  owners.find? fun entry => entry.thread = thread

/-- `ErFindOrCreateOwner`: the entries with one of the thread. `memory` tells
whether the pool has an entry to give. -/
def erFindOrCreateOwner (owners : List EResourceThreadEntry) (thread : Nat) (memory : Bool) :
    Option (List EResourceThreadEntry) :=
  match findOwner owners thread with
  | some _ => some owners
  | none => if memory then some (⟨thread, 0, false⟩ :: owners) else none

/-- `SharedCount` of the entry of a thread is changed. -/
def addSharedCount (thread : Nat) (change : Int) :
    List EResourceThreadEntry → List EResourceThreadEntry
  | [] => []
  | entry :: owners =>
      if entry.thread = thread then
        { entry with sharedCount := addLong entry.sharedCount change } :: owners
      else entry :: addSharedCount thread change owners

/-- The end of a shared acquire. The state counts it even if there is no entry for
the thread. -/
def takeShared (resource : EResource) (thread : Nat) (memory : Bool) : EResource :=
  { resource with
    state := resource.state + 1
    owners :=
      match erFindOrCreateOwner resource.owners thread memory with
      | some owners => addSharedCount thread 1 owners
      | none => resource.owners }

/-- The end of an exclusive acquire. -/
def takeExclusive (resource : EResource) (thread : Nat) : EResource :=
  { resource with state := exclusiveState, exclusiveOwner := some thread }

/-- What an acquire does when its `KeWaitForSingleObject` returns, whatever its
status. -/
def afterAcquireWait (memory : Bool) (resource : EResource) : Event →
    EResource × List ResourceEvent
  | .waitReturned thread object _ =>
      if object = resource.sharedWaiters then
        (takeShared resource thread memory, [.acquired thread .shared])
      else if object = resource.exclusiveWaiter then
        (takeExclusive resource thread, [.acquired thread .exclusive])
      else (resource, [])
  | _ => (resource, [])

def resumeAcquires (memory : Bool) : EResource → List Event → EResource × List ResourceEvent
  | resource, [] => (resource, [])
  | resource, event :: events =>
      let first := afterAcquireWait memory resource event
      let rest := resumeAcquires memory first.1 events
      (rest.1, first.2 ++ rest.2)

/-- A call of the dispatcher, with the acquire of the thread that it switches to. -/
def withAcquires (memory : Bool) (resource : EResource) (answer : Dispatcher × List Event) :
    ResourceAnswer :=
  let resumed := resumeAcquires memory resource answer.2
  ⟨answer.1, resumed.1, resumed.2⟩

/-- `ExAcquireResourceSharedLite`. `present` tells whether `Resource` is not
`NULL`, and `memory` is the pool's answer to whichever acquire ends in this call. -/
def exAcquireResourceSharedLite (dispatcher : Dispatcher) (resource : EResource)
    (present wait memory : Bool) : Option ResourceAnswer :=
  let thread := dispatcher.current
  if present = false then some ⟨dispatcher, resource, [.refused thread statusInvalidParameter]⟩
  else if resource.state &&& exclusiveState = 0 ∧
      keReadStateSemaphore dispatcher resource.exclusiveWaiter = 0 then
    some ⟨dispatcher, takeShared resource thread memory, [.acquired thread .shared]⟩
  else if wait = false then some ⟨dispatcher, resource, [.refused thread statusTimeout]⟩
  else
    (keWaitForSingleObject dispatcher resource.sharedWaiters false).map
      (withAcquires memory resource)

def exAcquireResourceExclusiveLite (dispatcher : Dispatcher) (resource : EResource)
    (present wait memory : Bool) : Option ResourceAnswer :=
  let thread := dispatcher.current
  if present = false then some ⟨dispatcher, resource, [.refused thread statusInvalidParameter]⟩
  else if resource.state = 0 then
    some ⟨dispatcher, takeExclusive resource thread, [.acquired thread .exclusive]⟩
  else if wait = false then some ⟨dispatcher, resource, [.refused thread statusTimeout]⟩
  else
    (keWaitForSingleObject dispatcher resource.exclusiveWaiter false).map
      (withAcquires memory resource)

/-- `KeReleaseSemaphore` on one of the two semaphores, at the end of a release. -/
def wakeWaiter (dispatcher : Dispatcher) (resource : EResource) (semaphore : Nat)
    (adjustment : Int) (event : ResourceEvent) : Option ResourceAnswer :=
  (keReleaseSemaphore dispatcher semaphore adjustment).map fun answer =>
    ⟨answer.2.1, resource, [event]⟩

def exReleaseResourceLite (dispatcher : Dispatcher) (resource : EResource) (present : Bool) :
    Option ResourceAnswer :=
  let thread := dispatcher.current
  if present = false then some ⟨dispatcher, resource, [.refused thread statusInvalidParameter]⟩
  else if resource.exclusiveOwner = some thread then
    let released := { resource with exclusiveOwner := none, state := 0 }
    if keReadStateSemaphore dispatcher resource.exclusiveWaiter > 0 then
      wakeWaiter dispatcher released resource.exclusiveWaiter 1 (.released thread .exclusive)
    else if keReadStateSemaphore dispatcher resource.sharedWaiters > 0 then
      wakeWaiter dispatcher released resource.sharedWaiters 0x7FFFFFFF (.released thread .exclusive)
    else some ⟨dispatcher, released, [.released thread .exclusive]⟩
  else
    match findOwner resource.owners thread with
    | none => some ⟨dispatcher, resource, [.refused thread statusUnsuccessful]⟩
    | some entry =>
        if entry.sharedCount ≤ 0 then
          some ⟨dispatcher, resource, [.refused thread statusUnsuccessful]⟩
        else
          let released := { resource with
            owners := addSharedCount thread (-1) resource.owners
            state := resource.state - 1 }
          let pending := BitVec.ofInt 32 (keReadStateSemaphore dispatcher resource.sharedWaiters)
          if released.state = 0 ∧ pending > 0 then
            wakeWaiter dispatcher released resource.sharedWaiters pending.toInt
              (.released thread .shared)
          else some ⟨dispatcher, released, [.released thread .shared]⟩

/-- The scheduler, one resource, and the acquires that have not been released. -/
structure ResourceSystem where
  dispatcher : Dispatcher
  resource : EResource
  held : List (Nat × AcquireMode)

/-- The calls of the running thread: on the resource, or others. -/
inductive ResourceCall where
  | acquireShared (present wait memory : Bool)
  | acquireExclusive (present wait memory : Bool)
  | release (present : Bool)
  | other (call : Call) (memory : Bool)
deriving DecidableEq

def holdersAfter (held : List (Nat × AcquireMode)) : ResourceEvent → List (Nat × AcquireMode)
  | .acquired thread mode => (thread, mode) :: held
  | .released thread mode => held.erase (thread, mode)
  | .refused _ _ => held

def ResourceSystem.after (system : ResourceSystem) (answer : ResourceAnswer) :
    ResourceSystem × List ResourceEvent :=
  (⟨answer.dispatcher, answer.resource, answer.events.foldl holdersAfter system.held⟩,
    answer.events)

/-- One call of the running thread; a thread that has ended makes none on the
resource. -/
def resourceCall (system : ResourceSystem) (call : ResourceCall) :
    Option (ResourceSystem × List ResourceEvent) :=
  let dispatcher := system.dispatcher
  let ended := (dispatcher.threads dispatcher.current).state = .terminated
  match call with
  | .acquireShared present wait memory =>
      if ended then none
      else (exAcquireResourceSharedLite dispatcher system.resource present wait memory).map
        system.after
  | .acquireExclusive present wait memory =>
      if ended then none
      else (exAcquireResourceExclusiveLite dispatcher system.resource present wait memory).map
        system.after
  | .release present =>
      if ended then none
      else (exReleaseResourceLite dispatcher system.resource present).map system.after
  | .other call memory =>
      ((step dispatcher call).map (withAcquires memory system.resource)).map system.after

def resourceStep (system : ResourceSystem) (call : ResourceCall) : Option ResourceSystem :=
  (resourceCall system call).map Prod.fst

/-- A resource that has just been initialised, at any time behind the boot. -/
def ResourceStart (system : ResourceSystem) : Prop :=
  ∃ dispatcher history name, DispatcherRun (fun _ _ => True) dispatcher history ∧
    system = ⟨(exInitializeResourceLite dispatcher name).2,
      (exInitializeResourceLite dispatcher name).1, []⟩

/-- The thread is blocked in an acquire. -/
def Blocked (system : ResourceSystem) (thread : Nat) : Prop :=
  Waits system.dispatcher thread system.resource.sharedWaiters ∨
    Waits system.dispatcher thread system.resource.exclusiveWaiter

def Unowned (resource : EResource) : Prop :=
  resource.state = 0 ∧ resource.exclusiveOwner = none

/-- `SharedCount` of the entry of a thread. -/
def sharedCountOf (owners : List EResourceThreadEntry) (thread : Nat) : Int :=
  ((findOwner owners thread).map EResourceThreadEntry.sharedCount).getD 0

/-- The resource knows the thread as its holder. -/
def HoldsIn (resource : EResource) (thread : Nat) : AcquireMode → Prop
  | .shared => resource.state ≠ 0 ∧ 0 < sharedCountOf resource.owners thread
  | .exclusive => resource.state = exclusiveState ∧ resource.exclusiveOwner = some thread

/-- A release that leaves the resource unowned wakes someone if anyone is blocked,
and whoever acquires it holds it, and nobody else in a mode that conflicts. -/
structure WakesAndHolds (before after : ResourceSystem) (events : List ResourceEvent) : Prop where
  wakes : ∀ thread mode, .released thread mode ∈ events → Unowned after.resource →
    (∃ waiter, Blocked before waiter) →
    ∃ waiter, Blocked before waiter ∧ (after.dispatcher.threads waiter).state = .ready
  holds : ∀ thread mode, .acquired thread mode ∈ events → HoldsIn after.resource thread mode ∧
    ∀ holder ∈ after.held.erase (thread, mode), mode = .shared ∧ holder.2 = .shared

/-- The threads leave the semaphores of the resource alone. -/
def LeavesSemaphores (resource : EResource) (call : Call) : Prop :=
  call.isApi = true ∧ call.target ≠ some resource.sharedWaiters ∧
    call.target ≠ some resource.exclusiveWaiter

/-- The running thread holds the resource, and nobody else does. -/
def LastHolder (system : ResourceSystem) : Prop :=
  system.resource.exclusiveOwner = some system.dispatcher.current ∨
    system.resource.state = 1 ∧ 0 < sharedCountOf system.resource.owners system.dispatcher.current

/-- An acquire that waits finds another thread ready; a shared one that does not
wait finds an entry whose count can go up, or memory for one; and nobody is blocked
when the last holder releases the resource. -/
def NobodyLost (system : ResourceSystem) : ResourceCall → Prop
  | .acquireShared present wait memory => present = true →
      if system.resource.state &&& exclusiveState = 0 then
        (memory = true ∨ findOwner system.resource.owners system.dispatcher.current ≠ none) ∧
          sharedCountOf system.resource.owners system.dispatcher.current < 2 ^ 31 - 1
      else wait = true → isListEmpty system.dispatcher.links .ready = false
  | .acquireExclusive present wait _ => present = true → system.resource.state ≠ 0 → wait = true →
      isListEmpty system.dispatcher.links .ready = false
  | .release present => present = true → LastHolder system → ∀ thread, ¬ Blocked system thread
  | .other call _ => LeavesSemaphores system.resource call

end MinNT.Ex
