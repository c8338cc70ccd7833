import Mathlib.Logic.Function.Basic
import MinNT.Lib.Transition
import MinNT.NtStatus

namespace MinNT.Scm

def maxServices : Nat := 64

def serviceAutoStart : Nat := 2

/-- The values of `CurrentState`. -/
inductive ServiceState where
  | stopped
  | startPending
  | stopPending
  | running
deriving DecidableEq, Repr

/-- What starting and stopping use of an `SCM_SERVICE`. -/
structure Service where
  name : List UInt8
  startType : Nat
  currentState : ServiceState
  inUse : Bool
deriving DecidableEq, Repr

/-- Where a caller of the service control manager is. -/
inductive Phase where
  /-- In no call; the status is the one that the last call returned. -/
  | idle (status : NtStatus)
  /-- In the loop of `ScmAutoStart`, in front of the test of a slot. -/
  | autoTest (slot : Nat) (overall : NtStatus)
  /-- In the loop of `ScmAutoStart`, with a service found that should start. -/
  | autoStart (slot : Nat) (overall : NtStatus)
  /-- In `ScmStartService` with the lock held and the service found stopped. -/
  | startTested (svc : Nat)
  /-- In front of `PsCreateSystemThread`. -/
  | startCreate (svc : Nat)
  /-- No thread was created; in front of the store of `SERVICE_STOPPED`. -/
  | startFailed (svc : Nat) (status : NtStatus)
  | startPoll (svc ticks : Nat)
  /-- Behind the polls, in front of the test for `SERVICE_START_PENDING`. -/
  | startCheck (svc : Nat)
  /-- In front of the store of `SERVICE_RUNNING`. -/
  | startSet (svc : Nat)
  /-- In `ScmStopService` with the lock held and the service found not stopped. -/
  | stopTested (svc : Nat)
  | stopPoll (svc ticks : Nat)
  /-- Behind the polls, in front of the test for `SERVICE_STOPPED`. -/
  | stopCheck (svc : Nat)
  /-- In front of the store of `SERVICE_STOPPED`. -/
  | stopSet (svc : Nat)
deriving DecidableEq, Repr

/-- A caller; within a start that `ScmAutoStart` makes, its slot and `overall`. -/
structure Caller where
  phase : Phase
  auto : Option (Nat × NtStatus)
deriving DecidableEq, Repr

/-- Where a thread in `ScmServiceThread` is. -/
inductive HostThread where
  | absent
  /-- In front of the store of `SERVICE_START_PENDING`. -/
  | created (svc : Nat)
  /-- Inside the `StartRoutine`. -/
  | inside (svc : Nat)
  | exited (svc : Nat)
deriving DecidableEq, Repr

/-- The services, `g_ScmLock` with the caller that holds it, the callers, and the
threads in the order of their creation. -/
structure State where
  services : Nat → Service
  lock : Option Nat
  callers : Nat → Caller
  threads : Nat → HostThread
  threadCount : Nat

def State.store (s : State) (svc : Nat) (value : ServiceState) : State :=
  let service := s.services svc
  { s with services := Function.update s.services svc { service with currentState := value } }

def State.setCaller (s : State) (id : Nat) (caller : Caller) : State :=
  { s with callers := Function.update s.callers id caller }

def State.setThread (s : State) (id : Nat) (thread : HostThread) : State :=
  { s with threads := Function.update s.threads id thread }

def State.currentState (s : State) (svc : Nat) : ServiceState := (s.services svc).currentState

/-- A step within a call that stays in the call. -/
def State.goto (s : State) (id : Nat) (phase : Phase) : State :=
  s.setCaller id ⟨phase, (s.callers id).auto⟩

/-- A caller behind the return of a call; one in `ScmAutoStart` goes on with the next slot. -/
def Caller.finish (caller : Caller) (status : NtStatus) : Caller :=
  match caller.auto with
  | none => ⟨.idle status, none⟩
  | some (slot, overall) =>
      ⟨.autoTest (slot + 1) (if ntSuccess status then overall else status), none⟩

def State.finish (s : State) (id : Nat) (status : NtStatus) : State :=
  s.setCaller id ((s.callers id).finish status)

/-- The search for a service by its name. -/
def State.find (s : State) (name : List UInt8) : Option Nat :=
  (List.range maxServices).find? fun svc =>
    (s.services svc).inUse && (s.services svc).name == name

/-- `ScmStartService` up to the test of the state, which is made with the lock held. -/
def State.beginStart (s : State) (id : Nat) (name : List UInt8) : Option State :=
  if s.lock ≠ none then none
  else
    match s.find name with
    | none => some (s.finish id statusInvalidHandle)
    | some svc =>
        if s.currentState svc ≠ .stopped then some (s.finish id statusInvalidDeviceRequest)
        else some ({ s with lock := some id }.goto id (.startTested svc))

/-- `ScmStopService` up to the test of the state. -/
def State.beginStop (s : State) (id : Nat) (name : List UInt8) : Option State :=
  if s.lock ≠ none then none
  else
    match s.find name with
    | none => some (s.finish id statusInvalidHandle)
    | some svc =>
        if s.currentState svc = .stopped then some (s.finish id statusSuccess)
        else some ({ s with lock := some id }.goto id (.stopTested svc))

/-- `ScmAutoStart` tests a slot with the lock held. -/
def State.testSlot (s : State) (id slot : Nat) (overall : NtStatus) : Option State :=
  if slot < maxServices then
    if s.lock ≠ none then none
    else if (s.services slot).inUse ∧ (s.services slot).startType = serviceAutoStart ∧
        s.currentState slot = .stopped then
      some (s.goto id (.autoStart slot overall))
    else some (s.goto id (.autoTest (slot + 1) overall))
  else some (s.goto id (.idle overall))

/-- What a caller does next. The creation of a thread is a step of its own kind. -/
def State.advance (s : State) (id : Nat) : Option State :=
  match (s.callers id).phase with
  | .idle _ => none
  | .autoTest slot overall => s.testSlot id slot overall
  | .autoStart slot overall =>
      (s.setCaller id ⟨.autoStart slot overall, some (slot, overall)⟩).beginStart id
        (s.services slot).name
  | .startTested svc =>
      some (({ s with lock := none }.store svc .startPending).goto id (.startCreate svc))
  | .startCreate _ => none
  | .startFailed svc status => some ((s.store svc .stopped).finish id status)
  | .startPoll svc ticks =>
      if ticks < 100 ∧ s.currentState svc ≠ .running then
        some (s.goto id (.startPoll svc (ticks + 1)))
      else some (s.goto id (.startCheck svc))
  | .startCheck svc =>
      if s.currentState svc = .startPending then some (s.goto id (.startSet svc))
      else some (s.finish id statusSuccess)
  | .startSet svc => some ((s.store svc .running).finish id statusSuccess)
  | .stopTested svc =>
      some (({ s with lock := none }.store svc .stopPending).goto id (.stopPoll svc 0))
  | .stopPoll svc ticks =>
      if ticks < 1000 ∧ s.currentState svc ≠ .stopped then
        some (s.goto id (.stopPoll svc (ticks + 1)))
      else some (s.goto id (.stopCheck svc))
  | .stopCheck svc =>
      if s.currentState svc ≠ .stopped then some (s.goto id (.stopSet svc))
      else some (s.finish id statusSuccess)
  | .stopSet svc => some ((s.store svc .stopped).finish id statusSuccess)

/-- `PsCreateSystemThread` answers with a status; on success the thread is there. -/
def State.create (s : State) (id : Nat) (status : NtStatus) : Option State :=
  match (s.callers id).phase with
  | .startCreate svc =>
      if ntSuccess status then
        some (({ s with threadCount := s.threadCount + 1 }.setThread s.threadCount
          (.created svc)).goto id (.startPoll svc 0))
      else some (s.goto id (.startFailed svc status))
  | _ => none

/-- A thread stores `SERVICE_START_PENDING` and calls the `StartRoutine`. The call itself
touches nothing that is shared. -/
def State.enter (s : State) (thread : Nat) : Option State :=
  match s.threads thread with
  | .created svc => some ((s.store svc .startPending).setThread thread (.inside svc))
  | _ => none

/-- The `StartRoutine` returns, and its thread stores `SERVICE_STOPPED`. -/
def State.leave (s : State) (thread : Nat) : Option State :=
  match s.threads thread with
  | .inside svc => some ((s.store svc .stopped).setThread thread (.exited svc))
  | _ => none

inductive Action where
  | start (id : Nat) (name : List UInt8)
  | stop (id : Nat) (name : List UInt8)
  | autoStart (id : Nat)
  | advance (id : Nat)
  | create (id : Nat) (status : NtStatus)
  | enter (thread : Nat)
  | leave (thread : Nat)

def State.isIdle (s : State) (id : Nat) : Bool :=
  match (s.callers id).phase with
  | .idle _ => true
  | _ => false

def step (s : State) : Action → Option State
  | .start id name => if s.isIdle id then s.beginStart id name else none
  | .stop id name => if s.isIdle id then s.beginStop id name else none
  | .autoStart id => if s.isIdle id then some (s.goto id (.autoTest 0 statusSuccess)) else none
  | .advance id => s.advance id
  | .create id status => s.create id status
  | .enter thread => s.enter thread
  | .leave thread => s.leave thread

/-- Registered services before any call. -/
def State.registered (services : Nat → Service) : State where
  services := fun svc =>
    let service := services svc
    { service with currentState := .stopped }
  lock := none
  callers := fun _ => ⟨.idle statusSuccess, none⟩
  threads := fun _ => .absent
  threadCount := 0

end MinNT.Scm
