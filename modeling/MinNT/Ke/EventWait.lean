import MinNT.Ke.Dispatcher
import MinNT.Lib.Transition

/-! Waits on events while other processors and interrupts set and reset them: what is done with
`KiDispatcherLock` held is one step, and so is each access to `SignalState` without it. -/

namespace MinNT.Ke.EventWait

/-- A `KEVENT`: its wait list holds threads. -/
structure KEvent where
  type : ObjectType
  signalState : Nat
  waitList : List Nat
deriving DecidableEq, Repr

/-- Where a thread is. -/
inductive Place where
  /-- In no wait. -/
  | routine
  /-- In `KeWaitForSingleObject` with the event found signaled, in front of the store that
  consumes the signal. -/
  | consume (event : Nat)
  /-- In `KeWaitForSingleObject` with the event found not signaled, in front of `KiWaitThread`'s
  first use of the lock. -/
  | enter (event : Nat)
  /-- In `KiWaitThread`, behind the first use of the lock. -/
  | dispatched (event : Nat)
deriving DecidableEq, Repr

structure WaitThread where
  place : Place
  state : ThreadState
  waitStatus : NtStatus
  waitObject : Option Nat
  /-- What the last wait of the thread returned. -/
  returned : NtStatus
deriving DecidableEq, Repr

structure State where
  events : Nat → KEvent
  threads : Nat → WaitThread
  ready : List Nat

def State.setEvent (s : State) (event : Nat) (contents : KEvent) : State :=
  { s with events := Function.update s.events event contents }

def State.setThread (s : State) (thread : Nat) (contents : WaitThread) : State :=
  { s with threads := Function.update s.threads thread contents }

/-- `KiWakeFirstWaiterUnsafe` behind the removal from the wait list: the thread becomes ready. -/
def State.wake (s : State) (thread : Nat) (waitStatus : NtStatus) : State :=
  { s.setThread thread { s.threads thread with
      state := .ready, waitStatus := waitStatus, waitObject := none } with
    ready := s.ready ++ [thread] }

/-- `KiWakeAllWaitersUnsafe` behind the removals. -/
def State.wakeAll (s : State) (threads : List Nat) (waitStatus : NtStatus) : State :=
  threads.foldl (fun s thread => s.wake thread waitStatus) s

def keSetEvent (s : State) (event : Nat) : State :=
  let contents := s.events event
  match contents.type with
  | .eventObject =>
      (s.setEvent event ⟨contents.type, 1, []⟩).wakeAll contents.waitList statusWait0
  | _ =>
      match contents.waitList with
      | [] => s.setEvent event ⟨contents.type, 1, []⟩
      | thread :: rest => (s.setEvent event ⟨contents.type, 0, rest⟩).wake thread statusWait0

def keResetEvent (s : State) (event : Nat) : State :=
  let contents := s.events event
  s.setEvent event { contents with signalState := 0 }

/-- `KeWaitForSingleObject` up to what it does with the state of the event that it reads; `poll`
is a timeout of 0. -/
def keWaitForSingleObject (s : State) (thread event : Nat) (poll : Bool) : State :=
  let contents := s.threads thread
  if (s.events event).signalState ≠ 0 then
    match (s.events event).type with
    | .synchronizationEvent => s.setThread thread { contents with place := .consume event }
    | _ => s.setThread thread { contents with returned := statusWait0 }
  else if poll then s.setThread thread { contents with returned := statusTimeout }
  else s.setThread thread { contents with place := .enter event }

/-- The store that consumes a signal. -/
def consumeSignal (s : State) (thread event : Nat) : State :=
  let contents := s.events event
  (s.setEvent event { contents with signalState := 0 }).setThread thread
    { s.threads thread with place := .routine, returned := statusWait0 }

/-- `KiWaitThread` in its first use of the lock. -/
def kiWaitThread (s : State) (thread event : Nat) : State :=
  let contents := s.events event
  (s.setEvent event { contents with waitList := contents.waitList ++ [thread] }).setThread thread
    { s.threads thread with
      place := .dispatched event, state := .waiting, waitObject := some event }

/-- `KiDispatchNextThread` on a processor with `old` as its current thread. -/
def kiDispatchNextThread (s : State) (old : Nat) : State :=
  match s.ready with
  | [] => s
  | new :: rest =>
      let started := { s.setThread new { s.threads new with state := .running } with ready := rest }
      if (started.threads old).state = .running then
        { started.setThread old { started.threads old with state := .ready } with
          ready := rest ++ [old] }
      else started

/-- `KiWaitThread` in its second use of the lock, when `KiDispatchNextThread` has returned, and the
return of the wait with `WaitStatus`. -/
def afterWait (s : State) (thread event : Nat) : State :=
  let contents := s.threads thread
  if contents.state = .waiting then
    let header := s.events event
    { (s.setEvent event { header with waitList := header.waitList.erase thread }).setThread thread
        { contents with
          place := .routine, state := .ready, returned := contents.waitStatus } with
      ready := s.ready ++ [thread] }
  else s.setThread thread { contents with place := .routine, returned := contents.waitStatus }

inductive Action where
  | waitForSingleObject (thread event : Nat) (poll : Bool)
  | advance (thread : Nat)
  | setEvent (event : Nat)
  | resetEvent (event : Nat)
  | dispatchNextThread (old : Nat)

def step (s : State) : Action → Option State
  | .waitForSingleObject thread event poll =>
      if (s.threads thread).place = .routine then some (keWaitForSingleObject s thread event poll)
      else none
  | .advance thread =>
      match (s.threads thread).place with
      | .routine => none
      | .consume event => some (consumeSignal s thread event)
      | .enter event => some (kiWaitThread s thread event)
      | .dispatched event => some (afterWait s thread event)
  | .setEvent event => some (keSetEvent s event)
  | .resetEvent event => some (keResetEvent s event)
  | .dispatchNextThread old => some (kiDispatchNextThread s old)

/-- Events as `KeInitializeEvent` leaves them, and threads in no wait. -/
def State.initial (types : Nat → ObjectType) (signaled : Nat → Bool) : State where
  events := fun event => ⟨types event, if signaled event then 1 else 0, []⟩
  threads := fun _ => ⟨.routine, .running, statusWait0, none, statusWait0⟩
  ready := []

/-- No thread is on the wait list of an event that is signaled. -/
def NoLostWakeup (s : State) : Prop :=
  ∀ event, (s.events event).signalState ≠ 0 → (s.events event).waitList = []

/-- A thread goes onto the wait list of an event that is still not signaled. -/
def EntersUnsignaled (s : State) : Action → Prop
  | .advance thread =>
      match (s.threads thread).place with
      | .enter event => (s.events event).signalState = 0
      | _ => True
  | _ => True

@[simp] theorem State.setThread_events (s : State) (thread : Nat) (contents : WaitThread) :
    (s.setThread thread contents).events = s.events := rfl

@[simp] theorem State.wake_events (s : State) (thread : Nat) (waitStatus : NtStatus) :
    (s.wake thread waitStatus).events = s.events := rfl

@[simp] theorem State.wakeAll_events (s : State) (threads : List Nat) (waitStatus : NtStatus) :
    (s.wakeAll threads waitStatus).events = s.events := by
  unfold State.wakeAll
  induction threads generalizing s with
  | nil => rfl
  | cons thread threads ih => exact (ih (s.wake thread waitStatus)).trans (s.wake_events _ _)

theorem NoLostWakeup.of_events {s next : State} (none : NoLostWakeup s)
    (same : next.events = s.events) : NoLostWakeup next := by
  intro event signaled
  rw [same] at signaled ⊢
  exact none event signaled

theorem NoLostWakeup.setEvent {s : State} (none : NoLostWakeup s) (event : Nat)
    {contents : KEvent} (good : contents.signalState ≠ 0 → contents.waitList = []) :
    NoLostWakeup (s.setEvent event contents) := by
  intro other
  unfold State.setEvent
  dsimp only
  rw [Function.update_apply]
  by_cases same : other = event
  · rw [if_pos same]
    exact good
  · rw [if_neg same]
    exact none other

variable {s : State}

section None

variable (none : NoLostWakeup s)
include none

theorem NoLostWakeup.keSetEvent (event : Nat) : NoLostWakeup (keSetEvent s event) := by
  unfold EventWait.keSetEvent
  dsimp only
  split
  · exact (none.setEvent event fun _ => rfl).of_events (State.wakeAll_events _ _ _)
  · split
    · exact none.setEvent event fun _ => rfl
    · exact (none.setEvent event fun signaled => absurd rfl signaled).of_events
        (State.wake_events _ _ _)

theorem NoLostWakeup.keWaitForSingleObject (thread event : Nat) (poll : Bool) :
    NoLostWakeup (keWaitForSingleObject s thread event poll) := by
  unfold EventWait.keWaitForSingleObject
  dsimp only
  split
  · split
    · exact none.of_events rfl
    · exact none.of_events rfl
  · split
    · exact none.of_events rfl
    · exact none.of_events rfl

theorem NoLostWakeup.afterWait (thread event : Nat) : NoLostWakeup (afterWait s thread event) := by
  unfold EventWait.afterWait
  dsimp only
  split
  · refine NoLostWakeup.of_events (none.setEvent event fun signaled => ?_) rfl
    rw [none event signaled]
    rfl
  · exact none.of_events rfl

theorem NoLostWakeup.kiDispatchNextThread (old : Nat) :
    NoLostWakeup (kiDispatchNextThread s old) := by
  unfold EventWait.kiDispatchNextThread
  dsimp only
  split
  · exact none
  · split
    · exact none.of_events rfl
    · exact none.of_events rfl

theorem noLostWakeup_kiWaitThread (thread event : Nat) :
    NoLostWakeup (kiWaitThread s thread event) ↔ (s.events event).signalState = 0 := by
  constructor
  · intro after
    by_contra signaled
    have stranded := after event
    simp only [kiWaitThread, State.setEvent, State.setThread_events, Function.update_self]
      at stranded
    exact List.append_ne_nil_of_right_ne_nil _ (List.cons_ne_nil _ _) (stranded signaled)
  · intro unsignaled
    have stored := none.setEvent event
      (show (KEvent.mk (s.events event).type (s.events event).signalState
        ((s.events event).waitList ++ [thread])).signalState ≠ 0 → _ from
        fun signaled => absurd unsignaled signaled)
    exact stored.of_events rfl

end None

/-- A step that enters no wait on a set event loses no wakeup. -/
theorem NoLostWakeup.step {s next : State} {action : Action} (none : NoLostWakeup s)
    (enters : EntersUnsignaled s action) (done : step s action = some next) :
    NoLostWakeup next := by
  cases action with
  | waitForSingleObject thread event poll =>
    simp only [EventWait.step] at done
    split at done
    · cases done
      exact none.keWaitForSingleObject thread event poll
    · cases done
  | advance thread =>
    simp only [EventWait.step] at done
    dsimp only [EntersUnsignaled] at enters
    cases here : (s.threads thread).place with
    | routine =>
      rw [here] at done
      cases done
    | consume event =>
      rw [here] at done
      cases done
      exact (none.setEvent event fun signaled => absurd rfl signaled).of_events rfl
    | enter event =>
      rw [here] at done enters
      cases done
      exact (noLostWakeup_kiWaitThread none thread event).mpr enters
    | dispatched event =>
      rw [here] at done
      cases done
      exact none.afterWait thread event
  | setEvent event =>
    cases done
    exact none.keSetEvent event
  | resetEvent event =>
    cases done
    exact none.setEvent event fun signaled => absurd rfl signaled
  | dispatchNextThread old =>
    cases done
    exact none.kiDispatchNextThread old

/-- As long as no event is signaled between the check of a wait and its way onto the wait list,
no thread is on the wait list of a signaled event. -/
theorem noLostWakeup_of_entersUnsignaled {types : Nat → ObjectType} {signaled : Nat → Bool}
    {s : State} (run : Transition.Reaches step EntersUnsignaled (State.initial types signaled) s) :
    NoLostWakeup s :=
  run.invariant (fun _ _ => rfl) fun _ _ _ none enters done => none.step enters done

/-- A thread waits for an event that is not signaled, and is woken by a set. -/
theorem noLostWakeup_of_entersUnsignaled_woken : ∃ s,
    Transition.runFrom step (State.initial (fun _ => .eventObject) fun _ => false)
      [.waitForSingleObject 0 0 false, .advance 0, .setEvent 0] = some s ∧
    (s.events 0).signalState = 1 ∧ s.ready = [0] ∧ NoLostWakeup s := by
  refine ⟨_, rfl, rfl, rfl, @noLostWakeup_of_entersUnsignaled (fun _ => .eventObject)
    (fun _ => false) _ ?_⟩
  have started : Transition.Reaches step EntersUnsignaled
    (State.initial (fun _ => .eventObject) fun _ => false) _ := .start
  have checked := started.step (show EntersUnsignaled _ (.waitForSingleObject 0 0 false) from
    trivial) rfl
  have waiting := checked.step (show EntersUnsignaled _ (.advance 0) from rfl) rfl
  exact waiting.step (show EntersUnsignaled _ (.setEvent 0) from trivial) rfl

/-- The event is set between the check and the way onto the wait list. -/
theorem not_noLostWakeup : ∃ s,
    Transition.runFrom step (State.initial (fun _ => .eventObject) fun _ => false)
      [.waitForSingleObject 0 0 false, .setEvent 0, .advance 0] = some s ∧
    (s.events 0).signalState = 1 ∧ (s.events 0).waitList = [0] ∧
    (s.threads 0).state = .waiting := by
  exact ⟨_, rfl, rfl, rfl, rfl⟩

end MinNT.Ke.EventWait
