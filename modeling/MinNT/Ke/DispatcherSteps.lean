import MinNT.Ke.DispatcherSwitch
import MinNT.Lib.Chain

namespace MinNT.Ke

open List Function Dispatcher ListEntry

/-- The thread is blocked on the object. -/
def Waits (dispatcher : Dispatcher) (thread object : Nat) : Prop :=
  (dispatcher.threads thread).state = .waiting ∧
    (dispatcher.threads thread).waitObject = some object

/-- The object an initialising call sets up. -/
def newObject : Call → Option DispatcherObject
  | .initializeEvent notification state =>
      some ⟨if notification then .eventObject else .synchronizationEvent,
        if state then 1 else 0, 0, 0, none⟩
  | .initializeSemaphore count limit =>
      some ⟨.semaphoreObject, if count.toInt > 0 then 1 else 0, limit.toInt, count.toInt, none⟩
  | .initializeMutex => some ⟨.mutantObject, 1, 0, 0, none⟩
  | _ => none

def initialEvents (object : Nat) : Call → List Event
  | .initializeSemaphore count limit => [.semaphoreInitialized object count.toInt limit.toInt]
  | _ => []

/-- How the running thread leaves the processor: what it becomes, where it will
go on, and what its call shows before. -/
structure Departure where
  thread : KThread
  point : Resume
  events : List Event

def departure (dispatcher : Dispatcher) : Call → Option Departure
  | .dispatchNext => some ⟨dispatcher.threads dispatcher.current, .routine, []⟩
  | .exitThread =>
      some ⟨{ dispatcher.threads dispatcher.current with state := .terminated }, .routine, []⟩
  | .waitForSingleObject object poll =>
      if (dispatcher.objects object).signalState ≠ 0 ∨ poll = true then none
      else some ⟨{ dispatcher.threads dispatcher.current with
          state := .waiting, waitObject := some object },
        .waitForSingleObject object, [.waitCalled dispatcher.current object false]⟩
  | .waitThread object =>
      some ⟨{ dispatcher.threads dispatcher.current with
          state := .waiting, waitObject := some object }, .waitThread, []⟩
  | _ => none

/-- The calls in which the running thread leaves, with what it leaves behind. -/
inductive Departs (dispatcher : Dispatcher) : Call → Departure → Prop
  | dispatchNext :
      Departs dispatcher .dispatchNext ⟨dispatcher.threads dispatcher.current, .routine, []⟩
  | exitThread :
      Departs dispatcher .exitThread
        ⟨{ dispatcher.threads dispatcher.current with state := .terminated }, .routine, []⟩
  | waitForSingleObject {object : Nat} (blocks : (dispatcher.objects object).signalState = 0) :
      Departs dispatcher (.waitForSingleObject object false)
        ⟨{ dispatcher.threads dispatcher.current with
            state := .waiting, waitObject := some object },
          .waitForSingleObject object, [.waitCalled dispatcher.current object false]⟩
  | waitThread {object : Nat} :
      Departs dispatcher (.waitThread object)
        ⟨{ dispatcher.threads dispatcher.current with
            state := .waiting, waitObject := some object }, .waitThread, []⟩

theorem departs {dispatcher : Dispatcher} {call : Call} {leave : Departure}
    (leaves : departure dispatcher call = some leave) : Departs dispatcher call leave := by
  cases call with
  | dispatchNext =>
    cases leaves
    exact .dispatchNext
  | exitThread =>
    cases leaves
    exact .exitThread
  | waitForSingleObject object poll =>
    simp only [departure] at leaves
    split at leaves
    · cases leaves
    · rename_i neither
      simp only [not_or, not_not, Bool.not_eq_true] at neither
      obtain ⟨blocks, rfl⟩ := neither
      cases leaves
      exact .waitForSingleObject blocks
  | waitThread object =>
    cases leaves
    exact .waitThread
  | _ => cases leaves

/-- The state in which the running thread has become something else. -/
def Dispatcher.departed (dispatcher : Dispatcher) (links : Links Node) (thread : KThread) :
    Dispatcher :=
  { dispatcher with
    links := links
    threads := update dispatcher.threads dispatcher.current thread }

/-- Everything one call of the running thread can do. -/
inductive Effect (dispatcher : Dispatcher) : Call → Dispatcher → List Event → Prop
  | create {links : Links Node} :
      Effect dispatcher .createThread
        { dispatcher with
          links := links
          threads := update dispatcher.threads dispatcher.threadCount ⟨.ready, 0, none⟩
          threadCount := dispatcher.threadCount + 1
          resume := update dispatcher.resume dispatcher.threadCount .routine } []
  | addObject {call : Call} {contents : DispatcherObject} {links : Links Node}
      (new : newObject call = some contents) :
      Effect dispatcher call
        { dispatcher with
          links := links
          objects := update dispatcher.objects dispatcher.objectCount contents
          objectCount := dispatcher.objectCount + 1 } (initialEvents dispatcher.objectCount call)
  | reset {object : Nat}
      (isEvent : (dispatcher.objects object).type = .eventObject ∨
        (dispatcher.objects object).type = .synchronizationEvent) :
      Effect dispatcher (.resetEvent object)
        (dispatcher.setObject object { dispatcher.objects object with signalState := 0 }) []
  | setEvent {object : Nat} {links : Links Node} {threads : List Nat} {signal : Nat}
      (known : object < dispatcher.objectCount)
      (isEvent : (dispatcher.objects object).type = .eventObject ∨
        (dispatcher.objects object).type = .synchronizationEvent)
      (waiting : ∀ thread ∈ threads, Waits dispatcher thread object) :
      Effect dispatcher (.setEvent object)
        ((dispatcher.setObject object
          { dispatcher.objects object with signalState := signal }).woken links threads
            statusWait0) (threads.map (.woken object))
  | releaseSemaphore {object : Nat} {adjustment : Int32} {links : Links Node}
      {threads : List Nat} (known : object < dispatcher.objectCount)
      (isSemaphore : (dispatcher.objects object).type = .semaphoreObject)
      (waiting : ∀ thread ∈ threads, Waits dispatcher thread object)
      (none : adjustment.toInt ≤ 0 → threads = []) :
      Effect dispatcher (.releaseSemaphore object adjustment)
        ((dispatcher.setObject object
          { dispatcher.objects object with
            currentCount := countAfterRelease (dispatcher.objects object) adjustment.toInt
            signalState := if countAfterRelease (dispatcher.objects object) adjustment.toInt > 0
              then 1 else 0 }).woken links threads statusWait0)
        (.semaphoreReleased object adjustment.toInt :: threads.map (.woken object))
  | foreignRelease {object : Nat}
      (foreign : (dispatcher.objects object).ownerThread ≠ some dispatcher.current) :
      Effect dispatcher (.releaseMutex object) dispatcher []
  | releaseMutex {object : Nat} {links : Links Node}
      (known : object < dispatcher.objectCount)
      (isMutex : (dispatcher.objects object).type = .mutantObject)
      (own : (dispatcher.objects object).ownerThread = some dispatcher.current)
      (nobody : ∀ thread, ¬ Waits dispatcher thread object) :
      Effect dispatcher (.releaseMutex object)
        ((dispatcher.setObject object
          { dispatcher.objects object with ownerThread := none, signalState := 1 }).withLinks
            links) [.mutexReleased dispatcher.current object]
  | handMutex {object thread : Nat} {links : Links Node}
      (known : object < dispatcher.objectCount)
      (isMutex : (dispatcher.objects object).type = .mutantObject)
      (own : (dispatcher.objects object).ownerThread = some dispatcher.current)
      (waiting : Waits dispatcher thread object) :
      Effect dispatcher (.releaseMutex object)
        ((dispatcher.setObject object
          { dispatcher.objects object with
            ownerThread := some thread, signalState := 0 }).woken links [thread] statusWait0)
        [.mutexReleased dispatcher.current object, .woken object thread]
  | waitSignaled {object : Nat} {poll : Bool}
      (known : object < dispatcher.objectCount)
      (signaled : (dispatcher.objects object).signalState ≠ 0) :
      Effect dispatcher (.waitForSingleObject object poll)
        (dispatcher.setObject object (consumeSignal (dispatcher.objects object) dispatcher.current))
        [.waitCalled dispatcher.current object true,
          .waitReturned dispatcher.current object statusWait0]
  | waitPolled {object : Nat} (notSignaled : (dispatcher.objects object).signalState = 0) :
      Effect dispatcher (.waitForSingleObject object true) dispatcher
        [.waitCalled dispatcher.current object false,
          .waitReturned dispatcher.current object statusTimeout]
  | wakeThread {thread : Nat} {status : NtStatus} {links : Links Node}
      (waiting : (dispatcher.threads thread).state = .waiting) :
      Effect dispatcher (.wakeThread thread status) (dispatcher.woken links [thread] status) []
  | switch {call : Call} {leave : Departure} {links between : Links Node} {new : Nat}
      (leaves : departure dispatcher call = some leave) (different : new ≠ dispatcher.current)
      (ready : (dispatcher.threads new).state = .ready) :
      Effect dispatcher call
        ((dispatcher.departed between leave.thread).switched links new leave.point)
        (leave.events ++
          returnEvents new (dispatcher.threads new).waitStatus (dispatcher.resume new))
  | idle {call : Call} {leave : Departure} (leaves : departure dispatcher call = some leave)
      (plain : leave.point = .routine)
      (nobody : ∀ thread, (dispatcher.threads thread).state ≠ .ready) :
      Effect dispatcher call (dispatcher.departed dispatcher.links leave.thread) []
  | recover {call : Call} {leave : Departure} {links : Links Node}
      (leaves : departure dispatcher call = some leave) (blocks : leave.point ≠ .routine)
      (nobody : ∀ thread, (dispatcher.threads thread).state ≠ .ready) :
      Effect dispatcher call (dispatcher.departed links { leave.thread with state := .ready })
        (leave.events ++
          returnEvents dispatcher.current leave.thread.waitStatus leave.point)

/-- Calls of the documented interface; `KiWaitThread` and `KiWakeThread` are made
by it alone. -/
def Call.isApi : Call → Bool
  | .waitThread _ => false
  | .wakeThread _ _ => false
  | _ => true

/-- The wait list of an object behind an event: a wait joins it at the end, and a
thread that is woken or returns leaves it. -/
def waitStep (object : Nat) (waiters : List Nat) : Event → List Nat
  | .waitCalled thread other false => if other = object then waiters ++ [thread] else waiters
  | .waitReturned thread other _ => if other = object then waiters.erase thread else waiters
  | .woken other thread => if other = object then waiters.erase thread else waiters
  | _ => waiters

/-- Objects that have not been initialised have no waiters. -/
def NoneWaitsEarly (dispatcher : Dispatcher) (cells : Node → List Nat) : Prop :=
  ∀ object, dispatcher.objectCount ≤ object → cells (.object object) = []

/-- The wait lists change as the events say. -/
def ListsFollow (dispatcher : Dispatcher) (cells : Node → List Nat) (events : List Event)
    (after : Dispatcher) (cells' : Node → List Nat) : Prop :=
  NoneWaitsEarly dispatcher cells → NoneWaitsEarly after cells' ∧
    ∀ object, cells' (.object object) = events.foldl (waitStep object) (cells (.object object))

section Steps

variable {dispatcher : Dispatcher} {cells : Node → List Nat}

theorem foldl_woken (object : Nat) (threads back : List Nat) :
    (threads.map (.woken object)).foldl (waitStep object) (threads ++ back) = back := by
  induction threads with
  | nil => rfl
  | cons thread threads ih =>
    rw [map_cons, foldl_cons, cons_append]
    have first : waitStep object (thread :: (threads ++ back)) (.woken object thread) =
        threads ++ back := by
      simp [waitStep]
    rw [first, ih]

theorem foldl_woken_other {object other : Nat} (different : object ≠ other)
    (threads waiters : List Nat) :
    (threads.map (.woken object)).foldl (waitStep other) waiters = waiters := by
  induction threads with
  | nil => rfl
  | cons thread threads ih =>
    rw [map_cons, foldl_cons]
    simpa only [waitStep, different, ↓reduceIte] using ih

theorem foldl_returnEvents {thread object : Nat} {waiters : List Nat} (absent : thread ∉ waiters)
    (status : NtStatus) (point : Resume) :
    (returnEvents thread status point).foldl (waitStep object) waiters = waiters := by
  cases point with
  | waitForSingleObject other => simp [returnEvents, waitStep, erase_of_not_mem absent]
  | _ => rfl

theorem wokenCells_follow {object : Nat} (known : object < dispatcher.objectCount) (count : Nat)
    {after : Dispatcher} (same : after.objectCount = dispatcher.objectCount) :
    ListsFollow dispatcher cells (((cells (.object object)).take count).map (.woken object)) after
      (wokenCells cells object count) := by
  intro early
  have others : ∀ other, other ≠ object →
      wokenCells cells object count (.object other) = cells (.object other) := by
    intro other different
    simp [wokenCells, different]
  constructor
  · intro other fresh
    rw [others other (by omega)]
    exact early other (by omega)
  · intro other
    by_cases here : other = object
    · subst here
      have woken := foldl_woken other ((cells (.object other)).take count)
        ((cells (.object other)).drop count)
      rw [take_append_drop] at woken
      rw [woken]
      simp [wokenCells]
    · rw [others other here, foldl_woken_other (Ne.symm here)]

@[simp] theorem setObject_threads (dispatcher : Dispatcher) (object : Nat)
    (contents : DispatcherObject) :
    (dispatcher.setObject object contents).threads = dispatcher.threads := rfl

theorem setObject_type_ne {dispatcher : Dispatcher} {object other : Nat}
    {contents : DispatcherObject} {type : ObjectType}
    (isType : ((dispatcher.setObject object contents).objects other).type = type)
    (different : contents.type ≠ type) :
    other ≠ object ∧ (dispatcher.objects other).type = type := by
  have elsewhere : other ≠ object := by
    rintro rfl
    simp only [setObject, update_self] at isType
    exact different isType
  simp only [setObject, update_of_ne elsewhere] at isType
  exact ⟨elsewhere, isType⟩

@[simp] theorem woken_objects (dispatcher : Dispatcher) (links : Links Node) (threads : List Nat)
    (status : NtStatus) :
    (dispatcher.woken links threads status).objects = dispatcher.objects := rfl

theorem Settled.setObject (settled : Settled dispatcher cells) (object : Nat)
    (contents : DispatcherObject) : Settled (dispatcher.setObject object contents) cells :=
  ⟨settled.listed, settled.waitKnown, settled.created, settled.running⟩

variable {object : Nat} {after : Dispatcher} {events : List Event} {call : Call} {leave : Departure}

theorem Settled.waits_iff (settled : Settled dispatcher cells)
    (known : object < dispatcher.objectCount) (thread : Nat) :
    thread ∈ cells (.object object) ↔ Waits dispatcher thread object :=
  (settled.listed.member (.object object) known thread).trans (place_object _ _)

theorem CurrentOk.notWaiting (ok : CurrentOk dispatcher cells) :
    (dispatcher.threads dispatcher.current).state ≠ .waiting := by
  rcases ok with running | terminated | stale
  · simp [running]
  · simp [terminated]
  · simp [stale.1]

theorem Settled.current_notWaiting (settled : Settled dispatcher cells)
    (ok : CurrentOk dispatcher cells) (early : NoneWaitsEarly dispatcher cells) (object : Nat) :
    dispatcher.current ∉ cells (.object object) := by
  by_cases known : object < dispatcher.objectCount
  · rw [settled.waits_iff known]
    exact fun waits => ok.notWaiting waits.1
  · rw [early object (by omega)]
    exact not_mem_nil

theorem CurrentOk.woken (ok : CurrentOk dispatcher cells) {threads : List Nat}
    (waiting : ∀ thread ∈ threads, (dispatcher.threads thread).state = .waiting)
    {after : Node → List Nat} (head : ∀ thread, (cells .ready).head? = some thread →
      (after .ready).head? = some thread) (links : Links Node) (status : NtStatus) :
    CurrentOk (dispatcher.woken links threads status) after := by
  have outside : dispatcher.current ∉ threads := fun member =>
    ok.notWaiting (waiting _ member)
  have same : (dispatcher.woken links threads status).threads dispatcher.current =
      dispatcher.threads dispatcher.current := if_neg outside
  rcases ok with running | terminated | stale
  · exact .inl (same ▸ running)
  · exact .inr (.inl (same ▸ terminated))
  · exact .inr (.inr ⟨same ▸ stale.1, head _ stale.2⟩)

theorem wokenCells_head (object count : Nat) (thread : Nat)
    (head : (cells .ready).head? = some thread) :
    (wokenCells cells object count .ready).head? = some thread := by
  simp [wokenCells, head]

section Settled

variable (settled : Settled dispatcher cells)
include settled

theorem Settled.wakeSome (ok : CurrentOk dispatcher cells) (known : object < dispatcher.objectCount)
    (contents : DispatcherObject) (count : Nat) :
    ∃ links threads, threads = (cells (.object object)).take count ∧
      wakeWaiters object count (dispatcher.setObject object contents) =
        some (threads, (dispatcher.setObject object contents).woken links threads statusWait0) ∧
      (∀ thread ∈ threads, Waits dispatcher thread object) ∧
      Settled ((dispatcher.setObject object contents).woken links threads statusWait0)
        (wokenCells cells object count) ∧
      CurrentOk ((dispatcher.setObject object contents).woken links threads statusWait0)
        (wokenCells cells object count) := by
  obtain ⟨links, result, kept⟩ := wakeWaiters_spec count _ _
    (settled.setObject object contents) known
  have waiting : ∀ thread ∈ (cells (.object object)).take count,
      Waits dispatcher thread object := by
    intro thread member
    exact (settled.waits_iff known thread).mp (mem_of_mem_take member)
  refine ⟨links, _, rfl, result, waiting, kept, ?_⟩
  have before : CurrentOk (dispatcher.setObject object contents) cells := ok
  exact before.woken (fun thread member => (waiting thread member).1)
    (fun thread => wokenCells_head object count thread) links statusWait0

theorem Settled.waiters_length (known : object < dispatcher.objectCount) :
    (cells (.object object)).length ≤ dispatcher.threadCount := by
  have once := (nodup_cons.mp (settled.listed.ring (.object object) known).once).2
  apply Chain.length_le_of_nodup (List.Nodup.of_map _ once)
  intro thread member
  have waits := (settled.waits_iff known thread).mp member
  by_contra outside
  have initialized := settled.created thread (by omega)
  rw [waits.1] at initialized
  cases initialized

/-- `KeSetEvent` wakes all waiters of a notification event, and the first one of a
synchronization event. -/
theorem keSetEvent_eq (known : object < dispatcher.objectCount)
    (isEvent : (dispatcher.objects object).type = .eventObject ∨
      (dispatcher.objects object).type = .synchronizationEvent) :
    ∃ links count, (cells (.object object)).take count =
        (if (dispatcher.objects object).type = .eventObject then cells (.object object)
          else (cells (.object object)).take 1) ∧
      keSetEvent dispatcher object = some ((dispatcher.objects object).signalState,
        (dispatcher.setObject object { dispatcher.objects object with
          signalState := if (dispatcher.objects object).type = .eventObject ∨
            cells (.object object) = [] then 1 else 0 }).woken links
              ((cells (.object object)).take count) statusWait0,
        ((cells (.object object)).take count).map (.woken object)) ∧
      Settled ((dispatcher.setObject object { dispatcher.objects object with
          signalState := if (dispatcher.objects object).type = .eventObject ∨
            cells (.object object) = [] then 1 else 0 }).woken links
              ((cells (.object object)).take count) statusWait0)
        (wokenCells cells object count) := by
  have stored : Settled (dispatcher.setObject object
      { dispatcher.objects object with signalState := 1 }) cells := settled.setObject _ _
  dsimp only at stored
  rcases isEvent with isEvent | isEvent
  · have length := settled.waiters_length known
    have all := kiWakeAllWaiters_eq (dispatcher.threadCount + 1) _ cells stored known (by omega)
    obtain ⟨links, result, kept⟩ := wakeWaiters_spec (dispatcher.threadCount + 1) _ _ stored known
    refine ⟨links, dispatcher.threadCount + 1, ?_, ?_, ?_⟩
    · rw [if_pos isEvent, take_of_length_le (by omega)]
    · unfold keSetEvent
      dsimp only
      split
      · rw [all, result, if_pos (.inl isEvent)]
        rfl
      · rename_i other
        exact absurd isEvent other
    · rw [if_pos (.inl isEvent)]
      exact kept
  · have other : (dispatcher.objects object).type ≠ .eventObject := by
      rw [isEvent]
      simp
    cases shape : cells (.object object) with
    | nil =>
      have none := kiWakeFirstWaiter_empty stored known shape statusWait0
      have same : wokenCells cells object 1 = cells := wokenCells_nil shape 1
      refine ⟨dispatcher.links, 1, by simp, ?_, ?_⟩
      · unfold keSetEvent
        dsimp only
        split
        · rename_i notification
          exact absurd notification other
        · rw [none]
          simp [woken, setObject]
      · rw [same]
        simpa [woken, setObject] using stored
    | cons thread rest =>
      obtain ⟨links, result, kept⟩ := kiWakeFirstWaiter_cons stored known shape statusWait0
      refine ⟨links, 1, by simp [isEvent], ?_, ?_⟩
      · unfold keSetEvent
        dsimp only
        split
        · rename_i notification
          exact absurd notification other
        · rw [result]
          simp [woken, setObject, other]
      · have cleared := kept.setObject object
          { dispatcher.objects object with signalState := 0 }
        simpa [woken, setObject, isEvent] using cleared

section Ok

variable (ok : CurrentOk dispatcher cells)
include ok

theorem setEvent_effect (known : object < dispatcher.objectCount)
    (isEvent : (dispatcher.objects object).type = .eventObject ∨
      (dispatcher.objects object).type = .synchronizationEvent)
    (done : (keSetEvent dispatcher object).map Prod.snd = some (after, events)) :
    Effect dispatcher (.setEvent object) after events ∧
      ∃ cells', Settled after cells' ∧ CurrentOk after cells' ∧
        ListsFollow dispatcher cells events after cells' := by
  obtain ⟨links, count, _, result, kept⟩ := keSetEvent_eq settled known isEvent
  rw [result] at done
  cases done
  have waiting : ∀ thread ∈ (cells (.object object)).take count,
      Waits dispatcher thread object := by
    intro thread member
    exact (settled.waits_iff known thread).mp (mem_of_mem_take member)
  have before : CurrentOk (dispatcher.setObject object { dispatcher.objects object with
      signalState := if (dispatcher.objects object).type = .eventObject ∨
        cells (.object object) = [] then 1 else 0 }) cells := ok
  exact ⟨.setEvent known isEvent waiting, _, kept,
    before.woken (fun thread member => (waiting thread member).1)
      (fun thread => wokenCells_head object count thread) links statusWait0,
    wokenCells_follow known count rfl⟩

theorem releaseSemaphore_effect (known : object < dispatcher.objectCount)
    (isSemaphore : (dispatcher.objects object).type = .semaphoreObject) {adjustment : Int32}
    (done : (keReleaseSemaphore dispatcher object adjustment.toInt).map Prod.snd =
      some (after, events)) :
    Effect dispatcher (.releaseSemaphore object adjustment) after events ∧
      ∃ cells', Settled after cells' ∧ CurrentOk after cells' ∧
        ListsFollow dispatcher cells events after cells' := by
  unfold keReleaseSemaphore at done
  dsimp only at done
  obtain ⟨links, threads, shape, result, waiting, kept, current⟩ := settled.wakeSome ok known
    { dispatcher.objects object with
      currentCount := countAfterRelease (dispatcher.objects object) adjustment.toInt
      signalState := if countAfterRelease (dispatcher.objects object) adjustment.toInt > 0
        then 1 else 0 } adjustment.toInt.toNat
  rw [result] at done
  cases done
  subst shape
  refine ⟨.releaseSemaphore known isSemaphore waiting ?_, _, kept, current,
    wokenCells_follow known _ rfl⟩
  intro negative
  rw [Int.toNat_of_nonpos negative, take_zero]

/-- A release of a mutex, with nobody or somebody waiting. -/
theorem releaseMutex_effect (known : object < dispatcher.objectCount)
    (isMutex : (dispatcher.objects object).type = .mutantObject)
    (done : keReleaseMutex dispatcher object = some (after, events)) :
    Effect dispatcher (.releaseMutex object) after events ∧
      ∃ cells', Settled after cells' ∧ CurrentOk after cells' ∧
        ListsFollow dispatcher cells events after cells' := by
  unfold keReleaseMutex at done
  dsimp only at done
  by_cases own : (dispatcher.objects object).ownerThread = some dispatcher.current
  · rw [if_neg (not_not.mpr own)] at done
    have dropped := settled.setObject object
      { dispatcher.objects object with ownerThread := none }
    have before : CurrentOk (dispatcher.setObject object
      { dispatcher.objects object with ownerThread := none }) cells := ok
    have ring := dropped.listed.ring (.object object) known
    cases shape : cells (.object object) with
    | nil =>
      rw [shape] at ring
      rw [if_pos (ring.isListEmpty_iff.mpr rfl)] at done
      cases done
      have nobody : ∀ thread, ¬ Waits dispatcher thread object := by
        intro thread waits
        have member := (settled.waits_iff known thread).mpr waits
        rw [shape] at member
        cases member
      have effect : Effect dispatcher (.releaseMutex object)
          ((dispatcher.setObject object { dispatcher.objects object with
            ownerThread := none, signalState := 1 }).withLinks dispatcher.links)
          [.mutexReleased dispatcher.current object] :=
        .releaseMutex known isMutex own nobody
      refine ⟨?_, cells, dropped.setObject _ _, before, fun early => ⟨early, fun _ => rfl⟩⟩
      simpa [setObject, withLinks] using effect
    | cons thread rest =>
      rw [shape, map_cons] at ring
      have notEmpty : ¬ isListEmpty (dispatcher.setObject object
          { dispatcher.objects object with ownerThread := none }).links (.object object) =
            true := by
        rw [ring.isListEmpty_iff]
        simp
      obtain ⟨links, result, kept⟩ := kiWakeFirstWaiter_cons dropped known shape statusWait0
      rw [if_neg notEmpty, result] at done
      cases done
      have waits : Waits dispatcher thread object := by
        apply (settled.waits_iff known thread).mp
        rw [shape]
        exact mem_cons_self
      have effect : Effect dispatcher (.releaseMutex object)
          ((dispatcher.setObject object { dispatcher.objects object with
            ownerThread := some thread, signalState := 0 }).woken links [thread] statusWait0)
          [.mutexReleased dispatcher.current object, .woken object thread] :=
        .handMutex known isMutex own waits
      refine ⟨?_, _, kept.setObject _ _, ?_, ?_⟩
      · simpa [woken, setObject] using effect
      · exact before.woken (by simpa using waits.1)
          (fun thread => wokenCells_head object 1 thread) links statusWait0
      · have first : (cells (.object object)).take 1 = [thread] := by
          rw [shape]
          rfl
        have follow := @wokenCells_follow dispatcher cells object known 1 _ rfl
        rw [first] at follow
        exact follow
  · rw [if_pos own] at done
    cases done
    exact ⟨.foreignRelease own, cells, settled, ok, fun early => ⟨early, fun _ => rfl⟩⟩

end Ok

theorem CurrentOk.head_self (stale : (cells .ready).head? = some dispatcher.current) :
    dispatcher.links.flink .ready = .thread dispatcher.current := by
  have ring := settled.listed.ring .ready trivial
  cases shape : cells .ready with
  | nil =>
    rw [shape] at stale
    cases stale
  | cons first rest =>
    rw [shape] at stale ring
    have here : first = dispatcher.current := Option.some.inj stale
    rw [here] at ring
    exact ring.flink_head

/-- A terminated thread leaves the lists as they are. -/
theorem Settled.terminated (running : (dispatcher.threads dispatcher.current).state = .running) :
    Settled (dispatcher.setState dispatcher.current .terminated) cells := by
  have idle : (dispatcher.threads dispatcher.current).place = none :=
    place_none (by rw [running]; simp) (by rw [running]; simp)
  have place : (dispatcher.setState dispatcher.current .terminated).placeOf =
      dispatcher.placeOf := by
    refine (placeOf_update dispatcher dispatcher.current _).trans ?_
    apply update_eq_self_iff.mpr
    exact idle.symm
  refine ⟨?_, ?_, ?_, ?_⟩
  · rw [place]
    exact settled.listed
  · intro thread waiting
    by_cases isCurrent : thread = dispatcher.current
    · subst thread
      simp [setState, setThread] at waiting
    · simp only [setState, setThread, update_of_ne isCurrent]
        at waiting ⊢
      exact settled.waitKnown thread waiting
  · intro thread fresh
    have initialized := settled.created thread fresh
    have other : thread ≠ dispatcher.current := by
      intro same
      rw [same, running] at initialized
      cases initialized
    simp only [setState, setThread, update_of_ne other]
    exact initialized
  · intro thread isRunning
    by_cases isCurrent : thread = dispatcher.current
    · exact isCurrent
    · simp only [setState, setThread, update_of_ne isCurrent]
        at isRunning
      exact settled.running thread isRunning

end Settled

/-- A departing thread has left the processor but not yet been replaced. -/
structure Departing (dispatcher : Dispatcher) (cells : Node → List Nat) (leave : Departure)
    (between : Links Node) (after : Node → List Nat) : Prop where
  settled : Settled (dispatcher.departed between leave.thread) after
  ready : after .ready = cells .ready
  plain : leave.point = .routine → between = dispatcher.links ∧ leave.events = [] ∧
    (leave.thread.state = .running ∨ leave.thread.state = .terminated)
  blocked : leave.point ≠ .routine → leave.thread.state = .waiting ∧
    ∃ object front, object < dispatcher.objectCount ∧
      after (.object object) = front ++ [dispatcher.current]

theorem departed_self (dispatcher : Dispatcher) :
    dispatcher.departed dispatcher.links (dispatcher.threads dispatcher.current) = dispatcher := by
  simp only [departed, update_eq_self]

theorem accepts_running (alive : (dispatcher.threads dispatcher.current).state = .running ∨
      (dispatcher.threads dispatcher.current).state = .terminated)
    (accepted : dispatcher.accepts call = true) (other : call ≠ .dispatchNext) :
    (dispatcher.threads dispatcher.current).state = .running := by
  rcases alive with running | terminated
  · exact running
  · cases call <;> simp [accepts, terminated] at accepted other

theorem departure_point (api : call.isApi = true)
    (leaves : departure dispatcher call = some leave) :
    leave.point = .routine ∨ ∃ object, leave.point = .waitForSingleObject object ∧
      leave.thread.waitObject = some object := by
  cases departs leaves with
  | dispatchNext | exitThread => exact .inl rfl
  | @waitForSingleObject object blocks => exact .inr ⟨object, rfl, rfl⟩
  | waitThread => cases api

/-- The lists when the running thread leaves the processor. -/
theorem Settled.departing (settled : Settled dispatcher cells)
    (alive : (dispatcher.threads dispatcher.current).state = .running ∨
      (dispatcher.threads dispatcher.current).state = .terminated)
    (accepted : dispatcher.accepts call = true) (leaves : departure dispatcher call = some leave) :
    ∃ between after, Departing dispatcher cells leave between after ∧
      (call.isApi = true → ListsFollow dispatcher cells leave.events
        (dispatcher.departed between leave.thread) after) ∧
      perform dispatcher call =
        (kiDispatchNextThread (dispatcher.departed between leave.thread) leave.point).map
          fun result => (result.1, leave.events ++ result.2) := by
  have plain : ∀ result : Option (Dispatcher × List Event),
      result = result.map fun parts => (parts.1, [] ++ parts.2) := by
    intro result
    cases result <;> rfl
  cases departs leaves with
  | dispatchNext =>
    refine ⟨dispatcher.links, cells, ⟨?_, rfl, fun _ => ⟨rfl, rfl, alive⟩,
      fun blocks => absurd rfl blocks⟩, fun _ early => ⟨early, fun _ => rfl⟩, ?_⟩
    · rw [departed_self]
      exact settled
    · rw [departed_self]
      exact plain _
  | exitThread =>
    have running := accepts_running alive accepted (by simp)
    exact ⟨dispatcher.links, cells, ⟨settled.terminated running, rfl,
      fun _ => ⟨rfl, rfl, .inr rfl⟩, fun blocks => absurd rfl blocks⟩,
      fun _ early => ⟨early, fun _ => rfl⟩, plain _⟩
  | @waitForSingleObject object blocks =>
    have running := accepts_running alive accepted (by simp)
    have known : object < dispatcher.objectCount := by
      simpa [accepts, running] using accepted
    refine ⟨_, _, ⟨settled.blocked known running, ?_, (fun routine => nomatch routine),
      fun _ => ⟨rfl, object, cells (.object object), known, update_self _ _ _⟩⟩, ?_, ?_⟩
    · exact update_of_ne (by simp) _ _
    · intro _ early
      constructor
      · intro other fresh
        have different : other ≠ object := by
          rintro rfl
          exact absurd known (Nat.not_lt.mpr fresh)
        rw [update_of_ne (by simpa using different)]
        exact early other fresh
      · intro other
        by_cases here : object = other
        · subst here
          simp [waitStep]
        · rw [update_of_ne (by simpa using Ne.symm here)]
          simp [waitStep, here]
    · simp only [perform, keWaitForSingleObject, blocks, ne_eq, not_true_eq_false,
        Bool.false_eq_true, ↓reduceIte, kiWaitThread_eq]
      rfl
  | @waitThread object =>
    have running := accepts_running alive accepted (by simp)
    have known : object < dispatcher.objectCount := by
      simpa [accepts, running] using accepted
    refine ⟨_, _, ⟨settled.blocked known running, ?_, (fun routine => nomatch routine),
      fun _ => ⟨rfl, object, cells (.object object), known, update_self _ _ _⟩⟩,
      (fun api => nomatch api), plain _⟩
    exact update_of_ne (by simp) _ _

/-- Without another ready thread the departing one goes on. -/
theorem Departing.recover {leave : Departure} {between : Links Node} {after : Node → List Nat}
    (departing : Departing dispatcher cells leave between after) (empty : cells .ready = [])
    (blocks : leave.point ≠ .routine) :
    ∃ links cells', continueAt (dispatcher.departed between leave.thread) dispatcher.current
          leave.point =
        (dispatcher.departed links { leave.thread with state := .ready },
          returnEvents dispatcher.current leave.thread.waitStatus leave.point) ∧
      Settled (dispatcher.departed links { leave.thread with state := .ready }) cells' ∧
      CurrentOk (dispatcher.departed links { leave.thread with state := .ready }) cells' ∧
      ∀ other, (other < dispatcher.objectCount ∨ after (.object other) = []) →
        cells' (.object other) = (after (.object other)).erase dispatcher.current := by
  obtain ⟨waiting, object, front, known, shape⟩ := departing.blocked blocks
  have here : (dispatcher.departed between leave.thread).threads dispatcher.current =
      leave.thread := update_self _ _ _
  have woken : afterWait (dispatcher.departed between leave.thread) dispatcher.current =
      dispatcher.departed (insertTailList (clearEntry (removeEntryList between
        (.thread dispatcher.current)) (.thread dispatcher.current)) .ready
        (.thread dispatcher.current)) { leave.thread with state := .ready } := by
    rw [afterWait, if_pos (by rw [here]; exact waiting)]
    simp only [setState, setThread, withLinks, here]
    simp only [departed, update_idem]
  have ready : ({ leave.thread with state := .ready } : KThread).state = .ready := rfl
  have kept := departing.settled.makeReady known shape ready
  simp only [departed, update_idem] at kept
  refine ⟨_, _, ?_, kept, .inr (.inr ⟨?_, ?_⟩), ?_⟩
  · cases point : leave.point with
    | routine => exact absurd point blocks
    | waitThread => simp only [continueAt, woken, returnEvents]
    | waitForSingleObject object =>
      simp only [continueAt, woken, returnEvents]
      simp [departed]
  · simp [departed]
  · simp [departing.ready, empty, departed]
  · intro other listed
    have once := (nodup_cons.mp (departing.settled.listed.ring (.object object) known).once).2
    have apart := List.Nodup.of_map _ once
    rw [shape] at apart
    by_cases same : other = object
    · subst same
      have absent : dispatcher.current ∉ front := fun member =>
        (nodup_append.mp apart).2.2 _ member _ mem_cons_self rfl
      rw [shape, erase_append_right _ absent]
      simp
    · have absent : dispatcher.current ∉ after (.object other) := by
        rcases listed with inRange | empty
        · intro member
          have here := (departing.settled.waits_iff inRange _).mp member
          have there := (departing.settled.waits_iff known dispatcher.current).mp
            (by rw [shape]; simp)
          exact same (Option.some.inj (here.2.symm.trans there.2))
        · rw [empty]
          exact not_mem_nil
      rw [erase_of_not_mem absent]
      simp [same]

/-- What a departure does, whichever thread the switch finds. -/
theorem Departing.effect {between : Links Node} {after : Node → List Nat}
    (departing : Departing dispatcher cells leave between after)
    (settled : Settled dispatcher cells) (leaves : departure dispatcher call = some leave)
    (follow : call.isApi = true → ListsFollow dispatcher cells leave.events
      (dispatcher.departed between leave.thread) after) {final : Dispatcher}
    (done : ((kiDispatchNextThread (dispatcher.departed between leave.thread) leave.point).map
      fun result => (result.1, leave.events ++ result.2)) = some (final, events)) :
    Effect dispatcher call final events ∧
      ∃ cells', Settled final cells' ∧ CurrentOk final cells' ∧
        (call.isApi = true → ListsFollow dispatcher cells events final cells') := by
  cases shape : cells .ready with
  | nil =>
    have nobody : ∀ thread, (dispatcher.threads thread).state ≠ .ready := by
      intro thread ready
      have member := (settled.ready_iff thread).mpr ready
      rw [shape] at member
      cases member
    have empty : after .ready = [] := departing.ready.trans shape
    rw [kiDispatchNextThread_idle departing.settled empty] at done
    by_cases routine : leave.point = .routine
    · obtain ⟨rfl, quiet, state⟩ := departing.plain routine
      rw [routine, quiet] at done
      rw [quiet] at follow
      cases done
      refine ⟨.idle leaves routine nobody, after, departing.settled, ?_, follow⟩
      have here : (dispatcher.departed dispatcher.links leave.thread).threads
          dispatcher.current = leave.thread := update_self _ _ _
      rcases state with running | terminated
      · exact .inl (here.symm ▸ running)
      · exact .inr (.inl (here.symm ▸ terminated))
    · obtain ⟨links, cells', result, kept, current, left⟩ := departing.recover shape routine
      have same : (dispatcher.departed between leave.thread).current = dispatcher.current := rfl
      rw [same, result] at done
      cases done
      refine ⟨.recover leaves routine nobody, cells', kept, current, ?_⟩
      intro api early
      obtain ⟨none, lists⟩ := follow api early
      have listed : ∀ other, other < dispatcher.objectCount ∨ after (.object other) = [] := by
        intro other
        rcases Nat.lt_or_ge other dispatcher.objectCount with inRange | fresh
        · exact .inl inRange
        · exact .inr (none other fresh)
      constructor
      · intro other fresh
        rw [left other (listed other), none other fresh]
        rfl
      · intro other
        rw [foldl_append, ← lists other, left other (listed other)]
        rcases departure_point api leaves with plain | ⟨object, point, place⟩
        · exact absurd plain routine
        by_cases here : object = other
        · rw [point]
          simp [returnEvents, waitStep, here]
        have absent : dispatcher.current ∉ after (.object other) := by
          rcases listed other with inRange | empty
          · intro member
            have waits := (departing.settled.waits_iff inRange _).mp member
            have self : (dispatcher.departed between leave.thread).threads
                dispatcher.current = leave.thread := update_self _ _ _
            rw [Waits, self, place] at waits
            exact here (Option.some.inj waits.2)
          · rw [empty]
            exact not_mem_nil
        rw [foldl_returnEvents absent, erase_of_not_mem absent]
  | cons new rest =>
    have first : after .ready = new :: rest := departing.ready.trans shape
    have newReady := (settled.ready_iff new).mp (by rw [shape]; exact mem_cons_self)
    have here : (dispatcher.departed between leave.thread).threads dispatcher.current =
        leave.thread := update_self _ _ _
    have different : new ≠ dispatcher.current := by
      intro same
      have nowReady := (departing.settled.ready_iff new).mp (by rw [first]; exact mem_cons_self)
      rw [same, here] at nowReady
      by_cases routine : leave.point = .routine
      · rcases (departing.plain routine).2.2 with running | terminated
        · simp [running] at nowReady
        · simp [terminated] at nowReady
      · simp [(departing.blocked routine).1] at nowReady
    have old : (dispatcher.departed between leave.thread).threads new =
        dispatcher.threads new := update_of_ne different _ _
    obtain ⟨links, result, kept⟩ := kiDispatchNextThread_switch departing.settled first
      different leave.point
    rw [result, old] at done
    cases done
    refine ⟨.switch leaves different newReady, _, kept, .inl ?_, ?_⟩
    · simp [switched]
    · intro api early
      obtain ⟨none, lists⟩ := follow api early
      have same : ∀ other, switchedCells (dispatcher.departed between leave.thread) after rest
          (.object other) = after (.object other) := by
        intro other
        simp [switchedCells]
      constructor
      · intro other fresh
        rw [same]
        exact none other fresh
      · intro other
        have absent : new ∉ after (.object other) := by
          rcases Nat.lt_or_ge other dispatcher.objectCount with inRange | fresh
          · intro member
            have waits := (departing.settled.waits_iff inRange _).mp member
            rw [Waits, old, newReady] at waits
            cases waits.1
          · rw [none other fresh]
            exact not_mem_nil
        rw [same, foldl_append, ← lists other, foldl_returnEvents absent]

section Settled

variable (settled : Settled dispatcher cells)
include settled

theorem Settled.stale_lost (stale : (cells .ready).head? = some dispatcher.current)
    (ready : (dispatcher.threads dispatcher.current).state = .ready)
    (accepted : dispatcher.accepts call = true)
    (leaves : departure dispatcher call = some leave) : perform dispatcher call = none := by
  have head := CurrentOk.head_self settled stale
  -- joining a wait list does not change the head of the ready queue
  have blocked : ∀ object point, object < dispatcher.objectCount →
      kiWaitThread dispatcher object point = none := by
    intro object point known
    have isObject : IsHead dispatcher.objectCount (.object object) := known
    have last := (settled.listed.ring (.object object) isObject).arc.blink_mem
    have other : Node.ready ≠ dispatcher.links.blink (.object object) := by
      intro same
      rw [← same] at last
      simp at last
    rw [kiWaitThread_eq]
    apply kiDispatchNextThread_self
    show (insertTailList dispatcher.links (.object object)
      (.thread dispatcher.current)).flink .ready = .thread dispatcher.current
    rw [insertTailList_flink, if_neg other, if_neg (by simp), head]
  cases departs leaves with
  | dispatchNext => exact kiDispatchNextThread_self head _
  | exitThread =>
    show kiDispatchNextThread (dispatcher.setState dispatcher.current .terminated) .routine = none
    apply kiDispatchNextThread_self
    exact head
  | @waitForSingleObject object blocks =>
    have known : object < dispatcher.objectCount := by
      simpa [accepts, ready] using accepted
    simp only [perform, keWaitForSingleObject, blocks, ne_eq, not_true_eq_false,
      Bool.false_eq_true, ↓reduceIte, blocked object _ known, Option.map_none]
  | @waitThread object =>
    have known : object < dispatcher.objectCount := by
      simpa [accepts, ready] using accepted
    exact blocked object _ known

section Ok

variable (ok : CurrentOk dispatcher cells)
include ok

theorem departure_effect (accepted : dispatcher.accepts call = true)
    (leaves : departure dispatcher call = some leave)
    (done : perform dispatcher call = some (after, events)) :
    Effect dispatcher call after events ∧
      ∃ cells', Settled after cells' ∧ CurrentOk after cells' ∧
        (call.isApi = true → ListsFollow dispatcher cells events after cells') := by
  rcases ok with running | terminated | stale
  · obtain ⟨between, _, departing, follow, result⟩ :=
      settled.departing (.inl running) accepted leaves
    exact departing.effect settled leaves follow (result ▸ done)
  · obtain ⟨between, _, departing, follow, result⟩ :=
      settled.departing (.inr terminated) accepted leaves
    exact departing.effect settled leaves follow (result ▸ done)
  · rw [settled.stale_lost stale.2 stale.1 accepted leaves] at done
    cases done

/-- A new thread is ready, at the end of the list. -/
theorem createThread_effect :
    Effect dispatcher .createThread (psCreateSystemThread dispatcher) [] ∧
      ∃ cells', Settled (psCreateSystemThread dispatcher) cells' ∧
        CurrentOk (psCreateSystemThread dispatcher) cells' ∧
        ListsFollow dispatcher cells [] (psCreateSystemThread dispatcher) cells' := by
  have initialized := settled.created dispatcher.threadCount (Nat.le_refl _)
  have isReady : IsHead dispatcher.objectCount .ready := trivial
  have idle : dispatcher.placeOf dispatcher.threadCount = none :=
    place_none (by rw [initialized]; simp) (by rw [initialized]; simp)
  have shape : psCreateSystemThread dispatcher =
      { dispatcher with
        links := insertTailList dispatcher.links .ready (.thread dispatcher.threadCount)
        threads := update dispatcher.threads dispatcher.threadCount ⟨.ready, 0, none⟩
        threadCount := dispatcher.threadCount + 1
        resume := update dispatcher.resume dispatcher.threadCount .routine } := by
    simp only [psCreateSystemThread, kiReadyThread, setState, setThread,
      withLinks, update_self, update_idem]
  have currentOther : dispatcher.current ≠ dispatcher.threadCount := by
    intro same
    rw [← same] at initialized
    rcases ok with running | terminated | stale
    · simp [running] at initialized
    · simp [terminated] at initialized
    · simp [stale.1] at initialized
  rw [shape]
  refine ⟨.create, update cells .ready (cells .ready ++ [dispatcher.threadCount]),
    ⟨?_, ?_, ?_, ?_⟩, ?_, ?_⟩
  · have inserted := settled.listed.insert isReady idle
    have place : (⟨.ready, 0, none⟩ : KThread).place = some .ready := rfl
    rw [← place, ← placeOf_update] at inserted
    exact inserted
  · intro thread waiting
    have other : thread ≠ dispatcher.threadCount := by
      intro same
      simp [same] at waiting
    simp only [update_of_ne other] at waiting ⊢
    exact settled.waitKnown thread waiting
  · intro thread fresh
    dsimp only at fresh
    have other : thread ≠ dispatcher.threadCount := by omega
    simp only [update_of_ne other]
    exact settled.created thread (by omega)
  · intro thread running
    have other : thread ≠ dispatcher.threadCount := by
      intro same
      simp [same] at running
    simp only [update_of_ne other] at running
    exact settled.running thread running
  · simp only [CurrentOk, update_of_ne currentOther, update_self]
    rcases ok with running | terminated | stale
    · exact .inl running
    · exact .inr (.inl terminated)
    · exact .inr (.inr ⟨stale.1, by simp [stale.2]⟩)
  · intro early
    constructor
    · intro object fresh
      rw [update_of_ne (by simp)]
      exact early object fresh
    · intro object
      exact update_of_ne (by simp) _ _

/-- A new object has no waiters. -/
theorem initialize_effect {contents : DispatcherObject} (new : newObject call = some contents) :
    perform dispatcher call = some (addObject dispatcher contents,
        initialEvents dispatcher.objectCount call) ∧
      Effect dispatcher call (addObject dispatcher contents)
        (initialEvents dispatcher.objectCount call) ∧
      ∃ cells', Settled (addObject dispatcher contents) cells' ∧
        CurrentOk (addObject dispatcher contents) cells' ∧
        ListsFollow dispatcher cells (initialEvents dispatcher.objectCount call)
          (addObject dispatcher contents) cells' := by
  refine ⟨?_, .addObject new, update cells (.object dispatcher.objectCount) [],
    ⟨?_, ?_, settled.created, settled.running⟩, ?_, ?_⟩
  · cases call with
    | initializeEvent notification state | initializeSemaphore count limit | initializeMutex =>
      cases new
      rfl
    | _ => cases new
  · apply settled.listed.addObject
    intro thread here
    have waits := (place_object _ _).mp here
    obtain ⟨object, bound, known⟩ := settled.waitKnown thread waits.1
    rw [waits.2] at known
    have same : dispatcher.objectCount = object := Option.some.inj known
    omega
  · intro thread waiting
    obtain ⟨object, bound, known⟩ := settled.waitKnown thread waiting
    refine ⟨object, ?_, known⟩
    show object < dispatcher.objectCount + 1
    omega
  · rcases ok with running | terminated | stale
    · exact .inl running
    · exact .inr (.inl terminated)
    · refine .inr (.inr ⟨stale.1, ?_⟩)
      rw [update_of_ne (by simp)]
      exact stale.2
  · intro early
    have same : ∀ object, update cells (.object dispatcher.objectCount) []
        (.object object) = cells (.object object) := by
      intro object
      by_cases here : object = dispatcher.objectCount
      · rw [here, update_self, early _ (Nat.le_refl _)]
      · exact update_of_ne (by simpa using here) _ _
    constructor
    · intro object fresh
      rw [same]
      exact early object (Nat.le_of_succ_le fresh)
    · intro object
      rw [same]
      cases call <;> rfl

theorem waitStays_effect {poll : Bool} (known : object < dispatcher.objectCount)
    (stays : (dispatcher.objects object).signalState ≠ 0 ∨ poll = true)
    (done : keWaitForSingleObject dispatcher object poll = some (after, events)) :
    Effect dispatcher (.waitForSingleObject object poll) after events ∧
      ∃ cells', Settled after cells' ∧ CurrentOk after cells' ∧
        ListsFollow dispatcher cells events after cells' := by
  unfold keWaitForSingleObject at done
  dsimp only at done
  by_cases signaled : (dispatcher.objects object).signalState ≠ 0
  · rw [if_pos signaled] at done
    cases done
    refine ⟨.waitSignaled known signaled, cells, settled.setObject _ _, ok, ?_⟩
    intro early
    refine ⟨early, ?_⟩
    intro other
    simp [waitStep, erase_of_not_mem (settled.current_notWaiting ok early other)]
  · have polls := stays.resolve_left signaled
    rw [if_neg signaled, if_pos polls] at done
    cases done
    subst poll
    refine ⟨.waitPolled (not_not.mp signaled), cells, settled, ok, ?_⟩
    intro early
    refine ⟨early, ?_⟩
    intro other
    have absent := settled.current_notWaiting ok early other
    by_cases here : object = other
    · simp [waitStep, here, erase_append_right _ absent]
    · simp [waitStep, here]

theorem wakeThread_effect
    {thread : Nat} (waiting : (dispatcher.threads thread).state = .waiting) (status : NtStatus) :
    Effect dispatcher (.wakeThread thread status)
        (kiWakeThread (dispatcher.withLinks
          (removeEntryList dispatcher.links (.thread thread))) thread status) [] ∧
      ∃ cells', Settled (kiWakeThread (dispatcher.withLinks
          (removeEntryList dispatcher.links (.thread thread))) thread status) cells' ∧
        CurrentOk (kiWakeThread (dispatcher.withLinks
          (removeEntryList dispatcher.links (.thread thread))) thread status) cells' := by
  obtain ⟨object, known, place⟩ := settled.waitKnown thread waiting
  have member := (settled.waits_iff known thread).mpr ⟨waiting, place⟩
  obtain ⟨front, back, shape⟩ := append_of_mem member
  obtain ⟨links, result, kept⟩ := settled.wakeThread known shape status
  rw [result]
  refine ⟨.wakeThread waiting, _, kept, ok.woken (by simpa using waiting) ?_ links status⟩
  intro first head
  simp [head]

end Ok

end Settled

theorem hasType_known {types : List ObjectType}
    (accepted : dispatcher.hasType object types = true) :
    object < dispatcher.objectCount ∧ (dispatcher.objects object).type ∈ types := by
  simpa [hasType] using accepted

/-- One call of any kind keeps the lists in order; those of the interface show what
they do to the wait lists. -/
theorem step_lists (settled : Settled dispatcher cells) (ok : CurrentOk dispatcher cells)
    (done : step dispatcher call = some (after, events)) :
    Effect dispatcher call after events ∧
      ∃ cells', Settled after cells' ∧ CurrentOk after cells' ∧
        (call.isApi = true → ListsFollow dispatcher cells events after cells') := by
  unfold step at done
  by_cases accepted : dispatcher.accepts call = true
  · rw [if_pos accepted] at done
    cases leaves : departure dispatcher call with
    | some leave => exact departure_effect settled ok accepted leaves done
    | none =>
      cases new : newObject call with
      | some contents =>
        obtain ⟨result, effect, cells', kept, current, follow⟩ :=
          initialize_effect settled ok new
        rw [result] at done
        cases done
        exact ⟨effect, cells', kept, current, fun _ => follow⟩
      | none =>
        cases call with
        | createThread =>
          cases done
          obtain ⟨effect, cells', kept, current, follow⟩ := createThread_effect settled ok
          exact ⟨effect, cells', kept, current, fun _ => follow⟩
        | setEvent object =>
          simp only [accepts, Bool.and_eq_true] at accepted
          obtain ⟨known, types⟩ := hasType_known accepted.2
          obtain ⟨effect, cells', kept, current, follow⟩ :=
            setEvent_effect settled ok known (by simpa using types) done
          exact ⟨effect, cells', kept, current, fun _ => follow⟩
        | resetEvent object =>
          simp only [accepts, Bool.and_eq_true] at accepted
          obtain ⟨_, types⟩ := hasType_known accepted.2
          cases done
          exact ⟨.reset (by simpa using types), cells, settled.setObject _ _, ok,
            fun _ early => ⟨early, fun _ => rfl⟩⟩
        | releaseSemaphore object adjustment =>
          simp only [accepts, Bool.and_eq_true] at accepted
          obtain ⟨known, types⟩ := hasType_known accepted.2
          obtain ⟨effect, cells', kept, current, follow⟩ :=
            releaseSemaphore_effect settled ok known (by simpa using types) done
          exact ⟨effect, cells', kept, current, fun _ => follow⟩
        | releaseMutex object =>
          simp only [accepts, Bool.and_eq_true] at accepted
          obtain ⟨known, types⟩ := hasType_known accepted.2
          obtain ⟨effect, cells', kept, current, follow⟩ :=
            releaseMutex_effect settled ok known (by simpa using types) done
          exact ⟨effect, cells', kept, current, fun _ => follow⟩
        | waitForSingleObject object poll =>
          simp only [accepts, Bool.and_eq_true, decide_eq_true_eq] at accepted
          simp only [departure] at leaves
          split at leaves
          · rename_i stays
            obtain ⟨effect, cells', kept, current, follow⟩ :=
              waitStays_effect settled ok accepted.2 stays done
            exact ⟨effect, cells', kept, current, fun _ => follow⟩
          · cases leaves
        | wakeThread thread status =>
          simp only [accepts, Bool.and_eq_true, decide_eq_true_eq] at accepted
          cases done
          obtain ⟨effect, cells', kept, current⟩ :=
            wakeThread_effect settled ok accepted.2 status
          exact ⟨effect, cells', kept, current, fun api => nomatch api⟩
        | initializeEvent notification state => cases new
        | initializeSemaphore count limit => cases new
        | initializeMutex => cases new
        | exitThread => cases leaves
        | dispatchNext => cases leaves
        | waitThread object => cases leaves
  · rw [if_neg accepted] at done
    cases done

theorem step_effect (settled : Settled dispatcher cells) (ok : CurrentOk dispatcher cells)
    (done : step dispatcher call = some (after, events)) :
    Effect dispatcher call after events ∧
      ∃ cells', Settled after cells' ∧ CurrentOk after cells' := by
  obtain ⟨effect, cells', kept, current, _⟩ := step_lists settled ok done
  exact ⟨effect, cells', kept, current⟩

end Steps

end MinNT.Ke
