import MinNT.Ke.DispatcherRun

namespace MinNT.Ke

open List Function Dispatcher ListEntry

/-- The threads that wait for the object, in the order in which their waits began. -/
def waitersOf (history : List Event) (object : Nat) : List Nat :=
  history.foldl (waitStep object) []

/-- The links of the ready queue and of all wait lists lead through these threads. -/
def Queues (dispatcher : Dispatcher) (ready : List Nat) (waiters : Nat → List Nat) : Prop :=
  Ring dispatcher.links .ready (ready.map .thread) ∧
    ∀ object < dispatcher.objectCount,
      Ring dispatcher.links (.object object) ((waiters object).map .thread)

def Dispatcher.isEvent (dispatcher : Dispatcher) (object : Nat) : Prop :=
  object < dispatcher.objectCount ∧ ((dispatcher.objects object).type = .eventObject ∨
    (dispatcher.objects object).type = .synchronizationEvent)

/-- Nobody waits for an event that is signaled. -/
def SignaledIdle (dispatcher : Dispatcher) : Prop :=
  ∀ object, dispatcher.isEvent object → (dispatcher.objects object).signalState ≠ 0 →
    ∀ thread, ¬ Waits dispatcher thread object

section Steps

variable {dispatcher after : Dispatcher} {cells : Node → List Nat} {call : Call}
  {events : List Event}

theorem waits_of_woken {links : Links Node} {threads : List Nat} {status : NtStatus}
    {thread object : Nat} (waits : Waits (dispatcher.woken links threads status) thread object) :
    thread ∉ threads ∧ Waits dispatcher thread object := by
  by_cases member : thread ∈ threads
  · have ready := waits.1
    simp [woken, member] at ready
  · refine ⟨member, ?_⟩
    simpa [Waits, woken, member] using waits

theorem requeue_waiting {thread : KThread} (waiting : (requeue thread).state = .waiting) :
    requeue thread = thread := by
  unfold requeue at waiting ⊢
  split
  · rename_i running
    rw [if_pos running] at waiting
    cases waiting
  · rfl

theorem departure_waits (ok : CurrentOk dispatcher cells) (api : call.isApi = true)
    {leave : Departure} (leaves : departure dispatcher call = some leave) {object : Nat}
    (waiting : leave.thread.state = .waiting) (place : leave.thread.waitObject = some object) :
    (dispatcher.objects object).signalState = 0 := by
  cases departs leaves with
  | dispatchNext => exact absurd waiting ok.notWaiting
  | exitThread => cases waiting
  | waitForSingleObject blocks =>
    cases place
    exact blocks
  | waitThread => cases api

/-- A new wait is on an object that is not signaled. -/
theorem Effect.waits (ok : CurrentOk dispatcher cells) (api : call.isApi = true)
    (effect : Effect dispatcher call after events) {thread object : Nat}
    (waits : Waits after thread object) :
    Waits dispatcher thread object ∨
      (dispatcher.objects object).signalState = 0 ∧ after.objects = dispatcher.objects := by
  cases effect with
  | create =>
    left
    have other : thread ≠ dispatcher.threadCount := by
      rintro rfl
      have ready := waits.1
      simp at ready
    simpa only [Waits, update_of_ne other] using waits
  | addObject new | reset isEvent | foreignRelease foreign | releaseMutex known isMutex own nobody
  | waitSignaled known signaled | waitPolled notSignaled => exact .inl waits
  | setEvent known isEvent waiting | releaseSemaphore known isSemaphore waiting none
  | handMutex known isMutex own waiting => exact .inl (waits_of_woken waits).2
  | wakeThread waiting => cases api
  | @switch call leave links between new leaves different ready =>
    by_cases isNew : thread = new
    · subst isNew
      have running := waits.1
      simp [switched] at running
    · by_cases isCurrent : thread = dispatcher.current
      · right
        have here : ((dispatcher.departed between leave.thread).switched links new
            leave.point).threads thread = requeue leave.thread := by
          simp [switched, departed, isCurrent, Ne.symm different]
        rw [Waits, here] at waits
        rw [requeue_waiting waits.1] at waits
        exact ⟨departure_waits ok api leaves waits.1 waits.2, rfl⟩
      · left
        simpa only [Waits, switched, departed,
          update_of_ne isNew, update_of_ne isCurrent] using waits
  | @idle call leave leaves plain nobody =>
    by_cases isCurrent : thread = dispatcher.current
    · right
      have here : (dispatcher.departed dispatcher.links leave.thread).threads thread =
          leave.thread := by
        simp [departed, isCurrent]
      rw [Waits, here] at waits
      exact ⟨departure_waits ok api leaves waits.1 waits.2, rfl⟩
    · left
      simpa only [Waits, departed, update_of_ne isCurrent] using waits
  | @recover call leave links leaves blocking nobody =>
    left
    have other : thread ≠ dispatcher.current := by
      rintro rfl
      have ready := waits.1
      simp [departed] at ready
    simpa only [Waits, departed, update_of_ne other] using waits

theorem SignaledIdle.setEvent (settled : Settled dispatcher cells) (idle : SignaledIdle dispatcher)
    {object : Nat} (isEvent : dispatcher.isEvent object)
    (done : (keSetEvent dispatcher object).map Prod.snd = some (after, events)) :
    SignaledIdle after := by
  obtain ⟨links, count, woken, result, _⟩ := keSetEvent_eq settled isEvent.1 isEvent.2
  rw [result] at done
  cases done
  intro other otherEvent signaled thread waits
  obtain ⟨notWoken, waited⟩ := waits_of_woken waits
  by_cases same : other = object
  · subst same
    have member := (settled.waits_iff isEvent.1 thread).mpr waited
    by_cases notification : (dispatcher.objects other).type = .eventObject
    · rw [woken, if_pos notification] at notWoken
      exact notWoken member
    · have empty : cells (.object other) ≠ [] := ne_nil_of_mem member
      simp [Dispatcher.setObject, notification, empty] at signaled
  · simp only [Dispatcher.isEvent, woken_objects, Dispatcher.setObject,
      update_of_ne same] at otherEvent signaled
    exact idle other otherEvent signaled thread waited

theorem consumeSignal_event (object : DispatcherObject) (thread : Nat) :
    (consumeSignal object thread).type = object.type ∧
      ((consumeSignal object thread).signalState ≠ 0 → object.signalState ≠ 0) := by
  cases shape : object.type <;> simp [consumeSignal, shape]

theorem isEvent_update {object other : Nat} {contents : DispatcherObject}
    (isEvent : after.isEvent object) (signaled : (after.objects object).signalState ≠ 0)
    (count : after.objectCount = dispatcher.objectCount)
    (objects : after.objects = update dispatcher.objects other contents)
    (sameType : contents.type = (dispatcher.objects other).type)
    (weaker : contents.type = .eventObject ∨ contents.type = .synchronizationEvent →
      contents.signalState ≠ 0 → (dispatcher.objects other).signalState ≠ 0) :
    dispatcher.isEvent object ∧ (dispatcher.objects object).signalState ≠ 0 := by
  obtain ⟨known, type⟩ := isEvent
  rw [count] at known
  rw [objects] at type signaled
  by_cases same : object = other
  · subst same
    rw [update_self] at type signaled
    exact ⟨⟨known, sameType ▸ type⟩, weaker type signaled⟩
  · rw [update_of_ne same] at type signaled
    exact ⟨⟨known, type⟩, signaled⟩

theorem Effect.signaled (effect : Effect dispatcher call after events)
    (notSet : ∀ object, call ≠ .setEvent object) {object : Nat} (isEvent : after.isEvent object)
    (signaled : (after.objects object).signalState ≠ 0) :
    dispatcher.isEvent object ∧ (dispatcher.objects object).signalState ≠ 0 ∨
      object = dispatcher.objectCount := by
  cases effect with
  | create | foreignRelease foreign | waitPolled notSignaled | wakeThread waiting
  | switch leaves different ready | idle leaves plain nobody
  | recover leaves blocking nobody => exact .inl ⟨isEvent, signaled⟩
  | addObject new =>
    by_cases fresh : object = dispatcher.objectCount
    · exact .inr fresh
    · left
      obtain ⟨known, type⟩ := isEvent
      simp only [update_of_ne fresh] at type signaled
      exact ⟨⟨Nat.lt_of_le_of_ne (Nat.le_of_lt_succ known) fresh, type⟩, signaled⟩
  | reset resets =>
    left
    exact isEvent_update isEvent signaled rfl rfl rfl (fun _ impossible => absurd rfl impossible)
  | @setEvent object => exact absurd rfl (notSet object)
  | releaseSemaphore known isSemaphore waiting none =>
    left
    exact isEvent_update isEvent signaled rfl rfl rfl (fun type => by simp [isSemaphore] at type)
  | releaseMutex known isMutex own nobody | handMutex known isMutex own waiting =>
    left
    exact isEvent_update isEvent signaled rfl rfl rfl (fun type => by simp [isMutex] at type)
  | waitSignaled known wasSignaled =>
    left
    exact isEvent_update isEvent signaled rfl rfl (consumeSignal_event _ _).1
      (fun _ => (consumeSignal_event _ _).2)

theorem accepts_setEvent {object : Nat} (accepted : dispatcher.accepts (.setEvent object) = true) :
    dispatcher.isEvent object := by
  simp only [accepts, Bool.and_eq_true] at accepted
  obtain ⟨known, types⟩ := hasType_known accepted.2
  exact ⟨known, by simpa using types⟩

/-- No thread comes to wait on a signaled event. -/
theorem SignaledIdle.step (settled : Settled dispatcher cells) (ok : CurrentOk dispatcher cells)
    (idle : SignaledIdle dispatcher) (api : call.isApi = true)
    (done : step dispatcher call = some (after, events)) : SignaledIdle after := by
  have effect := (step_effect settled ok done).1
  by_cases sets : ∃ object, call = .setEvent object
  · obtain ⟨object, rfl⟩ := sets
    unfold Ke.step at done
    split at done
    · rename_i accepted
      exact idle.setEvent settled (accepts_setEvent accepted) done
    · cases done
  · intro object isEvent signaled thread waits
    have before := effect.signaled (fun other same => sets ⟨other, same⟩) isEvent signaled
    rcases effect.waits ok api waits with waited | ⟨unsignaled, same⟩
    · rcases before with ⟨wasEvent, wasSignaled⟩ | fresh
      · exact idle object wasEvent wasSignaled thread waited
      · -- nobody waits for an object that did not exist
        obtain ⟨known, bound, place⟩ := settled.waitKnown thread waited.1
        rw [waited.2] at place
        cases place
        omega
    · rw [same] at signaled
      exact signaled unsignaled

end Steps

/-- What holds in every state of a run: the wait lists are in the order of the waits. -/
structure WaitsInOrder (dispatcher : Dispatcher) (history : List Event)
    (cells : Node → List Nat) : Prop where
  settled : Settled dispatcher cells
  current : CurrentOk dispatcher cells
  early : NoneWaitsEarly dispatcher cells
  order : ∀ object, cells (.object object) = waitersOf history object
  idle : SignaledIdle dispatcher

theorem waitsInOrder_boot : WaitsInOrder bootDispatcher [] (fun _ => []) where
  settled := settled_boot
  current := .inl rfl
  early := fun _ _ => rfl
  order := fun _ => rfl
  idle := by
    intro object isEvent
    exact absurd isEvent.1 (Nat.not_lt_zero object)

/-- In every run the wait lists are in order of the waits. -/
theorem waitsInOrder_run {allowed : Dispatcher → Call → Prop}
    (api : ∀ dispatcher call, allowed dispatcher call → call.isApi = true) {dispatcher : Dispatcher}
    {history : List Event} (run : DispatcherRun allowed dispatcher history) :
    ∃ cells, WaitsInOrder dispatcher history cells := by
  induction run with
  | boot => exact ⟨_, waitsInOrder_boot⟩
  | call run meets done ih =>
    obtain ⟨cells, inv⟩ := ih
    obtain ⟨_, cells', settled, current, follow⟩ := step_lists inv.settled inv.current done
    obtain ⟨early, lists⟩ := follow (api _ _ meets) inv.early
    refine ⟨cells', settled, current, early, ?_, ?_⟩
    · intro object
      rw [lists, inv.order, waitersOf, waitersOf, foldl_append]
    · exact inv.idle.step inv.settled inv.current (api _ _ meets) done

/-- The waiters `KeSetEvent` wakes: all of a notification event, the one that waits
the longest of a synchronization event. -/
def wokenBySet (dispatcher : Dispatcher) (history : List Event) (object : Nat) : List Nat :=
  if (dispatcher.objects object).type = .eventObject then waitersOf history object
  else (waitersOf history object).take 1

/-- In every state of a run of the interface a signaled event has no waiters, and
`KeSetEvent` moves the threads it wakes to the end of the ready queue. -/
theorem keSetEvent_wakes (dispatcher : Dispatcher) (history : List Event)
    (run : DispatcherRun (fun _ call => call.isApi = true) dispatcher history) {object : Nat}
    (isEvent : dispatcher.isEvent object) :
    ∃ ready after, Queues dispatcher ready (waitersOf history) ∧
      ((dispatcher.objects object).signalState ≠ 0 → waitersOf history object = []) ∧
      keSetEvent dispatcher object = some ((dispatcher.objects object).signalState, after,
        (wokenBySet dispatcher history object).map (.woken object)) ∧
      Queues after (ready ++ wokenBySet dispatcher history object)
        (update (waitersOf history) object
          ((waitersOf history object).drop (wokenBySet dispatcher history object).length)) ∧
      after.objects = update dispatcher.objects object
        { dispatcher.objects object with
          signalState := if (dispatcher.objects object).type = .eventObject ∨
            waitersOf history object = [] then 1 else 0 } ∧
      ∀ thread, after.threads thread =
        if thread ∈ wokenBySet dispatcher history object then ⟨.ready, statusWait0, none⟩
        else dispatcher.threads thread := by
  obtain ⟨cells, inv⟩ := waitsInOrder_run (fun _ _ api => api) run
  obtain ⟨links, count, woken, result, kept⟩ := keSetEvent_eq inv.settled isEvent.1 isEvent.2
  have wokenIs : (cells (.object object)).take count = wokenBySet dispatcher history object := by
    rw [woken, inv.order, wokenBySet]
  have left : (waitersOf history object).drop (wokenBySet dispatcher history object).length =
      (cells (.object object)).drop count := by
    rw [← wokenIs, ← inv.order, length_take]
    rcases Nat.le_total count (cells (.object object)).length with less | more
    · rw [Nat.min_eq_left less]
    · rw [Nat.min_eq_right more, drop_length, drop_of_length_le more]
  rw [wokenIs, inv.order] at result
  rw [wokenIs, inv.order] at kept
  refine ⟨cells .ready, _, ⟨inv.settled.listed.ring .ready trivial, ?_⟩, ?_, result,
    ⟨?_, ?_⟩, rfl, fun _ => rfl⟩
  · intro other known
    rw [← inv.order]
    exact inv.settled.listed.ring (.object other) known
  · intro signaled
    rw [← inv.order, eq_nil_iff_forall_not_mem]
    intro thread member
    exact inv.idle object isEvent signaled thread
      ((inv.settled.waits_iff isEvent.1 thread).mp member)
  · have ring := kept.listed.ring .ready trivial
    rw [wokenCells, update_self, wokenIs] at ring
    exact ring
  · intro other known
    have ring := kept.listed.ring (.object other) known
    rw [wokenCells, update_of_ne (by simp)] at ring
    by_cases same : other = object
    · subst same
      rw [update_self] at ring ⊢
      rw [left]
      exact ring
    · rw [update_of_ne (by simpa using same), inv.order] at ring
      rw [update_of_ne same]
      exact ring

/-- Two threads wait for a synchronization event, and one of them is woken. -/
theorem twoWaiters_wakes : ∃ dispatcher history,
    DispatcherRun (fun _ call => call.isApi = true) dispatcher history ∧
      wokenBySet dispatcher history 0 = [0] ∧ waitersOf history 0 = [0, 1] ∧
      ∃ after, keSetEvent dispatcher 0 = some (0, after, [.woken 0 0]) := by
  obtain ⟨dispatcher, history, run, seen⟩ := exists_run (fun _ call => call.isApi = true)
    [.createThread, .createThread, .initializeEvent false false, .waitForSingleObject 0 false,
      .waitForSingleObject 0 false]
    (fun dispatcher history => (wokenBySet dispatcher history 0, waitersOf history 0,
      (dispatcher.objects 0).signalState, dispatcher.objectCount, (dispatcher.objects 0).type))
    ([0], [0, 1], 0, 1, .synchronizationEvent) (by decide +kernel)
  simp only [Prod.mk.injEq] at seen
  obtain ⟨woken, waiters, signal, count, type⟩ := seen
  have isEvent : dispatcher.isEvent 0 := ⟨by omega, .inr type⟩
  obtain ⟨_, after, _, _, result, _⟩ := keSetEvent_wakes dispatcher history run isEvent
  rw [woken, signal] at result
  exact ⟨dispatcher, history, run, woken, waiters, after, result⟩

end MinNT.Ke
