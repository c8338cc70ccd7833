import MinNT.Ke.WaitReturns

namespace MinNT.Ke

open List Function Dispatcher ListEntry

/-- The thread is between a successful wait for the mutex and its release. -/
def Holds (history : List Event) (mutex thread : Nat) : Prop :=
  ∃ before after, history = before ++ .waitReturned thread mutex statusWait0 :: after ∧
    .mutexReleased thread mutex ∉ after

def Dispatcher.isMutex (dispatcher : Dispatcher) (object : Nat) : Prop :=
  object < dispatcher.objectCount ∧ (dispatcher.objects object).type = .mutantObject

/-- Ownership of a mutex as it should be. -/
structure MutexSound (dispatcher : Dispatcher) (history : List Event) (mutex : Nat) : Prop where
  signal : (dispatcher.objects mutex).signalState = 1 ↔
    (dispatcher.objects mutex).ownerThread = none
  foreign : (dispatcher.objects mutex).ownerThread ≠ some dispatcher.current →
    keReleaseMutex dispatcher mutex = some (dispatcher, [])
  oneHolder : ∀ thread other, Holds history mutex thread → Holds history mutex other →
    thread = other
  ownerRuns : ∀ thread, (dispatcher.objects mutex).ownerThread = some thread →
    ¬ Waits dispatcher thread mutex

/-- Calls of the interface that block only when another thread is ready, and never
on a mutex the caller owns. -/
def NoRecursion (mutex : Nat) (dispatcher : Dispatcher) (call : Call) : Prop :=
  ApiBlocksWithOthers dispatcher call ∧ (call = .waitForSingleObject mutex false →
    (dispatcher.objects mutex).ownerThread ≠ some dispatcher.current)

instance (mutex : Nat) (dispatcher : Dispatcher) (call : Call) :
    Decidable (NoRecursion mutex dispatcher call) :=
  inferInstanceAs (Decidable (_ ∧ (_ → _)))

/-- What every such run keeps. A thread that a release has woken owns the mutex
already when its wait returns. -/
structure MutexInv (dispatcher : Dispatcher) (history : List Event) (mutex : Nat) : Prop where
  signal : (dispatcher.objects mutex).signalState =
    if (dispatcher.objects mutex).ownerThread = none then 1 else 0
  holder : ∀ thread, Holds history mutex thread →
    (dispatcher.objects mutex).ownerThread = some thread
  waiter : ∀ thread, Waits dispatcher thread mutex →
    (dispatcher.objects mutex).ownerThread ≠ some thread
  handed : ∀ thread, thread ≠ dispatcher.current →
    dispatcher.resume thread = .waitForSingleObject mutex →
    (dispatcher.threads thread).state = .ready →
    (dispatcher.objects mutex).ownerThread = some thread

/-- Waits and their returns are for objects that exist. -/
structure KnownObjects (dispatcher : Dispatcher) (history : List Event) : Prop where
  resume : ∀ thread object, dispatcher.resume thread = .waitForSingleObject object →
    object < dispatcher.objectCount
  returned : ∀ thread object, .waitReturned thread object statusWait0 ∈ history →
    object < dispatcher.objectCount

variable {mutex thread : Nat}

theorem Holds.of_append {history events : List Event}
    (holds : Holds (history ++ events) mutex thread)
    (quiet : .waitReturned thread mutex statusWait0 ∉ events) :
    Holds history mutex thread ∧ .mutexReleased thread mutex ∉ events := by
  obtain ⟨before, after, parts, kept⟩ := holds
  have cases := append_eq_append_iff.mp parts
  rcases cases with ⟨middle, _, shape⟩ | ⟨middle, shape, tail⟩
  · exact absurd (by rw [shape]; simp) quiet
  cases middle with
  | nil =>
    rw [nil_append] at tail
    exact absurd (by rw [← tail]; simp) quiet
  | cons first rest =>
    rw [cons_append, List.cons.injEq] at tail
    obtain ⟨same, split⟩ := tail
    rw [split] at kept
    refine ⟨⟨before, rest, by rw [shape, same], ?_⟩, ?_⟩
    · exact fun member => kept (mem_append_left _ member)
    · exact fun member => kept (mem_append_right _ member)

theorem Holds.of_append_other {history events : List Event}
    (holds : Holds (history ++ events) mutex thread)
    (quiet : ∀ event ∈ events, event.isOwn thread = false) : Holds history mutex thread := by
  apply (holds.of_append _).1
  intro member
  have own := quiet _ member
  simp [Event.isOwn] at own

section Steps

variable {dispatcher after : Dispatcher} {history events : List Event} {mutex : Nat}

theorem MutexInv.same (inv : MutexInv dispatcher history mutex)
    (objects : after.objects mutex = dispatcher.objects mutex)
    (holder : ∀ thread, Holds (history ++ events) mutex thread → Holds history mutex thread)
    (waiter : ∀ thread, Waits after thread mutex → Waits dispatcher thread mutex)
    (handed : ∀ thread, thread ≠ after.current →
      after.resume thread = .waitForSingleObject mutex → (after.threads thread).state = .ready →
      thread ≠ dispatcher.current ∧
        dispatcher.resume thread = .waitForSingleObject mutex ∧
        (dispatcher.threads thread).state = .ready) : MutexInv after (history ++ events) mutex := by
  constructor
  · rw [objects]
    exact inv.signal
  · intro thread holds
    rw [objects]
    exact inv.holder thread (holder thread holds)
  · intro thread waits
    rw [objects]
    exact inv.waiter thread (waiter thread waits)
  · intro thread away resumes ready
    obtain ⟨oldAway, oldResume, oldReady⟩ := handed thread away resumes ready
    rw [objects]
    exact inv.handed thread oldAway oldResume oldReady

theorem MutexInv.setOther
    (old : dispatcher.isMutex mutex → MutexInv dispatcher history mutex) {object : Nat}
    {contents : DispatcherObject} (isMutex : after.isMutex mutex) (different : mutex ≠ object)
    (objects : after.objects = (dispatcher.setObject object contents).objects)
    (counted : after.objectCount = dispatcher.objectCount)
    (threads : after.threads = dispatcher.threads ∧ after.resume = dispatcher.resume ∧
      after.current = dispatcher.current)
    (holder : ∀ thread, Holds (history ++ events) mutex thread → Holds history mutex thread) :
    MutexInv after (history ++ events) mutex := by
  have here : after.objects mutex = dispatcher.objects mutex := by
    rw [objects]
    exact update_of_ne different _ _
  obtain ⟨bound, type⟩ := isMutex
  rw [counted] at bound
  rw [here] at type
  obtain ⟨sameThreads, sameResume, sameCurrent⟩ := threads
  apply (old ⟨bound, type⟩).same here holder
  · intro thread waits
    rwa [Waits, sameThreads] at waits
  · intro thread away resumes ready
    rw [sameCurrent] at away
    rw [sameResume] at resumes
    rw [sameThreads] at ready
    exact ⟨away, resumes, ready⟩

/-- Wakes for another object do not touch the mutex. -/
theorem MutexInv.wokenOther (inv : MutexInv dispatcher history mutex)
    (waitInv : WaitInv dispatcher history) {object : Nat}
    {contents : DispatcherObject} {threads : List Nat} {links : Links Node}
    (different : mutex ≠ object) (waiting : ∀ thread ∈ threads, Waits dispatcher thread object)
    (quiet : ∀ event ∈ events, ∀ thread, event.isOwn thread = false) :
    MutexInv ((dispatcher.setObject object contents).woken links threads statusWait0)
      (history ++ events) mutex := by
  have threadsOf : ∀ thread,
      ((dispatcher.setObject object contents).woken links threads statusWait0).threads thread =
        if thread ∈ threads then ⟨.ready, statusWait0, none⟩ else dispatcher.threads thread :=
    fun thread => rfl
  apply inv.same
  · exact update_of_ne different _ _
  · intro thread holds
    exact holds.of_append_other (fun event member => quiet event member thread)
  · intro thread waits
    have outside : thread ∉ threads := by
      intro member
      have ready := waits.1
      rw [threadsOf, if_pos member] at ready
      cases ready
    simpa only [Waits, threadsOf, outside, ↓reduceIte] using waits
  · intro thread away resumes ready
    have isOther : thread ≠ dispatcher.current := away
    have sameResume : dispatcher.resume thread = .waitForSingleObject mutex := resumes
    by_cases member : thread ∈ threads
    · -- it left the processor waiting for the other object
      have point := waitInv.point thread object isOther (waiting thread member)
      rw [sameResume] at point
      exact absurd (Resume.waitForSingleObject.inj point) different
    · rw [threadsOf, if_neg member] at ready
      exact ⟨isOther, sameResume, ready⟩

theorem KnownObjects.same (known : KnownObjects dispatcher history)
    (resume : after.resume = dispatcher.resume) (count : dispatcher.objectCount ≤ after.objectCount)
    (quiet : ∀ thread object, .waitReturned thread object statusWait0 ∉ events) :
    KnownObjects after (history ++ events) := by
  constructor
  · intro thread object resumes
    rw [resume] at resumes
    exact Nat.lt_of_lt_of_le (known.resume thread object resumes) count
  · intro thread object member
    rcases mem_append.mp member with old | new
    · exact Nat.lt_of_lt_of_le (known.returned thread object old) count
    · exact absurd new (quiet thread object)

/-- Returned waits stay waits on known objects. -/
theorem KnownObjects.step (known : KnownObjects dispatcher history) {cells : Node → List Nat}
    (settled : Settled after cells) (alive : Alive dispatcher) (stillAlive : Alive after)
    {call : Call} (api : call.isApi = true) (effect : Effect dispatcher call after events) :
    KnownObjects after (history ++ events) := by
  cases effect with
  | create =>
    rw [append_nil]
    refine ⟨?_, known.returned⟩
    intro thread object resumes
    by_cases same : thread = dispatcher.threadCount
    · simp [same] at resumes
    · simp only [update_of_ne same] at resumes
      exact known.resume thread object resumes
  | addObject new =>
    refine KnownObjects.same known rfl (Nat.le_succ _) ?_
    intro thread object member
    cases call <;> simp [initialEvents] at member
  | reset isEvent | setEvent isKnown isEvent waiting | foreignRelease foreign
  | releaseMutex isKnown isMutex own nobody | handMutex isKnown isMutex own waiting
  | idle leaves plain nobody => exact known.same rfl (Nat.le_refl _) (by simp)
  | releaseSemaphore isKnown isSemaphore waiting none =>
    exact known.same rfl (Nat.le_refl _) (by simp)
  | @waitSignaled object poll isKnown signaled =>
    refine ⟨known.resume, ?_⟩
    intro thread other member
    rcases mem_append.mp member with old | new
    · exact known.returned thread other old
    · have same : thread = dispatcher.current ∧ other = object := by simpa using new
      rw [same.2]
      exact isKnown
  | waitPolled notSignaled =>
    exact known.same rfl (Nat.le_refl _) (by simp [statusWait0, statusTimeout])
  | wakeThread waiting => cases api
  | @switch call leave links between new leaves different ready =>
    constructor
    · intro thread object resumes
      simp only [switched, departed] at resumes
      by_cases isCurrent : thread = dispatcher.current
      · subst thread
        rw [update_self] at resumes
        rcases departure_api alive api leaves with ⟨point, _⟩ | ⟨other, point, _, state, place⟩
        · rw [point] at resumes
          cases resumes
        -- the thread that left is on the wait list of the object
        rw [point] at resumes
        cases resumes
        have here : ((dispatcher.departed between leave.thread).switched links new
            leave.point).threads dispatcher.current = leave.thread := by
          simp [switched, departed, Ne.symm different, requeue, state]
        obtain ⟨found, bound, same⟩ := settled.waitKnown dispatcher.current
          (by rw [here]; exact state)
        rw [here, place] at same
        cases same
        exact bound
      · rw [update_of_ne isCurrent] at resumes
        exact known.resume thread object resumes
    · intro thread object member
      rcases mem_append.mp member with old | now
      · exact known.returned thread object old
      · rcases mem_append.mp now with left | right
        · exact absurd left (departure_returns leaves)
        · exact known.resume _ _ (mem_returnEvents right).1
  | recover leaves blocking nobody =>
    rcases stillAlive with running | terminated
    · simp [departed] at running
    · simp [departed] at terminated

theorem departure_wait {call : Call} {leave : Departure}
    (leaves : departure dispatcher call = some leave)
    (point : leave.point = .waitForSingleObject mutex) :
    call = .waitForSingleObject mutex false := by
  cases departs leaves with
  | waitForSingleObject =>
    cases point
    rfl
  | dispatchNext | exitThread | waitThread => cases point

/-- A switch to another thread. If that thread comes back from a wait for the
mutex, it owns it. -/
theorem MutexInv.switch (inv : MutexInv dispatcher history mutex) (alive : Alive dispatcher)
    {call : Call} (meets : NoRecursion mutex dispatcher call) {leave : Departure}
    {links between : Links Node} {new : Nat} (leaves : departure dispatcher call = some leave)
    (different : new ≠ dispatcher.current) (ready : (dispatcher.threads new).state = .ready) :
    MutexInv ((dispatcher.departed between leave.thread).switched links new leave.point)
      (history ++ (leave.events ++
        returnEvents new (dispatcher.threads new).waitStatus (dispatcher.resume new))) mutex := by
  have kind := departure_api alive meets.1.1 leaves
  have threadsOf : ∀ thread, thread ≠ new →
      ((dispatcher.departed between leave.thread).switched links new leave.point).threads thread =
        if thread = dispatcher.current then requeue leave.thread
        else dispatcher.threads thread :=
    fun thread other => switched_threads different other
  have newRuns : (((dispatcher.departed between leave.thread).switched links new
      leave.point).threads new).state = .running := by
    simp [switched]
  refine ⟨inv.signal, ?_, ?_, ?_⟩
  · intro thread holds
    show (dispatcher.objects mutex).ownerThread = some thread
    by_cases returns : .waitReturned thread mutex statusWait0 ∈ leave.events ++
        returnEvents new (dispatcher.threads new).waitStatus (dispatcher.resume new)
    · rcases mem_append.mp returns with left | right
      · exact absurd left (departure_returns leaves)
      · obtain ⟨point, rfl⟩ := mem_returnEvents right
        exact inv.handed _ different point ready
    · exact inv.holder thread (holds.of_append returns).1
  · intro thread waits
    show (dispatcher.objects mutex).ownerThread ≠ some thread
    have notNew : thread ≠ new := by
      intro same
      rw [same, Waits, newRuns] at waits
      cases waits.1
    rw [Waits, threadsOf thread notNew] at waits
    by_cases isCurrent : thread = dispatcher.current
    · rw [if_pos isCurrent] at waits
      subst thread
      rcases kind with ⟨_, _, state⟩ | ⟨object, point, _, state, place⟩
      · rcases state with running | terminated
        · simp [requeue, running] at waits
        · simp [requeue, terminated] at waits
      · have same : requeue leave.thread = leave.thread := by simp [requeue, state]
        rw [same, place] at waits
        have here : object = mutex := Option.some.inj waits.2
        apply meets.2
        exact departure_wait leaves (here ▸ point)
    · rw [if_neg isCurrent] at waits
      exact inv.waiter thread waits
  · intro thread away resumes isReady
    have notNew : thread ≠ new := away
    simp only [switched, departed] at resumes
    by_cases isCurrent : thread = dispatcher.current
    · subst thread
      rw [threadsOf _ notNew, if_pos rfl] at isReady
      rw [update_self] at resumes
      rcases kind with ⟨point, _⟩ | ⟨object, _, _, state, _⟩
      · rw [point] at resumes
        cases resumes
      · simp [requeue, state] at isReady
    · rw [threadsOf _ notNew, if_neg isCurrent] at isReady
      rw [update_of_ne isCurrent] at resumes
      exact inv.handed thread isCurrent resumes isReady

theorem Alive.notWaits (alive : Alive dispatcher) (object : Nat) :
    ¬ Waits dispatcher dispatcher.current object := by
  intro waits
  exact alive.other waits.1 (by simp) (by simp) rfl

theorem MutexInv.created {cells : Node → List Nat} (settled : Settled dispatcher cells)
    (known : KnownObjects dispatcher history)
    (contents : after.objects dispatcher.objectCount = ⟨.mutantObject, 1, 0, 0, none⟩)
    (threads : after.threads = dispatcher.threads) (resume : after.resume = dispatcher.resume)
    (quiet : ∀ thread, .waitReturned thread dispatcher.objectCount statusWait0 ∉ events) :
    MutexInv after (history ++ events) dispatcher.objectCount := by
  constructor
  · rw [contents]
    rfl
  · intro thread holds
    obtain ⟨before, rest, parts, _⟩ := holds
    have member : .waitReturned thread dispatcher.objectCount statusWait0 ∈ history ++ events := by
      rw [parts]
      simp
    rcases mem_append.mp member with older | now
    · exact absurd (known.returned thread _ older) (Nat.lt_irrefl _)
    · exact absurd now (quiet thread)
  · intro thread waits
    rw [Waits, threads] at waits
    obtain ⟨object, bound, place⟩ := settled.waitKnown thread waits.1
    rw [waits.2] at place
    cases place
    exact absurd bound (Nat.lt_irrefl _)
  · intro thread _ resumes
    rw [resume] at resumes
    exact absurd (known.resume thread _ resumes) (Nat.lt_irrefl _)

section Inv

variable (inv : MutexInv dispatcher history mutex)
include inv

section Own

variable (own : (dispatcher.objects mutex).ownerThread = some dispatcher.current)
include own

theorem MutexInv.notHolds (released : .mutexReleased dispatcher.current mutex ∈ events)
    (quiet : ∀ thread, .waitReturned thread mutex statusWait0 ∉ events) (thread : Nat) :
    ¬ Holds (history ++ events) mutex thread := by
  intro holds
  obtain ⟨earlier, kept⟩ := holds.of_append (quiet thread)
  have owner := inv.holder thread earlier
  rw [own] at owner
  cases owner
  exact kept released

theorem MutexInv.released (nobody : ∀ thread, ¬ Waits dispatcher thread mutex)
    (links : Links Node) :
    MutexInv ((dispatcher.setObject mutex { dispatcher.objects mutex with
        ownerThread := none, signalState := 1 }).withLinks links)
      (history ++ [.mutexReleased dispatcher.current mutex]) mutex := by
  refine ⟨?_, ?_, ?_, ?_⟩
  · simp [Dispatcher.setObject, withLinks]
  · intro thread holds
    exact absurd holds (inv.notHolds own (by simp) (by simp) thread)
  · exact fun thread waits => absurd waits (nobody thread)
  · intro thread away resumes ready
    have owner := inv.handed thread away resumes ready
    rw [own] at owner
    exact absurd (Option.some.inj owner).symm away

theorem MutexInv.handedOver (woken : Nat) (links : Links Node) :
    MutexInv ((dispatcher.setObject mutex { dispatcher.objects mutex with
        ownerThread := some woken, signalState := 0 }).woken links [woken] statusWait0)
      (history ++ [.mutexReleased dispatcher.current mutex, .woken mutex woken]) mutex := by
  refine ⟨?_, ?_, ?_, ?_⟩
  · simp [Dispatcher.setObject]
  · intro thread holds
    exact absurd holds (inv.notHolds own (by simp) (by simp) thread)
  · intro thread waits owner
    simp only [woken_objects, Dispatcher.setObject, update_self, Option.some.injEq] at owner
    subst thread
    simp [Waits, Dispatcher.woken] at waits
  · intro thread away resumes ready
    by_cases same : thread = woken
    · simp [Dispatcher.setObject, same]
    · simp only [Dispatcher.woken, mem_singleton, same, ↓reduceIte] at ready
      have owner := inv.handed thread away resumes ready
      rw [own] at owner
      exact absurd (Option.some.inj owner).symm away

end Own

/-- Taking a signaled mutex makes the thread its owner. -/
theorem MutexInv.taken (alive : Alive dispatcher)
    (isMutant : (dispatcher.objects mutex).type = .mutantObject)
    (signaled : (dispatcher.objects mutex).signalState ≠ 0) :
    MutexInv (dispatcher.setObject mutex
        (consumeSignal (dispatcher.objects mutex) dispatcher.current))
      (history ++ [.waitCalled dispatcher.current mutex true,
        .waitReturned dispatcher.current mutex statusWait0]) mutex := by
  have free : (dispatcher.objects mutex).ownerThread = none := by
    by_contra owned
    have signal := inv.signal
    rw [if_neg owned] at signal
    exact signaled signal
  have contents : (dispatcher.setObject mutex (consumeSignal (dispatcher.objects mutex)
      dispatcher.current)).objects mutex =
      { dispatcher.objects mutex with
        signalState := 0, ownerThread := some dispatcher.current } := by
    simp only [Dispatcher.setObject, update_self, consumeSignal, isMutant]
  refine ⟨?_, ?_, ?_, ?_⟩
  · rw [contents]
    simp
  · intro thread holds
    rw [contents]
    by_cases isCurrent : thread = dispatcher.current
    · rw [isCurrent]
    · have earlier := (holds.of_append (by simp [isCurrent])).1
      have owner := inv.holder thread earlier
      rw [free] at owner
      cases owner
  · intro thread waits owner
    rw [contents] at owner
    cases owner
    exact alive.notWaits mutex waits
  · intro thread away resumes ready
    have owner := inv.handed thread away resumes ready
    rw [free] at owner
    cases owner

end Inv

theorem MutexInv.idle (inv : MutexInv dispatcher history mutex) (alive : Alive dispatcher)
    {call : Call} {leave : Departure} (leaves : departure dispatcher call = some leave)
    (plain : leave.point = .routine) :
    MutexInv (dispatcher.departed dispatcher.links leave.thread) (history ++ []) mutex := by
  have state := departure_plain alive leaves plain
  apply inv.same
  · rfl
  · simp
  · intro thread waits
    by_cases isCurrent : thread = dispatcher.current
    · subst thread
      simp only [Waits, departed, update_self] at waits
      rcases state with running | terminated
      · simp [running] at waits
      · simp [terminated] at waits
    · simpa only [Waits, departed, update_of_ne isCurrent] using waits
  · intro thread away resumes ready
    have other : thread ≠ dispatcher.current := away
    simp only [departed, update_of_ne other] at ready
    exact ⟨away, resumes, ready⟩

/-- A call that does not take the mutex twice keeps its account. -/
theorem MutexInv.step {cells : Node → List Nat} (settled : Settled dispatcher cells)
    (alive : Alive dispatcher) (waitInv : WaitInv dispatcher history)
    (known : KnownObjects dispatcher history)
    (old : dispatcher.isMutex mutex → MutexInv dispatcher history mutex) {call : Call}
    (meets : NoRecursion mutex dispatcher call) (stillAlive : Alive after)
    (effect : Effect dispatcher call after events) (isMutex : after.isMutex mutex) :
    MutexInv after (history ++ events) mutex := by
  cases effect with
  | create =>
    refine MutexInv.same (old isMutex) rfl ?_ ?_ ?_
    · simp
    · intro thread waits
      by_cases other : thread = dispatcher.threadCount
      · simp [Waits, other] at waits
      · simpa only [Waits, update_of_ne other] using waits
    · intro thread away resumes ready
      by_cases other : thread = dispatcher.threadCount
      · simp [other] at resumes
      · simp only [update_of_ne other] at resumes ready
        exact ⟨away, resumes, ready⟩
  | @addObject call contents links new =>
    by_cases here : mutex = dispatcher.objectCount
    · subst mutex
      have shape : contents = ⟨.mutantObject, 1, 0, 0, none⟩ := by
        have type := isMutex.2
        simp only [update_self] at type
        cases call with
        | initializeMutex =>
          cases new
          rfl
        | initializeEvent notification state =>
          cases new
          dsimp only at type
          split at type <;> cases type
        | initializeSemaphore count limit =>
          cases new
          cases type
        | _ => cases new
      apply MutexInv.created settled known
      · simp [shape]
      · rfl
      · rfl
      · intro thread member
        cases call <;> simp [initialEvents] at member
    · have bound : mutex < dispatcher.objectCount + 1 := isMutex.1
      have type := isMutex.2
      simp only [update_of_ne here] at type
      apply (old ⟨by omega, type⟩).same
      · simp only [update_of_ne here]
      · intro thread holds
        apply holds.of_append_other
        intro event member
        cases call <;> simp [initialEvents] at member
        subst event
        rfl
      · exact fun thread waits => waits
      · exact fun thread away resumes ready => ⟨away, resumes, ready⟩
  | @reset object isEvent =>
    have isOther : (dispatcher.objects object).type ≠ .mutantObject := by
      rcases isEvent with event | event <;> simp [event]
    have here := (setObject_type_ne isMutex.2 isOther).1
    exact .setOther old isMutex here rfl rfl ⟨rfl, rfl, rfl⟩ (by simp)
  | @setEvent object links threads signal isKnown isEvent waiting =>
    have isOther : (dispatcher.objects object).type ≠ .mutantObject := by
      rcases isEvent with event | event <;> simp [event]
    obtain ⟨here, type⟩ := setObject_type_ne isMutex.2 isOther
    apply (old ⟨isMutex.1, type⟩).wokenOther waitInv here waiting
    intro event member thread
    obtain ⟨_, _, rfl⟩ := List.mem_map.mp member
    rfl
  | @releaseSemaphore object adjustment links threads isKnown isSemaphore waiting none =>
    have isOther : (dispatcher.objects object).type ≠ .mutantObject := by simp [isSemaphore]
    obtain ⟨here, type⟩ := setObject_type_ne isMutex.2 isOther
    apply (old ⟨isMutex.1, type⟩).wokenOther waitInv here waiting
    intro event member thread
    rcases mem_cons.mp member with first | rest
    · rw [first]
      rfl
    · obtain ⟨_, _, rfl⟩ := List.mem_map.mp rest
      rfl
  | foreignRelease foreign =>
    rw [append_nil]
    exact old isMutex
  | @releaseMutex object links isKnown isMutant own nobody =>
    by_cases here : mutex = object
    · subst mutex
      exact (old ⟨isKnown, isMutant⟩).released own nobody links
    · refine .setOther old isMutex here rfl rfl ⟨rfl, rfl, rfl⟩ ?_
      intro thread holds
      exact (holds.of_append (by simp)).1
  | @handMutex object woken links isKnown isMutant own waiting =>
    by_cases here : mutex = object
    · subst mutex
      exact (old ⟨isKnown, isMutant⟩).handedOver own woken links
    · have type := isMutex.2
      simp only [woken_objects, Dispatcher.setObject, update_of_ne here] at type
      apply (old ⟨isMutex.1, type⟩).wokenOther waitInv here
      · simpa using waiting
      · simp [Event.isOwn]
  | @waitSignaled object poll isKnown signaled =>
    by_cases here : mutex = object
    · subst mutex
      have isMutant : (dispatcher.objects object).type = .mutantObject := by
        have type := isMutex.2
        simp only [Dispatcher.setObject, update_self, consumeSignal] at type
        split at type <;> simp_all
      exact (old ⟨isKnown, isMutant⟩).taken alive isMutant signaled
    · refine .setOther old isMutex here rfl rfl ⟨rfl, rfl, rfl⟩ ?_
      intro thread holds
      exact (holds.of_append (by simp [here])).1
  | waitPolled notSignaled =>
    apply (old isMutex).same rfl
    · intro thread holds
      exact (holds.of_append (by simp [statusWait0, statusTimeout])).1
    · exact fun thread waits => waits
    · exact fun thread away resumes ready => ⟨away, resumes, ready⟩
  | wakeThread waiting => cases meets.1.1
  | switch leaves different ready =>
    exact (old isMutex).switch alive meets leaves different ready
  | idle leaves plain nobody => exact (old isMutex).idle alive leaves plain
  | recover leaves blocking nobody =>
    rcases stillAlive with running | terminated
    · simp [departed] at running
    · simp [departed] at terminated

end Steps

/-- Every run without recursion keeps the account of the mutex. -/
theorem mutexInv_run {mutex : Nat} {dispatcher : Dispatcher} {history : List Event}
    (run : DispatcherRun (NoRecursion mutex) dispatcher history) :
    WaitInv dispatcher history ∧ KnownObjects dispatcher history ∧
      (dispatcher.isMutex mutex → MutexInv dispatcher history mutex) := by
  induction run with
  | boot =>
    refine ⟨waitInv_boot, ⟨?_, ?_⟩, fun isMutex => absurd isMutex.1 (Nat.not_lt_zero _)⟩
    · intro thread object resumes
      cases resumes
    · intro thread object member
      cases member
  | call run meets done ih =>
    obtain ⟨waitInv, known, inv⟩ := ih
    obtain ⟨cells, settled, alive⟩ := alive_run (fun _ _ meets => meets.1.2) run
    obtain ⟨effect, _, kept, _⟩ := step_effect settled (alive.currentOk cells) done
    have stillAlive := effect.aliveWithOthers settled alive meets.1.2
    exact ⟨waitInv.step settled alive meets.1 effect,
      known.step kept alive stillAlive meets.1.1 effect,
      MutexInv.step settled alive waitInv known inv meets stillAlive effect⟩

/-- A mutex over every run in which no thread waits for it while it owns it. -/
theorem mutexOwnership_sound (mutex : Nat) (dispatcher : Dispatcher) (history : List Event)
    (run : DispatcherRun (NoRecursion mutex) dispatcher history)
    (isMutex : dispatcher.isMutex mutex) : MutexSound dispatcher history mutex := by
  have inv := (mutexInv_run run).2.2 isMutex
  refine ⟨?_, ?_, ?_, ?_⟩
  · rw [inv.signal]
    by_cases free : (dispatcher.objects mutex).ownerThread = none
    · simp [free]
    · simp [free]
  · intro foreign
    rw [keReleaseMutex, if_pos foreign]
  · intro thread other first second
    have owner := inv.holder thread first
    rw [inv.holder other second] at owner
    exact (Option.some.inj owner).symm
  · intro thread owner waits
    exact inv.waiter thread waits owner

/-- The boot thread takes the mutex, a second thread blocks on it and gets it when
the boot thread releases it. -/
theorem handedMutex_sound : ∃ dispatcher history,
    DispatcherRun (NoRecursion 0) dispatcher history ∧ dispatcher.isMutex 0 ∧
      (dispatcher.objects 0).ownerThread = some 1 ∧ MutexSound dispatcher history 0 := by
  obtain ⟨dispatcher, history, run, seen⟩ := exists_run (NoRecursion 0)
    [.initializeMutex, .createThread, .waitForSingleObject 0 false, .dispatchNext,
      .waitForSingleObject 0 false, .releaseMutex 0]
    (fun dispatcher _ => (dispatcher.objectCount, (dispatcher.objects 0).type,
      (dispatcher.objects 0).ownerThread)) (1, .mutantObject, some 1) (by decide +kernel)
  obtain ⟨count, type, owner⟩ : _ ∧ _ ∧ _ := by simpa using seen
  have isMutex : dispatcher.isMutex 0 := ⟨by omega, type⟩
  exact ⟨dispatcher, history, run, isMutex, owner,
    mutexOwnership_sound 0 dispatcher history run isMutex⟩

/-- A mutex that the thread owns. -/
def OwnedBy (object : DispatcherObject) (thread : Nat) : Prop :=
  object.type = .mutantObject ∧ object.signalState = 0 ∧ object.ownerThread = some thread

/-- The thread owns the mutex and is blocked on it. -/
structure SelfBlocked (dispatcher : Dispatcher) (mutex thread : Nat) : Prop where
  known : mutex < dispatcher.objectCount
  owned : OwnedBy (dispatcher.objects mutex) thread
  waits : Waits dispatcher thread mutex

/-- No call wakes a thread that waits for its own mutex. -/
theorem SelfBlocked.step {dispatcher after : Dispatcher} {events : List Event}
    {mutex thread : Nat} {cells : Node → List Nat} (blocked : SelfBlocked dispatcher mutex thread)
    (settled : Settled dispatcher cells) (ok : CurrentOk dispatcher cells) {call : Call}
    (api : call.isApi = true) (effect : Effect dispatcher call after events) :
    SelfBlocked after mutex thread := by
  have away : thread ≠ dispatcher.current := by
    intro same
    exact ok.notWaiting (same ▸ blocked.waits.1)
  have notOwner : ∀ {object : Nat},
      (dispatcher.objects object).ownerThread = some dispatcher.current → mutex ≠ object := by
    intro object own same
    rw [← same, blocked.owned.2.2] at own
    exact away (Option.some.inj own)
  -- a store to another object does not touch the mutex
  have stores : ∀ {object : Nat} {contents : DispatcherObject}, mutex ≠ object →
      (dispatcher.setObject object contents).objects mutex = dispatcher.objects mutex :=
    fun different => update_of_ne different _ _
  -- and a wake for another object misses the thread
  have wakes : ∀ {object : Nat} {contents : DispatcherObject} {links : Links Node}
      {threads : List Nat}, mutex ≠ object →
      (∀ other ∈ threads, Waits dispatcher other object) →
      SelfBlocked ((dispatcher.setObject object contents).woken links threads statusWait0)
        mutex thread := by
    intro object contents links threads different waiting
    have outside : thread ∉ threads := by
      intro member
      have place := (waiting thread member).2
      rw [blocked.waits.2] at place
      exact different (Option.some.inj place)
    refine ⟨blocked.known, ?_, ?_⟩
    · rw [woken_objects, stores different]
      exact blocked.owned
    · show _ ∧ _
      simp only [Dispatcher.woken, outside, ↓reduceIte, setObject_threads]
      exact blocked.waits
  have other : ∀ {object : Nat} (type : ObjectType), type ≠ .mutantObject →
      (dispatcher.objects object).type = type → mutex ≠ object := by
    intro object type different known same
    rw [← same, blocked.owned.1] at known
    exact different known.symm
  cases effect with
  | create =>
    have old : thread ≠ dispatcher.threadCount := by
      intro same
      have initialized := settled.created thread (Nat.le_of_eq same.symm)
      rw [blocked.waits.1] at initialized
      cases initialized
    refine ⟨blocked.known, blocked.owned, ?_⟩
    simpa only [Waits, update_of_ne old] using blocked.waits
  | addObject new =>
    have bound := blocked.known
    have old : mutex ≠ dispatcher.objectCount := by omega
    refine ⟨Nat.lt_succ_of_lt bound, ?_, blocked.waits⟩
    simpa only [update_of_ne old] using blocked.owned
  | @reset object isEvent =>
    have different : mutex ≠ object := by
      rcases isEvent with type | type
      · exact other _ (by simp) type
      · exact other _ (by simp) type
    exact ⟨blocked.known, by rw [stores different]; exact blocked.owned, blocked.waits⟩
  | setEvent known isEvent waiting =>
    rcases isEvent with type | type
    · exact wakes (other _ (by simp) type) waiting
    · exact wakes (other _ (by simp) type) waiting
  | releaseSemaphore known isSemaphore waiting none =>
    exact wakes (other _ (by simp) isSemaphore) waiting
  | foreignRelease foreign => exact blocked
  | @releaseMutex object links known isMutex own nobody =>
    refine ⟨blocked.known, ?_, blocked.waits⟩
    show OwnedBy ((dispatcher.setObject object _).objects mutex) thread
    rw [stores (notOwner own)]
    exact blocked.owned
  | handMutex known isMutex own waiting =>
    exact wakes (notOwner own) (by simpa using waiting)
  | @waitSignaled object poll known signaled =>
    have different : mutex ≠ object := by
      intro same
      exact signaled (same ▸ blocked.owned.2.1)
    exact ⟨blocked.known, by rw [stores different]; exact blocked.owned, blocked.waits⟩
  | waitPolled notSignaled => exact blocked
  | wakeThread waiting => cases api
  | @switch call leave links between new leaves different ready =>
    have notNew : thread ≠ new := by
      intro same
      rw [← same, blocked.waits.1] at ready
      cases ready
    refine ⟨blocked.known, blocked.owned, ?_⟩
    simpa only [Waits, switched, departed, update_of_ne notNew,
      update_of_ne away] using blocked.waits
  | idle leaves plain nobody | recover leaves blocking nobody =>
    refine ⟨blocked.known, blocked.owned, ?_⟩
    simpa only [Waits, departed, update_of_ne away] using blocked.waits

/-- Nor does any run of calls. -/
theorem selfBlocked_forever (calls : List Call) :
    ∀ {dispatcher last : Dispatcher} {events : List Event} {cells : Node → List Nat},
      SelfBlocked dispatcher mutex thread → Settled dispatcher cells →
      CurrentOk dispatcher cells →
      runCalls (fun _ call => call.isApi = true) dispatcher calls = some (last, events) →
      SelfBlocked last mutex thread := by
  induction calls with
  | nil =>
    intro dispatcher last events cells blocked _ _ done
    cases done
    exact blocked
  | cons call calls ih =>
    intro dispatcher last events cells blocked settled ok done
    rw [runCalls] at done
    by_cases api : call.isApi = true
    · rw [if_pos api] at done
      cases result : step dispatcher call with
      | none =>
        rw [result] at done
        cases done
      | some next =>
        obtain ⟨effect, _, kept, current⟩ := step_effect settled ok result
        rw [result] at done
        cases rest : runCalls (fun _ call => call.isApi = true) next.1 calls with
        | none =>
          simp only [rest] at done
          cases done
        | some final =>
          simp only [rest, Option.map_some, Option.some.injEq, Prod.mk.injEq] at done
          obtain ⟨rfl, _⟩ := done
          exact ih (blocked.step settled ok api effect) kept current rest
    · rw [if_neg api] at done
      cases done

/-- The boot thread waits twice for a mutex while a second thread is ready: it
blocks on the mutex it owns, and no further calls ever end its wait. -/
theorem ownerWaitsAgain_forever : ∃ dispatcher history,
    DispatcherRun (fun _ call => call.isApi = true) dispatcher history ∧
      dispatcher.isMutex 0 ∧ ¬ MutexSound dispatcher history 0 ∧
      ∀ calls last events,
        runCalls (fun _ call => call.isApi = true) dispatcher calls = some (last, events) →
        (last.objects 0).ownerThread = some 0 ∧ Waits last 0 0 := by
  obtain ⟨dispatcher, history, run, seen⟩ := exists_run (fun _ call => call.isApi = true)
    [.initializeMutex, .createThread, .waitForSingleObject 0 false, .waitForSingleObject 0 false]
    (fun dispatcher _ => (dispatcher.objectCount, dispatcher.objects 0, dispatcher.threads 0))
    (1, ⟨.mutantObject, 0, 0, 0, some 0⟩, ⟨.waiting, 0, some 0⟩) (by decide +kernel)
  obtain ⟨count, object, thread⟩ : _ ∧ _ ∧ _ := by simpa using seen
  have blocked : SelfBlocked dispatcher 0 0 := by
    refine ⟨by omega, ?_, ?_⟩
    · rw [object]
      exact ⟨rfl, rfl, rfl⟩
    · rw [Waits, thread]
      exact ⟨rfl, rfl⟩
  refine ⟨dispatcher, history, run, ⟨blocked.known, blocked.owned.1⟩, ?_, ?_⟩
  · intro sound
    exact sound.ownerRuns 0 blocked.owned.2.2 blocked.waits
  · intro calls last events done
    obtain ⟨cells, settled, ok⟩ := settled_run run
    have still := selfBlocked_forever calls blocked settled ok done
    exact ⟨still.owned.2.2, still.waits⟩

end MinNT.Ke
