import MinNT.Ke.DispatcherRun

namespace MinNT.Ke

open List Function Dispatcher Event ListEntry

/-- A call or return of the thread's own waits. -/
def Event.isOwn (thread : Nat) : Event → Bool
  | .waitCalled caller _ _ => caller = thread
  | .waitReturned caller _ _ => caller = thread
  | _ => false

/-- The last wait of the thread in the history is for the object and has not
returned; what happened since is `between`. -/
def OpenWait (history : List Event) (thread object : Nat) (signaled : Bool)
    (between : List Event) : Prop :=
  (∃ earlier, history = earlier ++ .waitCalled thread object signaled :: between) ∧
    ∀ event ∈ between, event.isOwn thread = false

/-- The open wait of the thread may return success: the object was signaled at the
call, or a signal of it has woken the thread since. -/
def Satisfied (history : List Event) (thread object : Nat) : Prop :=
  ∃ signaled between, OpenWait history thread object signaled between ∧
    (signaled = true ∨ .woken object thread ∈ between)

/-- Every wait that returned `STATUS_WAIT_0` was satisfied. -/
def WaitsSatisfied (history : List Event) : Prop :=
  ∀ before after thread object,
    history = before ++ .waitReturned thread object statusWait0 :: after →
    Satisfied before thread object

variable {thread object : Nat} {history : List Event}

theorem OpenWait.append {history between : List Event} {signaled : Bool}
    (wait : OpenWait history thread object signaled between) {events : List Event}
    (others : ∀ event ∈ events, event.isOwn thread = false) :
    OpenWait (history ++ events) thread object signaled (between ++ events) := by
  obtain ⟨⟨earlier, shape⟩, quiet⟩ := wait
  refine ⟨⟨earlier, by simp [shape]⟩, ?_⟩
  intro event member
  rcases mem_append.mp member with inside | new
  · exact quiet event inside
  · exact others event new

theorem openWait_call (history : List Event) (thread object : Nat) (signaled : Bool) :
    OpenWait (history ++ [.waitCalled thread object signaled]) thread object signaled [] :=
  ⟨⟨history, rfl⟩, fun event member => by cases member⟩

theorem Satisfied.append (satisfied : Satisfied history thread object) {events : List Event}
    (others : ∀ event ∈ events, event.isOwn thread = false) :
    Satisfied (history ++ events) thread object := by
  obtain ⟨signaled, between, wait, reason⟩ := satisfied
  refine ⟨signaled, between ++ events, wait.append others, ?_⟩
  rcases reason with signal | woken
  · exact .inl signal
  · exact .inr (mem_append_left _ woken)

theorem WaitsSatisfied.snoc (old : WaitsSatisfied history) (event : Event)
    (new : ∀ thread object, event = .waitReturned thread object statusWait0 →
      Satisfied history thread object) : WaitsSatisfied (history ++ [event]) := by
  intro before after thread object parts
  rcases eq_nil_or_concat after with rfl | ⟨earlier, last, rfl⟩
  · obtain ⟨front, back⟩ := append_inj' parts rfl
    rw [← front]
    exact new thread object (head_eq_of_cons_eq back)
  · have regrouped : history ++ [event] =
        (before ++ .waitReturned thread object statusWait0 :: earlier) ++ [last] := by
      simpa using parts
    exact old before earlier thread object (append_inj' regrouped rfl).1

theorem WaitsSatisfied.append (old : WaitsSatisfied history) (events : List Event)
    (quiet : ∀ thread object status, .waitReturned thread object status ∉ events) :
    WaitsSatisfied (history ++ events) := by
  induction events generalizing history with
  | nil => simpa using old
  | cons event events ih =>
    have first : WaitsSatisfied (history ++ [event]) := by
      apply old.snoc
      intro thread object same
      exact absurd (same ▸ mem_cons_self) (quiet thread object statusWait0)
    have rest := ih first (fun thread object status member =>
      quiet thread object status (mem_cons_of_mem _ member))
    simpa using rest

/-- Calls of the interface that block only when another thread is ready. -/
def ApiBlocksWithOthers (dispatcher : Dispatcher) (call : Call) : Prop :=
  call.isApi = true ∧ BlocksWithOthers dispatcher call

instance (dispatcher : Dispatcher) (call : Call) :
    Decidable (ApiBlocksWithOthers dispatcher call) :=
  inferInstanceAs (Decidable (_ ∧ _))

/-- The wait of a thread that has left the processor in `KeWaitForSingleObject`. -/
def PendingWait (dispatcher : Dispatcher) (history : List Event) (thread object : Nat) : Prop :=
  ∃ between, OpenWait history thread object false between ∧
    (Waits dispatcher thread object ∨ .woken object thread ∈ between)

structure WaitInv (dispatcher : Dispatcher) (history : List Event) : Prop where
  point : ∀ thread object, thread ≠ dispatcher.current → Waits dispatcher thread object →
    dispatcher.resume thread = .waitForSingleObject object
  pending : ∀ thread object, thread ≠ dispatcher.current →
    dispatcher.resume thread = .waitForSingleObject object →
    PendingWait dispatcher history thread object
  satisfied : WaitsSatisfied history

theorem PendingWait.append {dispatcher after : Dispatcher} {history events : List Event}
    (pending : PendingWait dispatcher history thread object)
    (others : ∀ event ∈ events, event.isOwn thread = false)
    (waits : Waits dispatcher thread object →
      Waits after thread object ∨ .woken object thread ∈ events) :
    PendingWait after (history ++ events) thread object := by
  obtain ⟨between, wait, reason⟩ := pending
  refine ⟨between ++ events, wait.append others, ?_⟩
  rcases reason with waiting | woken
  · rcases waits waiting with still | now
    · exact .inl still
    · exact .inr (mem_append_right _ now)
  · exact .inr (mem_append_left _ woken)

section Steps

variable {dispatcher : Dispatcher} {history : List Event}

/-- A woken thread has its wake in the history. -/
theorem WaitInv.woken (inv : WaitInv dispatcher history) {object : Nat}
    {contents : DispatcherObject} {threads : List Nat} {links : Links Node} {status : NtStatus}
    {events : List Event} (waiting : ∀ thread ∈ threads, Waits dispatcher thread object)
    (shown : ∀ thread ∈ threads, .woken object thread ∈ events)
    (quiet : ∀ event ∈ events, ∀ thread, event.isOwn thread = false) :
    WaitInv ((dispatcher.setObject object contents).woken links threads status)
      (history ++ events) := by
  have threadsOf : ∀ thread,
      ((dispatcher.setObject object contents).woken links threads status).threads thread =
        if thread ∈ threads then ⟨.ready, status, none⟩ else dispatcher.threads thread :=
    fun thread => rfl
  constructor
  · intro thread other away waits
    have outside : thread ∉ threads := by
      intro member
      have ready := waits.1
      rw [threadsOf, if_pos member] at ready
      cases ready
    apply inv.point thread other away
    simpa only [Waits, threadsOf, outside, ↓reduceIte] using waits
  · intro thread other away resumes
    apply (inv.pending thread other away resumes).append (fun event member =>
      quiet event member thread)
    intro waits
    by_cases member : thread ∈ threads
    · have same : other = object := by
        have here := (waiting thread member).2
        rw [waits.2] at here
        exact Option.some.inj here
      rw [same]
      exact .inr (shown thread member)
    · left
      simpa only [Waits, threadsOf, member, ↓reduceIte] using waits
  · apply inv.satisfied.append
    intro thread other status member
    have own := quiet _ member thread
    simp [isOwn] at own

theorem departure_api {call : Call} {leave : Departure} (alive : Alive dispatcher)
    (api : call.isApi = true) (leaves : departure dispatcher call = some leave) :
    (leave.point = .routine ∧ leave.events = [] ∧
        (leave.thread.state = .running ∨ leave.thread.state = .terminated)) ∨
      ∃ object, leave.point = .waitForSingleObject object ∧
        leave.events = [.waitCalled dispatcher.current object false] ∧
        leave.thread.state = .waiting ∧ leave.thread.waitObject = some object := by
  cases departs leaves with
  | dispatchNext => exact .inl ⟨rfl, rfl, alive⟩
  | exitThread => exact .inl ⟨rfl, rfl, .inr rfl⟩
  | @waitForSingleObject object blocks => exact .inr ⟨object, rfl, rfl, rfl, rfl⟩
  | waitThread => cases api

section Own

variable {call : Call} {events since : List Event} {thread : Nat}

theorem quiet_append (quiet : ∀ event ∈ since, event.isOwn thread = false)
    (more : ∀ event ∈ events, event.isOwn thread = false) :
    ∀ event ∈ since ++ events, event.isOwn thread = false := by
  intro event member
  rcases mem_append.mp member with old | new
  · exact quiet event old
  · exact more event new

/-- The events of a call belong to the thread that leaves. -/
theorem departure_events {leave : Departure} (leaves : departure dispatcher call = some leave)
    (away : thread ≠ dispatcher.current) : ∀ event ∈ leave.events, event.isOwn thread = false := by
  intro event member
  cases departs leaves with
  | waitForSingleObject =>
    obtain rfl := mem_singleton.mp member
    simpa [isOwn] using Ne.symm away
  | dispatchNext | exitThread | waitThread => cases member

theorem departure_returns {leave : Departure} (leaves : departure dispatcher call = some leave)
    {object : Nat} {status : NtStatus} : .waitReturned thread object status ∉ leave.events := by
  cases departs leaves <;> simp

/-- And to the one that comes. -/
theorem returnEvents_quiet_of_ne {other : Nat} (different : thread ≠ other) (status : NtStatus)
    (point : Resume) : ∀ event ∈ returnEvents other status point, event.isOwn thread = false := by
  intro event member
  cases point with
  | waitForSingleObject object =>
    obtain rfl := mem_singleton.mp member
    simpa [isOwn] using Ne.symm different
  | routine => cases member
  | waitThread => cases member

theorem mem_returnEvents {other object : Nat} {status given : NtStatus} {point : Resume}
    (member : .waitReturned thread object given ∈ returnEvents other status point) :
    point = .waitForSingleObject object ∧ thread = other := by
  cases point with
  | waitForSingleObject here =>
    cases mem_singleton.mp member
    exact ⟨rfl, rfl⟩
  | routine => cases member
  | waitThread => cases member

end Own

theorem switched_threads {leaving : KThread} {links between : Links Node} {new : Nat}
    {point : Resume} (different : new ≠ dispatcher.current) {thread : Nat} (other : thread ≠ new) :
    ((dispatcher.departed between leaving).switched links new point).threads thread =
      if thread = dispatcher.current then requeue leaving else dispatcher.threads thread := by
  by_cases isCurrent : thread = dispatcher.current
  · simp [switched, departed, isCurrent, Ne.symm different]
  · simp [switched, departed, isCurrent, other]

/-- A switch from the running thread to another one. The other thread comes back
from its wait, if it was in one, and the running thread may have entered one. -/
theorem WaitInv.switch (inv : WaitInv dispatcher history) (alive : Alive dispatcher)
    {call : Call} {leave : Departure} {links between : Links Node} {new : Nat}
    (api : call.isApi = true) (leaves : departure dispatcher call = some leave)
    (different : new ≠ dispatcher.current) (ready : (dispatcher.threads new).state = .ready) :
    WaitInv ((dispatcher.departed between leave.thread).switched links new leave.point)
      (history ++ (leave.events ++
        returnEvents new (dispatcher.threads new).waitStatus (dispatcher.resume new))) := by
  have kind := departure_api alive api leaves
  have threadsOf : ∀ thread, thread ≠ new →
      ((dispatcher.departed between leave.thread).switched links new leave.point).threads thread =
        if thread = dispatcher.current then requeue leave.thread
        else dispatcher.threads thread :=
    fun thread other => switched_threads different other
  have resumeOf : ∀ thread,
      ((dispatcher.departed between leave.thread).switched links new leave.point).resume thread =
        if thread = dispatcher.current then leave.point else dispatcher.resume thread := by
    intro thread
    simp [switched, departed, update_apply]
  have currentIs :
      ((dispatcher.departed between leave.thread).switched links new leave.point).current = new :=
    rfl
  generalize (dispatcher.departed between leave.thread).switched links new leave.point =
    after at *
  constructor
  · intro thread object away waits
    rw [currentIs] at away
    rw [resumeOf]
    by_cases isCurrent : thread = dispatcher.current
    · rw [if_pos isCurrent]
      rw [Waits, threadsOf thread away, if_pos isCurrent] at waits
      rcases kind with ⟨_, _, state⟩ | ⟨other, point, _, state, place⟩
      · rcases state with running | terminated
        · simp [requeue, running] at waits
        · simp [requeue, terminated] at waits
      · have same : requeue leave.thread = leave.thread := by simp [requeue, state]
        rw [same, place] at waits
        rw [point, Option.some.inj waits.2]
    · rw [if_neg isCurrent]
      apply inv.point thread object isCurrent
      rw [Waits, threadsOf thread away, if_neg isCurrent] at waits
      exact waits
  · intro thread object away resumes
    rw [currentIs] at away
    rw [resumeOf] at resumes
    by_cases isCurrent : thread = dispatcher.current
    · rw [if_pos isCurrent] at resumes
      subst thread
      rcases kind with ⟨point, _⟩ | ⟨other, point, shape, state, place⟩
      · rw [point] at resumes
        cases resumes
      · rw [point] at resumes
        cases resumes
        rw [shape, ← append_assoc]
        refine ⟨_, (openWait_call history dispatcher.current object false).append
          (returnEvents_quiet_of_ne away _ _), .inl ?_⟩
        rw [Waits, threadsOf _ away, if_pos rfl]
        simp [requeue, state, place]
    · rw [if_neg isCurrent] at resumes
      apply (inv.pending thread object isCurrent resumes).append
      · exact quiet_append (departure_events leaves isCurrent) (returnEvents_quiet_of_ne away _ _)
      · intro waits
        left
        rw [Waits, threadsOf thread away, if_neg isCurrent]
        exact waits
  · have first : WaitsSatisfied (history ++ leave.events) := by
      apply inv.satisfied.append
      exact fun thread object status member => absurd member (departure_returns leaves)
    rw [← append_assoc]
    cases point : dispatcher.resume new with
    | routine => simpa [returnEvents] using first
    | waitThread => simpa [returnEvents] using first
    | waitForSingleObject object =>
      apply first.snoc
      intro thread other same
      simp only [waitReturned.injEq] at same
      obtain ⟨rfl, rfl, _⟩ := same
      obtain ⟨between, wait, reason⟩ := inv.pending new object different point
      -- the thread is ready, so it has been woken
      have woken : .woken object new ∈ between := by
        rcases reason with waits | woken
        · rw [Waits, ready] at waits
          cases waits.1
        · exact woken
      have satisfied : Satisfied history new object := ⟨false, between, wait, .inr woken⟩
      exact satisfied.append (departure_events leaves different)

/-- Every call keeps the account of the waits. -/
theorem WaitInv.step (inv : WaitInv dispatcher history) {cells : Node → List Nat}
    (settled : Settled dispatcher cells) (alive : Alive dispatcher) {call : Call}
    (meets : ApiBlocksWithOthers dispatcher call) {after : Dispatcher} {events : List Event}
    (effect : Effect dispatcher call after events) : WaitInv after (history ++ events) := by
  have stillAlive := effect.aliveWithOthers settled alive meets.2
  cases effect with
  | create =>
    refine ⟨?_, ?_, by simpa using inv.satisfied⟩
    · intro thread object away waits
      have other : thread ≠ dispatcher.threadCount := by
        intro same
        simp [Waits, same] at waits
      simp only [Waits, update_of_ne other] at waits ⊢
      exact inv.point thread object away waits
    · intro thread object away resumes
      have other : thread ≠ dispatcher.threadCount := by
        intro same
        simp [same] at resumes
      simp only [update_of_ne other] at resumes
      apply (inv.pending thread object away resumes).append (by simp)
      intro waits
      left
      simpa only [Waits, update_of_ne other] using waits
  | addObject new =>
    have quiet : ∀ event ∈ initialEvents dispatcher.objectCount call, ∀ thread,
        event.isOwn thread = false := by
      intro event member thread
      cases call <;> simp [initialEvents] at member
      subst event
      rfl
    refine ⟨inv.point, ?_, ?_⟩
    · intro thread object away resumes
      exact (inv.pending thread object away resumes).append
        (fun event member => quiet event member thread) .inl
    · apply inv.satisfied.append
      intro thread object status member
      have own := quiet _ member thread
      simp [isOwn] at own
  | reset isEvent =>
    rw [append_nil]
    exact ⟨inv.point, inv.pending, inv.satisfied⟩
  | setEvent known isEvent waiting =>
    apply inv.woken waiting
    · intro thread member
      exact List.mem_map.mpr ⟨thread, member, rfl⟩
    · intro event member thread
      obtain ⟨_, _, rfl⟩ := List.mem_map.mp member
      rfl
  | releaseSemaphore known isSemaphore waiting none =>
    apply inv.woken waiting
    · intro thread member
      exact mem_cons_of_mem _ (List.mem_map.mpr ⟨thread, member, rfl⟩)
    · intro event member thread
      rcases mem_cons.mp member with first | rest
      · rw [first]
        rfl
      · obtain ⟨_, _, rfl⟩ := List.mem_map.mp rest
        rfl
  | foreignRelease foreign =>
    rw [append_nil]
    exact inv
  | @releaseMutex object links known isMutex own nobody =>
    have quiet : WaitInv ((dispatcher.setObject object { dispatcher.objects object with
        ownerThread := none, signalState := 1 }).woken links [] statusWait0)
        (history ++ [.mutexReleased dispatcher.current object]) :=
      inv.woken (by simp) (by simp) (by simp [isOwn])
    simpa [Dispatcher.woken, Dispatcher.withLinks, Dispatcher.setObject] using quiet
  | handMutex known isMutex own waiting =>
    apply inv.woken
    · simpa using waiting
    · simp
    · simp [isOwn]
  | @waitSignaled object poll known signaled =>
    refine ⟨inv.point, ?_, ?_⟩
    · intro thread other away resumes
      have isOther : dispatcher.current ≠ thread := Ne.symm away
      apply (inv.pending thread other away resumes).append _ .inl
      simp [isOwn, isOther]
    · rw [append_cons]
      have called : WaitsSatisfied (history ++ [.waitCalled dispatcher.current object true]) := by
        apply inv.satisfied.append
        simp
      apply called.snoc
      intro thread other same
      cases same
      exact ⟨true, [], openWait_call _ _ _ _, .inl rfl⟩
  | @waitPolled object notSignaled =>
    refine ⟨inv.point, ?_, ?_⟩
    · intro thread other away resumes
      have isOther : dispatcher.current ≠ thread := Ne.symm away
      apply (inv.pending thread other away resumes).append _ .inl
      simp [isOwn, isOther]
    · rw [append_cons]
      have called : WaitsSatisfied (history ++ [.waitCalled dispatcher.current object false]) := by
        apply inv.satisfied.append
        simp
      apply called.snoc
      intro thread other same
      simp [statusTimeout, statusWait0] at same
  | wakeThread waiting => cases meets.1
  | switch leaves different ready => exact inv.switch alive meets.1 leaves different ready
  | idle leaves plain nobody =>
    rw [append_nil]
    refine ⟨?_, ?_, inv.satisfied⟩
    · intro thread object away waits
      have other : thread ≠ dispatcher.current := away
      simp only [Waits, departed, update_of_ne other] at waits
      exact inv.point thread object away waits
    · intro thread object away resumes
      have other : thread ≠ dispatcher.current := away
      obtain ⟨between, wait, reason⟩ := inv.pending thread object away resumes
      refine ⟨between, wait, ?_⟩
      simpa only [Waits, departed, update_of_ne other] using reason
  | recover leaves blocking nobody =>
    rcases stillAlive with running | terminated
    · simp [departed] at running
    · simp [departed] at terminated

end Steps

theorem waitInv_boot : WaitInv bootDispatcher [] := by
  refine ⟨?_, ?_, ?_⟩
  · intro thread object away waits
    have other : thread ≠ 0 := away
    simp [Waits, bootDispatcher, other] at waits
  · intro thread object _ resumes
    cases resumes
  · intro before after thread object parts
    simp at parts

/-- `KeWaitForSingleObject` over every run of the interface whose blocking waits
find another thread ready: it succeeds only when it was satisfied. -/
theorem waits_satisfied (dispatcher : Dispatcher) (history : List Event)
    (run : DispatcherRun ApiBlocksWithOthers dispatcher history) : WaitsSatisfied history := by
  suffices WaitInv dispatcher history from this.satisfied
  induction run with
  | boot => exact waitInv_boot
  | call run meets done ih =>
    obtain ⟨cells, settled, alive⟩ := alive_run (fun _ _ meets => meets.2) run
    exact ih.step settled alive meets (step_effect settled (alive.currentOk cells) done).1

/-- A thread waits for an event, the boot thread sets it, and the thread returns. -/
theorem eventWait_satisfied : ∃ dispatcher history,
    DispatcherRun ApiBlocksWithOthers dispatcher history ∧
      history = [.waitCalled 1 0 false, .woken 0 1, .waitReturned 1 0 statusWait0] ∧
      WaitsSatisfied history := by
  obtain ⟨dispatcher, history, run, seen⟩ := exists_run ApiBlocksWithOthers
    [.initializeEvent true false, .createThread, .dispatchNext, .waitForSingleObject 0 false,
      .setEvent 0, .dispatchNext]
    (fun _ history => history)
    [.waitCalled 1 0 false, .woken 0 1, .waitReturned 1 0 statusWait0] (by decide +kernel)
  exact ⟨dispatcher, history, run, seen, waits_satisfied dispatcher history run⟩

/-- The boot thread alone returns from its wait with success although nobody has
set the event. -/
theorem bootThreadAlone_unsatisfied : ∃ dispatcher history,
    DispatcherRun (fun _ call => call.isApi = true) dispatcher history ∧
      ¬ WaitsSatisfied history := by
  obtain ⟨dispatcher, history, run, seen⟩ := exists_run (fun _ call => call.isApi = true)
    [.initializeEvent true false, .waitForSingleObject 0 false] (fun _ history => history)
    [.waitCalled 0 0 false, .waitReturned 0 0 statusWait0] (by decide +kernel)
  refine ⟨dispatcher, history, run, ?_⟩
  intro satisfied
  rw [seen] at satisfied
  obtain ⟨signaled, between, ⟨⟨earlier, parts⟩, _⟩, reason⟩ := satisfied
    [.waitCalled 0 0 false] [] 0 0 rfl
  cases earlier with
  | nil =>
    simp only [nil_append, List.cons.injEq, waitCalled.injEq, true_and] at parts
    obtain ⟨rfl, rfl⟩ := parts
    rcases reason with signal | woken
    · cases signal
    · cases woken
  | cons first earlier =>
    have length := congrArg List.length parts
    simp at length

end MinNT.Ke
