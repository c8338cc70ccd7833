import MinNT.Ke.WaitReturns

namespace MinNT.Ke

open List Function ListEntry

inductive WaitType where
  | waitAll
  | waitAny
deriving DecidableEq, Repr

/-- How a wait for several objects goes on: it has returned, or it is in
`KeWaitForSingleObject` for the object at an index. -/
inductive MultipleWait where
  | returned (status : NtStatus) (dispatcher : Dispatcher)
  | waiting (index : Nat) (wait : Option (Dispatcher × List Event))

/-- The loop of `KeWaitForMultipleObjects` from index `i` on. -/
def waitLoop (dispatcher : Dispatcher) (poll : Bool) (i : Nat) : List Nat → MultipleWait
  | [] => .returned statusWait0 dispatcher
  | object :: objects =>
      if (dispatcher.objects object).signalState = 0 then
        .waiting i (keWaitForSingleObject dispatcher object poll)
      else waitLoop dispatcher poll (i + 1) objects

/-- `KeWaitForMultipleObjects` of the current thread, which looks at no wait type. -/
def keWaitForMultipleObjects (dispatcher : Dispatcher) (objects : List Nat) (_ : WaitType)
    (poll : Bool) : MultipleWait :=
  waitLoop dispatcher poll 0 objects

/-- What it returns when the wait for the object at the index has returned. -/
def multipleStatus (index : Nat) (status : NtStatus) : NtStatus :=
  if ntSuccess status then statusWait0 + BitVec.ofNat 32 index else status

/-- The first object of the array that is not signaled. -/
structure FirstUnsignaled (dispatcher : Dispatcher) (objects : List Nat) (index object : Nat) :
    Prop where
  here : objects[index]? = some object
  unsignaled : (dispatcher.objects object).signalState = 0
  earlier : ∀ before < index, ∀ other, objects[before]? = some other →
    (dispatcher.objects other).signalState ≠ 0

variable {dispatcher : Dispatcher}

/-- The loop waits on the first object that is not signaled. -/
theorem waitLoop_first {objects : List Nat} {index object : Nat}
    (first : FirstUnsignaled dispatcher objects index object) (poll : Bool) (i : Nat) :
    waitLoop dispatcher poll i objects =
      .waiting (i + index) (keWaitForSingleObject dispatcher object poll) := by
  induction objects generalizing index i with
  | nil => cases first.here
  | cons other objects ih =>
    cases index with
    | zero =>
      cases first.here
      rw [waitLoop, if_pos first.unsignaled, Nat.add_zero]
    | succ index =>
      have signaled := first.earlier 0 (Nat.succ_pos index) other rfl
      have rest : FirstUnsignaled dispatcher objects index object :=
        ⟨first.here, first.unsignaled, fun before less =>
          first.earlier (before + 1) (Nat.succ_lt_succ less)⟩
      rw [waitLoop, if_neg signaled, ih rest, Nat.add_right_comm, Nat.add_assoc]

theorem waitLoop_signaled {objects : List Nat}
    (signaled : ∀ object ∈ objects, (dispatcher.objects object).signalState ≠ 0) (poll : Bool)
    (i : Nat) : waitLoop dispatcher poll i objects = .returned statusWait0 dispatcher := by
  induction objects generalizing i with
  | nil => rfl
  | cons object objects ih =>
    rw [waitLoop, if_neg (signaled object mem_cons_self)]
    exact ih (fun other member => signaled other (mem_cons_of_mem _ member)) (i + 1)

/-- The thread is in `KeWaitForSingleObject`: it is blocked, or a signal of the object
has woken it since. -/
structure InWait (dispatcher : Dispatcher) (thread object : Nat) (since : List Event) :
    Prop where
  away : thread ≠ dispatcher.current
  point : dispatcher.resume thread = .waitForSingleObject object
  place : Waits dispatcher thread object ∨
    (dispatcher.threads thread).state = .ready ∧
      (dispatcher.threads thread).waitStatus = statusWait0 ∧ .woken object thread ∈ since
  quiet : ∀ event ∈ since, event.isOwn thread = false

/-- The next that the thread does, if anything, is to return from its wait with
`STATUS_WAIT_0`, after the object has been signaled for it. -/
def ReturnsSignaled (thread object : Nat) (later : List Event) : Prop :=
  (∀ event ∈ later, event.isOwn thread = false) ∨
    ∃ between rest, later = between ++ .waitReturned thread object statusWait0 :: rest ∧
      (∀ event ∈ between, event.isOwn thread = false) ∧ .woken object thread ∈ between

section Steps

variable {dispatcher after : Dispatcher} {cells : Node → List Nat} {call : Call}
  {events since : List Event} {thread object : Nat}

theorem InWait.keep (wait : InWait dispatcher thread object since)
    (away : thread ≠ after.current) (point : after.resume thread = dispatcher.resume thread)
    (same : after.threads thread = dispatcher.threads thread)
    (quiet : ∀ event ∈ events, event.isOwn thread = false) :
    InWait after thread object (since ++ events) where
  away := away
  point := point.trans wait.point
  place := by
    rw [Waits, same]
    rcases wait.place with waits | ⟨ready, status, woken⟩
    · exact .inl waits
    · exact .inr ⟨ready, status, mem_append_left _ woken⟩
  quiet := quiet_append wait.quiet quiet

theorem InWait.woken (wait : InWait dispatcher thread object since) {other : Nat}
    {contents : DispatcherObject} {threads : List Nat} {links : Links Node}
    (waiting : ∀ woken ∈ threads, Waits dispatcher woken other)
    (quiet : ∀ event ∈ events, event.isOwn thread = false)
    (shows : ∀ woken ∈ threads, .woken other woken ∈ events) :
    InWait ((dispatcher.setObject other contents).woken links threads statusWait0) thread object
      (since ++ events) := by
  by_cases member : thread ∈ threads
  · have here : ((dispatcher.setObject other contents).woken links threads statusWait0).threads
        thread = ⟨.ready, statusWait0, none⟩ := if_pos member
    have waits := waiting thread member
    have same : other = object := by
      rcases wait.place with waited | ⟨ready, _⟩
      · exact Option.some.inj (waits.2.symm.trans waited.2)
      · rw [waits.1] at ready
        cases ready
    refine ⟨wait.away, wait.point, .inr ?_, quiet_append wait.quiet quiet⟩
    rw [here]
    exact ⟨rfl, rfl, mem_append_right _ (same ▸ shows thread member)⟩
  · exact wait.keep wait.away rfl (if_neg member) quiet

theorem woken_quiet (other : Nat) (threads : List Nat) :
    ∀ event ∈ threads.map (Event.woken other), event.isOwn thread = false := by
  intro event member
  obtain ⟨woken, _, rfl⟩ := List.mem_map.mp member
  rfl

/-- A wait stays open or returns, and only behind its wake. -/
theorem InWait.step (settled : Settled dispatcher cells)
    (wait : InWait dispatcher thread object since) (api : call.isApi = true)
    (effect : Effect dispatcher call after events) :
    InWait after thread object (since ++ events) ∨
      ∃ between, events = between ++ [.waitReturned thread object statusWait0] ∧
        (∀ event ∈ between, event.isOwn thread = false) ∧ .woken object thread ∈ since := by
  have own : ∀ {other : Nat} {signaled : Bool} {status : NtStatus},
      ∀ event ∈ [Event.waitCalled dispatcher.current other signaled,
        .waitReturned dispatcher.current other status], event.isOwn thread = false := by
    intro other signaled status event member
    simp only [mem_cons, not_mem_nil, or_false] at member
    rcases member with rfl | rfl
    · simpa [Event.isOwn] using Ne.symm wait.away
    · simpa [Event.isOwn] using Ne.symm wait.away
  cases effect with
  | create =>
    left
    have known : thread ≠ dispatcher.threadCount := by
      rintro rfl
      have initialized := settled.created dispatcher.threadCount (Nat.le_refl _)
      rcases wait.place with waits | ⟨ready, _⟩
      · rw [waits.1] at initialized
        cases initialized
      · rw [ready] at initialized
        cases initialized
    exact wait.keep wait.away (update_of_ne known _ _) (update_of_ne known _ _) (by simp)
  | addObject new =>
    left
    refine wait.keep wait.away rfl rfl ?_
    cases call <;> simp [initialEvents, Event.isOwn]
  | reset isEvent | foreignRelease foreign => exact .inl (wait.keep wait.away rfl rfl (by simp))
  | setEvent known isEvent waiting =>
    left
    exact wait.woken waiting (woken_quiet _ _) (fun woken member => mem_map_of_mem member)
  | releaseSemaphore known isSemaphore waiting none =>
    left
    apply wait.woken waiting
    · intro event member
      rcases mem_cons.mp member with rfl | woken
      · rfl
      · exact woken_quiet _ _ event woken
    · exact fun woken member => mem_cons_of_mem _ (mem_map_of_mem member)
  | releaseMutex known isMutex own' nobody =>
    exact .inl (wait.keep wait.away rfl rfl (by simp [Event.isOwn]))
  | handMutex known isMutex own' waiting =>
    left
    apply wait.woken (by simpa using waiting)
    · simp [Event.isOwn]
    · simp
  | waitSignaled known signaled
  | waitPolled notSignaled => exact .inl (wait.keep wait.away rfl rfl own)
  | wakeThread waiting => cases api
  | @switch call leave links between new leaves different ready =>
    have left := departure_events leaves wait.away
    by_cases isNew : thread = new
    · right
      subst isNew
      refine ⟨leave.events, ?_, left, ?_⟩
      · rcases wait.place with waits | ⟨_, status, _⟩
        · rw [waits.1] at ready
          cases ready
        · rw [wait.point, status]
          rfl
      · rcases wait.place with waits | ⟨_, _, woken⟩
        · rw [waits.1] at ready
          cases ready
        · exact woken
    · apply Or.inl
      apply wait.keep isNew
      · exact update_of_ne wait.away _ _
      · rw [switched_threads different isNew, if_neg wait.away]
      · exact quiet_append left (returnEvents_quiet_of_ne isNew _ _)
  | idle leaves plain nobody =>
    exact .inl (wait.keep wait.away rfl (update_of_ne wait.away _ _) (by simp))
  | recover leaves blocks nobody =>
    left
    exact wait.keep wait.away rfl (update_of_ne wait.away _ _)
      (quiet_append (departure_events leaves wait.away) (returnEvents_quiet_of_ne wait.away _ _))

end Steps

/-- Over any run of calls, a wait returns only behind its wake. -/
theorem InWait.run (calls : List Call) :
    ∀ {dispatcher last : Dispatcher} {thread object : Nat} {since later : List Event}
      {cells : Node → List Nat}, InWait dispatcher thread object since →
      Settled dispatcher cells → CurrentOk dispatcher cells →
      runCalls (fun _ call => call.isApi = true) dispatcher calls = some (last, later) →
      ReturnsSignaled thread object (since ++ later) := by
  induction calls with
  | nil =>
    intro dispatcher last thread object since later cells wait _ _ done
    cases done
    rw [append_nil]
    exact .inl wait.quiet
  | cons call calls ih =>
    intro dispatcher last thread object since later cells wait settled ok done
    rw [runCalls] at done
    by_cases api : call.isApi = true
    · rw [if_pos api] at done
      cases result : Ke.step dispatcher call with
      | none =>
        rw [result] at done
        cases done
      | some next =>
        obtain ⟨effect, cells', kept, current⟩ := step_effect settled ok result
        rw [result] at done
        cases rest : runCalls (fun _ call => call.isApi = true) next.1 calls with
        | none =>
          simp only [rest] at done
          cases done
        | some final =>
          simp only [rest, Option.map_some, Option.some.injEq, Prod.mk.injEq] at done
          obtain ⟨rfl, rfl⟩ := done
          rcases wait.step settled api effect with still | ⟨between, shape, quiet, woken⟩
          · have goes := ih still kept current rest
            rwa [append_assoc] at goes
          · right
            refine ⟨since ++ between, final.2, ?_, quiet_append wait.quiet quiet,
              mem_append_left _ woken⟩
            rw [shape]
            simp
    · rw [if_neg api] at done
      cases done

/-- A wait on an unsignaled object blocks if another thread is ready. -/
theorem keWaitForSingleObject_blocks {cells : Node → List Nat} (settled : Settled dispatcher cells)
    (running : (dispatcher.threads dispatcher.current).state = .running) {object : Nat}
    (known : object < dispatcher.objectCount)
    (unsignaled : (dispatcher.objects object).signalState = 0)
    (others : isListEmpty dispatcher.links .ready = false) :
    ∃ after events cells', keWaitForSingleObject dispatcher object false =
        some (after, .waitCalled dispatcher.current object false :: events) ∧
      after.objects = dispatcher.objects ∧ Waits after dispatcher.current object ∧
      InWait after dispatcher.current object events ∧ Settled after cells' ∧
      CurrentOk after cells' := by
  have blocked := settled.blocked known running
  have ring := settled.listed.ring .ready trivial
  cases shape : cells .ready with
  | nil =>
    rw [shape] at ring
    rw [ring.isListEmpty_iff.mpr rfl] at others
    cases others
  | cons new rest =>
    have newReady := (settled.ready_iff new).mp (by rw [shape]; exact mem_cons_self)
    have different : new ≠ dispatcher.current := by
      rintro rfl
      rw [running] at newReady
      cases newReady
    have first : update cells (.object object)
        (cells (.object object) ++ [dispatcher.current]) .ready = new :: rest := by
      rw [update_of_ne (by simp), shape]
    obtain ⟨links, result, kept⟩ := kiDispatchNextThread_switch blocked first different
      (.waitForSingleObject object)
    have here : ((dispatcher.blocked object).switched links new
        (.waitForSingleObject object)).threads dispatcher.current =
        { dispatcher.threads dispatcher.current with
          state := .waiting, waitObject := some object } := by
      simp [Dispatcher.switched, Dispatcher.blocked, Dispatcher.setThread, Dispatcher.withLinks,
        Ne.symm different, requeue]
    have waits : Waits ((dispatcher.blocked object).switched links new
        (.waitForSingleObject object)) dispatcher.current object := by
      rw [Waits, here]
      exact ⟨rfl, rfl⟩
    have quiet := returnEvents_quiet_of_ne (Ne.symm different)
      ((dispatcher.blocked object).threads new).waitStatus ((dispatcher.blocked object).resume new)
    refine ⟨(dispatcher.blocked object).switched links new (.waitForSingleObject object), _, _,
      ?_, rfl, waits, ⟨Ne.symm different, update_self _ _ _, .inl waits, quiet⟩, kept,
      .inl ?_⟩
    · rw [keWaitForSingleObject]
      simp only [unsignaled, kiWaitThread_eq, result]
      rfl
    · simp [Dispatcher.switched]

/-- Whatever the wait type is, the wait for several objects is a wait for the first of
them that is not signaled. It does not touch the objects, and once it has blocked it
returns with the index of that object, after the object has been signaled. -/
theorem keWaitForMultipleObjects_first (dispatcher : Dispatcher) (history : List Event)
    (run : DispatcherRun ApiBlocksWithOthers dispatcher history)
    (alive : (dispatcher.threads dispatcher.current).state ≠ .terminated) {objects : List Nat}
    (known : ∀ object ∈ objects, object < dispatcher.objectCount) (waitType : WaitType) :
    ((∀ object ∈ objects, (dispatcher.objects object).signalState ≠ 0) →
      ∃ after, keWaitForMultipleObjects dispatcher objects waitType false =
        .returned statusWait0 after) ∧
    ∀ index object, FirstUnsignaled dispatcher objects index object →
      keWaitForMultipleObjects dispatcher objects waitType false =
          .waiting index (keWaitForSingleObject dispatcher object false) ∧
        multipleStatus index statusWait0 = statusWait0 + BitVec.ofNat 32 index ∧
        (isListEmpty dispatcher.links .ready = false →
          ∃ after events, keWaitForSingleObject dispatcher object false =
              some (after, .waitCalled dispatcher.current object false :: events) ∧
            after.objects = dispatcher.objects ∧ Waits after dispatcher.current object ∧
            ∀ calls last later,
              runCalls (fun _ call => call.isApi = true) after calls = some (last, later) →
              ReturnsSignaled dispatcher.current object (events ++ later)) := by
  obtain ⟨cells, settled, state⟩ := alive_run (fun _ _ meets => meets.2) run
  have running := state.resolve_right alive
  constructor
  · intro signaled
    exact ⟨dispatcher, waitLoop_signaled signaled false 0⟩
  · intro index object first
    refine ⟨?_, rfl, ?_⟩
    · have loop := waitLoop_first first false 0
      rwa [Nat.zero_add] at loop
    · intro others
      obtain ⟨after, events, cells', waits, same, blocked, inside, kept, current⟩ :=
        keWaitForSingleObject_blocks settled running
          (known object (mem_of_getElem? first.here)) first.unsignaled others
      exact ⟨after, events, waits, same, blocked,
        fun calls last later done => inside.run calls kept current done⟩

/-- The second of two objects is not signaled, and the thread waits for it. -/
theorem secondObject_waits : ∃ dispatcher history,
    DispatcherRun ApiBlocksWithOthers dispatcher history ∧
      ∃ after events, keWaitForMultipleObjects dispatcher [0, 1] .waitAll false =
          .waiting 1 (some (after, events)) ∧ Waits after 0 1 := by
  obtain ⟨dispatcher, history, run, seen⟩ := exists_run ApiBlocksWithOthers
    [.createThread, .initializeEvent true true, .initializeEvent true false]
    (fun dispatcher _ => (dispatcher.current, (dispatcher.threads dispatcher.current).state,
      dispatcher.objectCount, (dispatcher.objects 0).signalState,
      (dispatcher.objects 1).signalState, isListEmpty dispatcher.links .ready))
    (0, .running, 2, 1, 0, false) (by decide +kernel)
  simp only [Prod.mk.injEq] at seen
  obtain ⟨current, state, count, first, second, others⟩ := seen
  have unsignaled : FirstUnsignaled dispatcher [0, 1] 1 1 := by
    refine ⟨rfl, second, ?_⟩
    intro before less other here
    obtain rfl : before = 0 := by omega
    cases here
    rw [first]
    simp
  have known : ∀ object ∈ [0, 1], object < dispatcher.objectCount := by
    rw [count]
    decide
  obtain ⟨waits, _, blocks⟩ := (keWaitForMultipleObjects_first dispatcher history run
    (by rw [state]; simp) known .waitAll).2 1 1 unsignaled
  obtain ⟨after, events, single, _, blocked, _⟩ := blocks others
  rw [single] at waits
  rw [current] at blocked
  exact ⟨dispatcher, history, run, after, _, waits, blocked⟩

/-- A wait for any of two objects blocks although the second one is signaled. -/
theorem signaledSecond_blocks : ∃ dispatcher history,
    DispatcherRun ApiBlocksWithOthers dispatcher history ∧
      (dispatcher.objects 1).signalState = 1 ∧
      ∃ after events, keWaitForMultipleObjects dispatcher [0, 1] .waitAny false =
          .waiting 0 (some (after, events)) ∧ Waits after 0 0 := by
  obtain ⟨dispatcher, history, run, seen⟩ := exists_run ApiBlocksWithOthers
    [.createThread, .initializeEvent true false, .initializeEvent true true]
    (fun dispatcher _ => (dispatcher.current, (dispatcher.threads dispatcher.current).state,
      dispatcher.objectCount, (dispatcher.objects 0).signalState,
      (dispatcher.objects 1).signalState, isListEmpty dispatcher.links .ready))
    (0, .running, 2, 0, 1, false) (by decide +kernel)
  simp only [Prod.mk.injEq] at seen
  obtain ⟨current, state, count, first, second, others⟩ := seen
  obtain ⟨cells, settled, _⟩ := alive_run (fun _ _ meets => meets.2) run
  obtain ⟨after, events, _, waits, _, blocked, _⟩ := keWaitForSingleObject_blocks settled state
    (show 0 < dispatcher.objectCount by omega) first others
  refine ⟨dispatcher, history, run, second, after,
    .waitCalled dispatcher.current 0 false :: events, ?_, ?_⟩
  · rw [← waits]
    exact if_pos first
  · rwa [current] at blocked

end MinNT.Ke
