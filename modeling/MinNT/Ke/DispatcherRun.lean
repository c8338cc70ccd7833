import MinNT.Ke.DispatcherSteps

namespace MinNT.Ke

open List ListEntry

/-- The lists of the scheduler as they should be, through the threads of each. -/
structure ListsSound (dispatcher : Dispatcher) (cells : Node → List Nat) : Prop where
  rings : ∀ head, IsHead dispatcher.objectCount head →
    Ring dispatcher.links head ((cells head).map .thread)
  oneList : ∀ thread head other, IsHead dispatcher.objectCount head →
    IsHead dispatcher.objectCount other → thread ∈ cells head → thread ∈ cells other →
    head = other
  ready : ∀ thread, (dispatcher.threads thread).state = .ready →
    (cells .ready).count thread = 1
  waiting : ∀ thread, (dispatcher.threads thread).state = .waiting →
    ∃ object, object < dispatcher.objectCount ∧
      (dispatcher.threads thread).waitObject = some object ∧
      (cells (.object object)).count thread = 1
  running : ∀ head, IsHead dispatcher.objectCount head → dispatcher.current ∉ cells head

/-- The call reaches `KiWaitThread`. -/
def blocks (dispatcher : Dispatcher) : Call → Bool
  | .waitForSingleObject object poll => (dispatcher.objects object).signalState = 0 && !poll
  | .waitThread _ => true
  | _ => false

/-- A call that blocks finds `KiReadyListHead` not empty. -/
def BlocksWithOthers (dispatcher : Dispatcher) (call : Call) : Prop :=
  blocks dispatcher call = true → isListEmpty dispatcher.links .ready = false

instance (dispatcher : Dispatcher) (call : Call) : Decidable (BlocksWithOthers dispatcher call) :=
  inferInstanceAs (Decidable (_ → _))

/-- The running thread has not been put on a list. -/
def Alive (dispatcher : Dispatcher) : Prop :=
  (dispatcher.threads dispatcher.current).state = .running ∨
    (dispatcher.threads dispatcher.current).state = .terminated

theorem settled_boot : Settled bootDispatcher (fun _ => []) := by
  have states : ∀ thread, (bootDispatcher.threads thread).state =
      if thread = 0 then .running else .initialized := by
    intro thread
    by_cases same : thread = 0
    · subst thread
      rfl
    · simp only [bootDispatcher, Function.update_of_ne same, same, ↓reduceIte]
  refine ⟨⟨?_, ?_⟩, ?_, ?_, ?_⟩
  · intro head known
    cases head with
    | ready => exact ring_initializeListHead _ _
    | object object =>
      have impossible : object < 0 := known
      omega
    | _ => cases known
  · intro head known thread
    have state := states thread
    have nowhere : bootDispatcher.placeOf thread = none := by
      apply place_none
      · rw [state]
        split <;> simp
      · rw [state]
        split <;> simp
    rw [nowhere]
    simp
  · intro thread waiting
    rw [states] at waiting
    split at waiting <;> cases waiting
  · intro thread fresh
    have positive : 1 ≤ thread := fresh
    rw [states, if_neg (by omega)]
  · intro thread running
    rw [states] at running
    split at running
    · rename_i same
      exact same
    · cases running

variable {allowed : Dispatcher → Call → Prop}

theorem settled_run {dispatcher : Dispatcher}
    {history : List Event} (run : DispatcherRun allowed dispatcher history) :
    ∃ cells, Settled dispatcher cells ∧ CurrentOk dispatcher cells := by
  induction run with
  | boot => exact ⟨_, settled_boot, .inl rfl⟩
  | call run meets done ih =>
    obtain ⟨cells, settled, ok⟩ := ih
    exact (step_effect settled ok done).2

section Alive

variable {dispatcher after : Dispatcher} {cells : Node → List Nat} {call : Call}
  {events : List Event}

section Alive

variable (alive : Alive dispatcher)
include alive

theorem Alive.other {thread : Nat} {state : ThreadState}
    (known : (dispatcher.threads thread).state = state) (notRunning : state ≠ .running)
    (notTerminated : state ≠ .terminated) : dispatcher.current ≠ thread := by
  intro same
  rw [← same] at known
  rcases alive with running | terminated
  · exact notRunning (known.symm.trans running)
  · exact notTerminated (known.symm.trans terminated)

theorem Alive.woken {threads : List Nat}
    (waiting : ∀ thread ∈ threads, (dispatcher.threads thread).state = .waiting)
    (links : Links Node) (status : NtStatus) : Alive (dispatcher.woken links threads status) := by
  have outside : dispatcher.current ∉ threads := fun member =>
    alive.other (waiting _ member) (by simp) (by simp) rfl
  have same : (dispatcher.woken links threads status).threads dispatcher.current =
      dispatcher.threads dispatcher.current := if_neg outside
  show ((dispatcher.woken links threads status).threads dispatcher.current).state = .running ∨
    ((dispatcher.woken links threads status).threads dispatcher.current).state = .terminated
  rw [same]
  exact alive

theorem Alive.currentOk (cells : Node → List Nat) : CurrentOk dispatcher cells := by
  rcases alive with running | terminated
  · exact .inl running
  · exact .inr (.inl terminated)

theorem Alive.setObject (object : Nat) (contents : DispatcherObject) :
    Alive (dispatcher.setObject object contents) := alive

theorem departure_plain {leave : Departure}
    (leaves : departure dispatcher call = some leave) (plain : leave.point = .routine) :
    leave.thread.state = .running ∨ leave.thread.state = .terminated := by
  cases departs leaves with
  | dispatchNext => exact alive
  | exitThread => exact .inr rfl
  | waitForSingleObject | waitThread => cases plain

end Alive

theorem departure_blocks {leave : Departure} (leaves : departure dispatcher call = some leave)
    (blocking : leave.point ≠ .routine) : blocks dispatcher call = true := by
  cases departs leaves with
  | dispatchNext | exitThread => exact absurd rfl blocking
  | waitForSingleObject unsignaled => simp [blocks, unsignaled]
  | waitThread => rfl

section Settled

variable (settled : Settled dispatcher cells)
include settled

/-- Only a wait that finds no ready thread stops the processor. -/
theorem Effect.alive (alive : Alive dispatcher) (effect : Effect dispatcher call after events) :
    Alive after ∨ (blocks dispatcher call = true ∧
      ∀ thread, (dispatcher.threads thread).state ≠ .ready) := by
  cases effect with
  | create =>
    have different := alive.other (settled.created dispatcher.threadCount (Nat.le_refl _))
      (by simp) (by simp)
    left
    simp only [Alive, Function.update_of_ne different]
    exact alive
  | addObject new | reset isEvent | foreignRelease foreign | releaseMutex known isMutex own nobody
  | waitSignaled known signaled | waitPolled notSignaled => exact .inl alive
  | setEvent known isEvent waiting | releaseSemaphore known isSemaphore waiting none =>
    exact .inl ((alive.setObject _ _).woken (fun thread member => (waiting thread member).1) _ _)
  | handMutex known isMutex own waiting =>
    exact .inl ((alive.setObject _ _).woken (by simpa using waiting.1) _ _)
  | wakeThread waiting => exact .inl (alive.woken (by simpa using waiting) _ _)
  | switch leaves different ready =>
    left
    left
    simp [Dispatcher.switched]
  | idle leaves plain nobody =>
    left
    have state := departure_plain alive leaves plain
    simp only [Alive, Dispatcher.departed, Function.update_self]
    exact state
  | recover leaves blocking nobody => exact .inr ⟨departure_blocks leaves blocking, nobody⟩

theorem Effect.aliveWithOthers (alive : Alive dispatcher) (meets : BlocksWithOthers dispatcher call)
    (effect : Effect dispatcher call after events) : Alive after := by
  rcases effect.alive settled alive with done | ⟨blocking, nobody⟩
  · exact done
  have notEmpty := meets blocking
  have ring := settled.listed.ring .ready trivial
  have empty : cells .ready = [] := by
    rw [eq_nil_iff_forall_not_mem]
    intro thread member
    exact nobody thread ((settled.ready_iff thread).mp member)
  rw [empty] at ring
  rw [ring.isListEmpty_iff.mpr rfl] at notEmpty
  cases notEmpty

/-- Settled lists hold each thread where its state says. -/
theorem Settled.listsSound (alive : Alive dispatcher) : ListsSound dispatcher cells := by
  have once : ∀ head, IsHead dispatcher.objectCount head → (cells head).Nodup :=
    fun head known => List.Nodup.of_map _ (nodup_cons.mp (settled.listed.ring head known).once).2
  refine ⟨settled.listed.ring, ?_, ?_, ?_, ?_⟩
  · intro thread head other headKnown otherKnown inHead inOther
    have first := (settled.listed.member head headKnown thread).mp inHead
    have second := (settled.listed.member other otherKnown thread).mp inOther
    exact Option.some.inj (first.symm.trans second)
  · intro thread ready
    exact count_eq_one_of_mem (once .ready trivial) ((settled.ready_iff thread).mpr ready)
  · intro thread waiting
    obtain ⟨object, known, place⟩ := settled.waitKnown thread waiting
    exact ⟨object, known, place, count_eq_one_of_mem (once (.object object) known)
      ((settled.waits_iff known thread).mpr ⟨waiting, place⟩)⟩
  · intro head known member
    have place := (settled.listed.member head known dispatcher.current).mp member
    have nowhere : dispatcher.placeOf dispatcher.current = none := by
      apply place_none
      · rcases alive with running | terminated
        · simp [running]
        · simp [terminated]
      · rcases alive with running | terminated
        · simp [running]
        · simp [terminated]
    rw [nowhere] at place
    cases place

end Settled

end Alive

theorem alive_run
    (others : ∀ dispatcher call, allowed dispatcher call → BlocksWithOthers dispatcher call)
    {dispatcher : Dispatcher} {history : List Event}
    (run : DispatcherRun allowed dispatcher history) :
    ∃ cells, Settled dispatcher cells ∧ Alive dispatcher := by
  induction run with
  | boot => exact ⟨_, settled_boot, .inl rfl⟩
  | call run meets done ih =>
    obtain ⟨cells, settled, alive⟩ := ih
    obtain ⟨effect, cells', kept, _⟩ := step_effect settled (alive.currentOk cells) done
    exact ⟨cells', kept, effect.aliveWithOthers settled alive (others _ _ meets)⟩

/-- The scheduler's lists in every state of every run whose blocking calls find
another thread ready. -/
theorem schedulerLists_sound (dispatcher : Dispatcher) (history : List Event)
    (run : DispatcherRun BlocksWithOthers dispatcher history) :
    ∃ cells, ListsSound dispatcher cells := by
  obtain ⟨cells, settled, alive⟩ := alive_run (fun _ _ meets => meets) run
  exact ⟨cells, settled.listsSound alive⟩

/-- The calls one after the other, as long as each is allowed and returns. -/
def runCalls (allowed : Dispatcher → Call → Prop)
    [∀ dispatcher call, Decidable (allowed dispatcher call)] :
    Dispatcher → List Call → Option (Dispatcher × List Event)
  | dispatcher, [] => some (dispatcher, [])
  | dispatcher, call :: calls =>
      if allowed dispatcher call then
        match step dispatcher call with
        | none => none
        | some (after, events) =>
            (runCalls allowed after calls).map fun rest => (rest.1, events ++ rest.2)
      else none

theorem run_of_calls [∀ dispatcher call, Decidable (allowed dispatcher call)] (calls : List Call) :
    ∀ {dispatcher after : Dispatcher} {history events : List Event},
      DispatcherRun allowed dispatcher history →
      runCalls allowed dispatcher calls = some (after, events) →
      DispatcherRun allowed after (history ++ events) := by
  induction calls with
  | nil =>
    intro dispatcher after history events run done
    cases done
    simpa using run
  | cons call calls ih =>
    intro dispatcher after history events run done
    rw [runCalls] at done
    by_cases meets : allowed dispatcher call
    · rw [if_pos meets] at done
      cases result : step dispatcher call with
      | none =>
        rw [result] at done
        cases done
      | some next =>
        rw [result] at done
        cases rest : runCalls allowed next.1 calls with
        | none =>
          simp only [rest] at done
          cases done
        | some final =>
          simp only [rest, Option.map_some, Option.some.injEq, Prod.mk.injEq] at done
          obtain ⟨rfl, rfl⟩ := done
          have later := ih (DispatcherRun.call run meets result) rest
          simpa only [append_assoc] using later
    · rw [if_neg meets] at done
      cases done

/-- An evaluated list of calls is a run. -/
theorem exists_run (allowed : Dispatcher → Call → Prop)
    [∀ dispatcher call, Decidable (allowed dispatcher call)] {α : Type} (calls : List Call)
    (view : Dispatcher → List Event → α) (seen : α)
    (evaluated : (runCalls allowed bootDispatcher calls).map (fun last => view last.1 last.2) =
      some seen) :
    ∃ dispatcher history, DispatcherRun allowed dispatcher history ∧
      view dispatcher history = seen := by
  cases result : runCalls allowed bootDispatcher calls with
  | none =>
    rw [result] at evaluated
    cases evaluated
  | some last =>
    rw [result] at evaluated
    refine ⟨last.1, [] ++ last.2, run_of_calls calls DispatcherRun.boot result, ?_⟩
    simpa using evaluated

/-- The boot thread blocks on an event while a second thread is ready. -/
theorem bootThreadBlocks_sound : ∃ dispatcher history,
    DispatcherRun BlocksWithOthers dispatcher history ∧
      (dispatcher.threads 0).state = .waiting ∧ ∃ cells, ListsSound dispatcher cells := by
  obtain ⟨dispatcher, history, run, seen⟩ := exists_run BlocksWithOthers
    [.createThread, .initializeEvent true false, .waitForSingleObject 0 false]
    (fun dispatcher _ => (dispatcher.threads 0).state) .waiting (by decide +kernel)
  exact ⟨dispatcher, history, run, seen, schedulerLists_sound dispatcher history run⟩

/-- With no other thread ready, the boot thread comes back from its wait as the
running thread and on the ready queue. -/
theorem bootThreadAlone_unsound : ∃ dispatcher history,
    DispatcherRun (fun _ _ => True) dispatcher history ∧
      ¬ ∃ cells, ListsSound dispatcher cells := by
  obtain ⟨dispatcher, history, run, seen⟩ := exists_run (fun _ _ => True)
    [.initializeEvent true false, .waitForSingleObject 0 false]
    (fun dispatcher _ => ((dispatcher.threads 0).state, dispatcher.current)) (.ready, 0)
    (by decide +kernel)
  refine ⟨dispatcher, history, run, ?_⟩
  intro sound
  obtain ⟨cells, sound⟩ := sound
  obtain ⟨state, current⟩ := Prod.mk.inj seen
  have count := sound.ready 0 state
  have outside := sound.running .ready trivial
  rw [current] at outside
  rw [count_eq_zero_of_not_mem outside] at count
  cases count

end MinNT.Ke
