import MinNT.Ke.WaitReturns

namespace MinNT.Ke

open List Function

variable {dispatcher after : Dispatcher} {cells : Node → List Nat} {semaphore : Nat}
  {call : Call} {events : List Event}

/-- The object that a call is for. -/
def Call.target : Call → Option Nat
  | .setEvent object | .resetEvent object | .releaseSemaphore object _ | .releaseMutex object
  | .waitForSingleObject object _ | .waitThread object => some object
  | _ => none

/-- A semaphore without units. Whoever will come back from a wait for it is still
blocked on it. -/
structure IdleSemaphore (dispatcher : Dispatcher) (semaphore : Nat) : Prop where
  known : semaphore < dispatcher.objectCount
  isSemaphore : (dispatcher.objects semaphore).type = .semaphoreObject
  count : (dispatcher.objects semaphore).currentCount = 0
  unsignaled : (dispatcher.objects semaphore).signalState = 0
  parked : ∀ thread, dispatcher.resume thread = .waitForSingleObject semaphore →
    Waits dispatcher thread semaphore

/-- No wait for the semaphore returns. -/
def NoReturn (semaphore : Nat) (events : List Event) : Prop :=
  ∀ thread status, .waitReturned thread semaphore status ∉ events

/-- Calls of the interface that do no more with the semaphore than to wait for it
when another thread is ready. -/
structure OnlyWaits (semaphore : Nat) (dispatcher : Dispatcher) (call : Call) : Prop where
  api : call.isApi = true
  waits : call.target = some semaphore → call = .waitForSingleObject semaphore false ∧
    ∃ thread, (dispatcher.threads thread).state = .ready

section Idle

variable (idle : IdleSemaphore dispatcher semaphore)
include idle

theorem IdleSemaphore.setObject {object : Nat}
    (other : semaphore ≠ object) (contents : DispatcherObject) :
    IdleSemaphore (dispatcher.setObject object contents) semaphore := by
  have same : (dispatcher.setObject object contents).objects semaphore =
      dispatcher.objects semaphore := update_of_ne other ..
  refine ⟨idle.known, ?_, ?_, ?_, idle.parked⟩
  · rw [same]
    exact idle.isSemaphore
  · rw [same]
    exact idle.count
  · rw [same]
    exact idle.unsignaled

theorem IdleSemaphore.withLinks
    (links : ListEntry.Links Node) : IdleSemaphore (dispatcher.withLinks links) semaphore :=
  ⟨idle.known, idle.isSemaphore, idle.count, idle.unsignaled, idle.parked⟩

theorem IdleSemaphore.woken {object : Nat} (other : semaphore ≠ object) {threads : List Nat}
    (waiting : ∀ thread ∈ threads, Waits dispatcher thread object) (links : ListEntry.Links Node)
    (status : NtStatus) : IdleSemaphore (dispatcher.woken links threads status) semaphore := by
  refine ⟨idle.known, idle.isSemaphore, idle.count, idle.unsignaled, fun thread resumes => ?_⟩
  have waits := idle.parked thread resumes
  have outside : thread ∉ threads := by
    intro member
    have place := (waiting thread member).2
    rw [waits.2] at place
    exact other (Option.some.inj place)
  show _ ∧ _
  simp only [Dispatcher.woken, outside, ↓reduceIte]
  exact waits

theorem IdleSemaphore.departed (ok : CurrentOk dispatcher cells) (links : ListEntry.Links Node)
    (thread : KThread) : IdleSemaphore (dispatcher.departed links thread) semaphore := by
  refine ⟨idle.known, idle.isSemaphore, idle.count, idle.unsignaled, fun other resumes => ?_⟩
  have waits := idle.parked other resumes
  have away : other ≠ dispatcher.current := by
    intro same
    exact ok.notWaiting (same ▸ waits.1)
  simpa only [Waits, Dispatcher.departed, update_of_ne away] using waits

end Idle

theorem noReturn_woken (object : Nat) (threads : List Nat) :
    NoReturn semaphore (threads.map (.woken object)) := by
  intro thread status member
  obtain ⟨_, _, same⟩ := List.mem_map.mp member
  cases same

theorem noReturn_initial (object : Nat) (call : Call) :
    NoReturn semaphore (initialEvents object call) := by
  intro thread status member
  cases call <;> simp [initialEvents] at member

theorem IdleSemaphore.returns (idle : IdleSemaphore dispatcher semaphore) {thread : Nat}
    (notWaiting : (dispatcher.threads thread).state ≠ .waiting) (status : NtStatus) :
    NoReturn semaphore (returnEvents thread status (dispatcher.resume thread)) := by
  intro other code member
  cases point : dispatcher.resume thread with
  | routine | waitThread =>
    rw [point] at member
    cases member
  | waitForSingleObject object =>
    rw [point] at member
    cases mem_singleton.mp member
    exact notWaiting (idle.parked thread point).1

theorem NoReturn.append {first second : List Event} (left : NoReturn semaphore first)
    (right : NoReturn semaphore second) : NoReturn semaphore (first ++ second) := by
  intro thread status member
  exact (mem_append.mp member).elim (left thread status) (right thread status)

theorem departure_semaphore {leave : Departure} (api : call.isApi = true)
    (leaves : departure dispatcher call = some leave) :
    NoReturn semaphore leave.events ∧
      (leave.point = .waitForSingleObject semaphore → call.target = some semaphore ∧
        leave.thread.state = .waiting ∧ leave.thread.waitObject = some semaphore) := by
  cases departs leaves with
  | dispatchNext | exitThread => exact ⟨fun _ _ => not_mem_nil, fun point => by cases point⟩
  | waitForSingleObject =>
    refine ⟨(fun _ _ member => by cases mem_singleton.mp member), fun point => ?_⟩
    cases point
    exact ⟨rfl, rfl, rfl⟩
  | waitThread => cases api

theorem IdleSemaphore.switch (idle : IdleSemaphore dispatcher semaphore) {leave : Departure}
    (api : call.isApi = true) (leaves : departure dispatcher call = some leave) {new : Nat}
    (different : new ≠ dispatcher.current) (ready : (dispatcher.threads new).state = .ready)
    (between links : ListEntry.Links Node) :
    IdleSemaphore ((dispatcher.departed between leave.thread).switched links new leave.point)
      semaphore := by
  refine ⟨idle.known, idle.isSemaphore, idle.count, idle.unsignaled, fun thread resumes => ?_⟩
  simp only [Dispatcher.switched, Dispatcher.departed] at resumes
  by_cases isCurrent : thread = dispatcher.current
  · subst isCurrent
    rw [update_self] at resumes
    obtain ⟨_, state, place⟩ := (departure_semaphore api leaves).2 resumes
    have same : requeue leave.thread = leave.thread := by simp [requeue, state]
    simp [Waits, Dispatcher.switched, Dispatcher.departed, Ne.symm different, same, state, place]
  · rw [update_of_ne isCurrent] at resumes
    have waits := idle.parked thread resumes
    have notNew : thread ≠ new := by
      intro same
      rw [← same, waits.1] at ready
      cases ready
    simpa only [Waits, Dispatcher.switched, Dispatcher.departed, update_of_ne notNew,
      update_of_ne isCurrent] using waits

/-- Nothing but a release ends the waits for a semaphore, as long as another thread
is ready whenever a thread starts one. -/
theorem IdleSemaphore.step (idle : IdleSemaphore dispatcher semaphore)
    (settled : Settled dispatcher cells) (ok : CurrentOk dispatcher cells)
    (only : OnlyWaits semaphore dispatcher call) (effect : Effect dispatcher call after events) :
    IdleSemaphore after semaphore ∧ NoReturn semaphore events := by
  have others : ∀ {object : Nat}, call.target = some object →
      call ≠ .waitForSingleObject semaphore false → semaphore ≠ object := by
    intro object target notWait same
    exact notWait (only.waits (same ▸ target)).1
  cases effect with
  | create =>
    refine ⟨⟨idle.known, idle.isSemaphore, idle.count, idle.unsignaled, fun thread resumes => ?_⟩,
      fun _ _ => not_mem_nil⟩
    by_cases same : thread = dispatcher.threadCount
    · simp [same] at resumes
    · simp only [update_of_ne same] at resumes
      simpa only [Waits, update_of_ne same] using idle.parked thread resumes
  | addObject new =>
    have old := Nat.ne_of_lt idle.known
    refine ⟨⟨Nat.lt_succ_of_lt idle.known, ?_, ?_, ?_, idle.parked⟩, noReturn_initial _ _⟩
    · simpa only [update_of_ne old] using idle.isSemaphore
    · simpa only [update_of_ne old] using idle.count
    · simpa only [update_of_ne old] using idle.unsignaled
  | reset isEvent =>
    exact ⟨idle.setObject (others rfl (by simp)) _, fun _ _ => not_mem_nil⟩
  | setEvent known isEvent waiting =>
    have different := others rfl (by simp)
    exact ⟨(idle.setObject different _).woken different waiting _ _, noReturn_woken _ _⟩
  | releaseSemaphore known isSemaphore waiting none =>
    have different := others rfl (by simp)
    refine ⟨(idle.setObject different _).woken different waiting _ _,
      fun thread status member => ?_⟩
    rcases mem_cons.mp member with first | rest
    · cases first
    · exact noReturn_woken _ _ thread status rest
  | foreignRelease foreign => exact ⟨idle, fun _ _ => not_mem_nil⟩
  | releaseMutex known isMutex own nobody =>
    refine ⟨(idle.setObject (others rfl (by simp)) _).withLinks _, fun thread status member => ?_⟩
    simp at member
  | handMutex known isMutex own waiting =>
    have different := others rfl (by simp)
    refine ⟨(idle.setObject different _).woken different (fun other member => ?_) _ _,
      fun thread status member => ?_⟩
    · rw [mem_singleton.mp member]
      exact waiting
    · simp at member
  | @waitSignaled object poll known signaled =>
    have different : semaphore ≠ object := by
      intro same
      exact signaled (same ▸ idle.unsignaled)
    refine ⟨idle.setObject different _, fun thread status member => ?_⟩
    simp [different] at member
  | @waitPolled object notSignaled =>
    refine ⟨idle, fun thread status member => ?_⟩
    have different := others rfl (by simp)
    simp [different] at member
  | wakeThread waiting => cases only.api
  | switch leaves different ready =>
    refine ⟨idle.switch only.api leaves different ready _ _,
      (departure_semaphore only.api leaves).1.append (idle.returns ?_ _)⟩
    rw [ready]
    simp
  | idle leaves plain nobody => exact ⟨idle.departed ok _ _, fun _ _ => not_mem_nil⟩
  | @recover call leave links leaves blocking nobody =>
    refine ⟨idle.departed ok _ _, (departure_semaphore only.api leaves).1.append ?_⟩
    intro thread status member
    cases point : leave.point with
    | routine => exact blocking point
    | waitThread =>
      rw [point] at member
      cases member
    | waitForSingleObject object =>
      rw [point] at member
      cases mem_singleton.mp member
      obtain ⟨target, _⟩ := (departure_semaphore only.api leaves).2 point
      obtain ⟨_, other, ready⟩ := only.waits target
      exact nobody other ready

/-- The object of a wait that a thread will come back from has been initialised. -/
def ResumesKnown (dispatcher : Dispatcher) : Prop :=
  ∀ thread object, dispatcher.resume thread = .waitForSingleObject object →
    object < dispatcher.objectCount

theorem departure_known {leave : Departure} (accepted : dispatcher.accepts call = true)
    (leaves : departure dispatcher call = some leave) {object : Nat}
    (point : leave.point = .waitForSingleObject object) : object < dispatcher.objectCount := by
  cases departs leaves with
  | dispatchNext | exitThread | waitThread => cases point
  | waitForSingleObject =>
    cases point
    simp only [Dispatcher.accepts, Bool.and_eq_true, decide_eq_true_eq] at accepted
    exact accepted.2

theorem accepts_of_step {answer : Dispatcher × List Event}
    (done : step dispatcher call = some answer) : dispatcher.accepts call = true := by
  by_contra refused
  rw [step, if_neg refused] at done
  cases done

/-- Threads resume in waits on known objects. -/
theorem ResumesKnown.step (resumes : ResumesKnown dispatcher)
    (accepted : dispatcher.accepts call = true) (effect : Effect dispatcher call after events) :
    ResumesKnown after := by
  cases effect with
  | create =>
    intro thread object point
    by_cases same : thread = dispatcher.threadCount
    · simp [same] at point
    · simp only [update_of_ne same] at point
      exact resumes thread object point
  | addObject new =>
    intro thread object point
    exact Nat.lt_succ_of_lt (resumes thread object point)
  | @switch call leave links between new leaves different ready =>
    intro thread object point
    simp only [Dispatcher.switched, Dispatcher.departed] at point
    by_cases isCurrent : thread = dispatcher.current
    · rw [isCurrent, update_self] at point
      exact departure_known accepted leaves point
    · rw [update_of_ne isCurrent] at point
      exact resumes thread object point
  | reset | setEvent | releaseSemaphore | foreignRelease | releaseMutex | handMutex | waitSignaled
  | waitPolled | wakeThread | idle | recover => exact resumes

theorem resumesKnown_run {allowed : Dispatcher → Call → Prop} {history : List Event}
    (run : DispatcherRun allowed dispatcher history) : ResumesKnown dispatcher := by
  induction run with
  | boot =>
    intro thread object point
    cases point
  | call run meets done ih =>
    obtain ⟨cells, settled, ok⟩ := settled_run run
    exact ih.step (accepts_of_step done) (step_effect settled ok done).1

theorem idle_initialize (resumes : ResumesKnown dispatcher) (limit : Int) :
    IdleSemaphore (keInitializeSemaphore dispatcher 0 limit) dispatcher.objectCount := by
  have new : (keInitializeSemaphore dispatcher 0 limit).objects dispatcher.objectCount =
      ⟨.semaphoreObject, 0, limit, 0, none⟩ := update_self ..
  refine ⟨Nat.lt_succ_self _, ?_, ?_, ?_, fun thread point => ?_⟩
  · rw [new]
  · rw [new]
  · rw [new]
  · exact absurd (resumes thread _ point) (Nat.lt_irrefl _)

theorem ResumesKnown.initializeSemaphore (resumes : ResumesKnown dispatcher) (count limit : Int) :
    ResumesKnown (keInitializeSemaphore dispatcher count limit) :=
  fun thread object point => Nat.lt_succ_of_lt (resumes thread object point)

theorem IdleSemaphore.initializeSemaphore (idle : IdleSemaphore dispatcher semaphore)
    (count limit : Int) :
    IdleSemaphore (keInitializeSemaphore dispatcher count limit) semaphore := by
  have kept := idle.setObject (Nat.ne_of_lt idle.known)
    ⟨.semaphoreObject, if count > 0 then 1 else 0, limit, count, none⟩
  exact ⟨Nat.lt_succ_of_lt kept.known, kept.isSemaphore, kept.count, kept.unsignaled, kept.parked⟩

theorem settled_initializeSemaphore (settled : Settled dispatcher cells)
    (ok : CurrentOk dispatcher cells) (count limit : Int32) :
    ∃ cells', Settled (keInitializeSemaphore dispatcher count.toInt limit.toInt) cells' ∧
      CurrentOk (keInitializeSemaphore dispatcher count.toInt limit.toInt) cells' := by
  obtain ⟨_, _, cells', kept, current, _⟩ := initialize_effect settled ok
    (rfl : newObject (.initializeSemaphore count limit) = some _)
  exact ⟨cells', kept, current⟩

end MinNT.Ke
