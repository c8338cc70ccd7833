import MinNT.Ke.DispatcherLists

namespace MinNT.Ke

open List Function Dispatcher ListEntry

def Dispatcher.placeOf (dispatcher : Dispatcher) (thread : Nat) : Option Node :=
  (dispatcher.threads thread).place

/-- What holds between any two instructions of the dispatcher that are made under
its lock: the lists agree with the states of the threads. -/
structure Settled (dispatcher : Dispatcher) (cells : Node → List Nat) : Prop where
  listed : Listed dispatcher.links dispatcher.objectCount dispatcher.placeOf cells
  waitKnown : ∀ thread, (dispatcher.threads thread).state = .waiting →
    ∃ object, object < dispatcher.objectCount ∧
      (dispatcher.threads thread).waitObject = some object
  created : ∀ thread, dispatcher.threadCount ≤ thread →
    (dispatcher.threads thread).state = .initialized
  running : ∀ thread, (dispatcher.threads thread).state = .running → thread = dispatcher.current

/-- The running thread between two calls. In the last case it also heads the
ready queue, and the next switch would be to itself. -/
def CurrentOk (dispatcher : Dispatcher) (cells : Node → List Nat) : Prop :=
  (dispatcher.threads dispatcher.current).state = .running ∨
    (dispatcher.threads dispatcher.current).state = .terminated ∨
    ((dispatcher.threads dispatcher.current).state = .ready ∧
      (cells .ready).head? = some dispatcher.current)

theorem place_ready (thread : KThread) : thread.place = some .ready ↔ thread.state = .ready := by
  cases shape : thread.state <;> simp [KThread.place, shape]

theorem place_object (thread : KThread) (object : Nat) :
    thread.place = some (.object object) ↔
      thread.state = .waiting ∧ thread.waitObject = some object := by
  cases shape : thread.state <;> simp [KThread.place, shape]

theorem place_none {thread : KThread} (ready : thread.state ≠ .ready)
    (waiting : thread.state ≠ .waiting) : thread.place = none := by
  cases shape : thread.state <;> simp [KThread.place, shape] at *

theorem placeOf_update (dispatcher : Dispatcher) (thread : Nat) (contents : KThread) :
    (fun other => (update dispatcher.threads thread contents other).place) =
      update dispatcher.placeOf thread contents.place := by
  funext other
  by_cases same : other = thread
  · subst other
    simp only [update_self]
  · simp only [update_of_ne same, placeOf]

/-- The state after `KiWakeThread` of some threads. -/
def Dispatcher.woken (dispatcher : Dispatcher) (links : Links Node) (threads : List Nat)
    (status : NtStatus) : Dispatcher :=
  { dispatcher with
    links := links
    threads := fun thread =>
      if thread ∈ threads then ⟨.ready, status, none⟩ else dispatcher.threads thread }

/-- The lists after the first `count` threads of a wait list have been woken. -/
def wokenCells (cells : Node → List Nat) (object count : Nat) : Node → List Nat :=
  update (update cells (.object object) ((cells (.object object)).drop count))
    .ready (cells .ready ++ (cells (.object object)).take count)

section Waking

variable {dispatcher : Dispatcher} {cells : Node → List Nat} {object : Nat}

theorem woken_singleton (dispatcher : Dispatcher) (links : Links Node) (thread : Nat)
    (status : NtStatus) :
    dispatcher.woken links [thread] status =
      { dispatcher with
        links := links
        threads := update dispatcher.threads thread ⟨.ready, status, none⟩ } := by
  have same : update dispatcher.threads thread ⟨.ready, status, none⟩ =
      fun other => if other ∈ [thread] then ⟨.ready, status, none⟩
        else dispatcher.threads other := by
    funext other
    simp only [update_apply, mem_singleton]
  rw [same]
  rfl

variable {thread : Nat}

section Settled

variable (settled : Settled dispatcher cells)
include settled

theorem Settled.waiting_of_mem (known : object < dispatcher.objectCount)
    (member : thread ∈ cells (.object object)) :
    (dispatcher.threads thread).state = .waiting ∧
      (dispatcher.threads thread).waitObject = some object :=
  (place_object _ _).mp ((settled.listed.member (.object object) known thread).mp member)

theorem Settled.ready_iff (thread : Nat) :
    thread ∈ cells .ready ↔ (dispatcher.threads thread).state = .ready :=
  (settled.listed.member .ready trivial thread).trans (place_ready _)

section Known

variable (known : object < dispatcher.objectCount)
include known

/-- A waiter moves to the end of the ready list. -/
theorem Settled.makeReady {front back : List Nat}
    (shape : cells (.object object) = front ++ thread :: back) {contents : KThread}
    (ready : contents.state = .ready) :
    Settled
      { dispatcher with
        links := insertTailList (clearEntry (removeEntryList dispatcher.links (.thread thread))
          (.thread thread)) .ready (.thread thread)
        threads := update dispatcher.threads thread contents }
      (update (update cells (.object object) (front ++ back)) .ready
        (cells .ready ++ [thread])) := by
  have member : thread ∈ cells (.object object) := by
    rw [shape]
    simp
  have waits := settled.waiting_of_mem known member
  have isReady : IsHead dispatcher.objectCount .ready := trivial
  have isObject : IsHead dispatcher.objectCount (.object object) := known
  have moved := settled.listed.move isObject isReady (by simp) shape
  rw [← (place_ready contents).mpr ready, ← placeOf_update] at moved
  refine ⟨moved, ?_, ?_, ?_⟩
  · intro other waiting
    by_cases same : other = thread
    · simp [same, ready] at waiting
    · simp only [update_of_ne same] at waiting ⊢
      exact settled.waitKnown other waiting
  · intro other fresh
    by_cases same : other = thread
    · subst other
      have initialized := settled.created thread fresh
      rw [waits.1] at initialized
      cases initialized
    · simp only [update_of_ne same]
      exact settled.created other fresh
  · intro other running
    by_cases same : other = thread
    · simp [same, ready] at running
    · simp only [update_of_ne same] at running ⊢
      exact settled.running other running

theorem Settled.wakeThread {front back : List Nat}
    (shape : cells (.object object) = front ++ thread :: back) (status : NtStatus) :
    ∃ links, kiWakeThread (dispatcher.withLinks
          (removeEntryList dispatcher.links (.thread thread))) thread status =
        dispatcher.woken links [thread] status ∧
      Settled (dispatcher.woken links [thread] status)
        (update (update cells (.object object) (front ++ back)) .ready
          (cells .ready ++ [thread])) := by
  refine ⟨_, (woken_singleton dispatcher _ thread status).symm, ?_⟩
  rw [woken_singleton]
  exact settled.makeReady known shape rfl

theorem kiWakeFirstWaiter_empty (empty : cells (.object object) = [])
    (status : NtStatus) : kiWakeFirstWaiter dispatcher object status = some (none, dispatcher) := by
  have ring := settled.listed.ring (.object object) known
  rw [empty] at ring
  rw [kiWakeFirstWaiter, if_pos (ring.isListEmpty_iff.mpr rfl)]

theorem kiWakeFirstWaiter_cons {rest : List Nat}
    (shape : cells (.object object) = thread :: rest) (status : NtStatus) :
    ∃ links, kiWakeFirstWaiter dispatcher object status =
        some (some thread, dispatcher.woken links [thread] status) ∧
      Settled (dispatcher.woken links [thread] status) (wokenCells cells object 1) := by
  have ring := settled.listed.ring (.object object) known
  rw [shape, map_cons] at ring
  have notEmpty : ¬ isListEmpty dispatcher.links (.object object) = true := by
    rw [ring.isListEmpty_iff]
    simp
  have first := ring.flink_head
  have parts : cells (.object object) = [] ++ thread :: rest := shape
  obtain ⟨links, result, kept⟩ := settled.wakeThread known parts status
  refine ⟨links, ?_, ?_⟩
  · rw [kiWakeFirstWaiter, if_neg notEmpty]
    simp only [removeHeadList, first, containingThread]
    rw [result]
  · simpa [wokenCells, shape] using kept

end Known

end Settled

theorem woken_woken (dispatcher : Dispatcher) (links after : Links Node) (thread : Nat)
    (threads : List Nat) (status : NtStatus) :
    (dispatcher.woken links [thread] status).woken after threads status =
      dispatcher.woken after (thread :: threads) status := by
  have same : (fun other => if other ∈ threads then (⟨.ready, status, none⟩ : KThread)
      else if other ∈ [thread] then ⟨.ready, status, none⟩ else dispatcher.threads other) =
      fun other => if other ∈ thread :: threads then ⟨.ready, status, none⟩
        else dispatcher.threads other := by
    funext other
    by_cases inside : other ∈ threads
    · simp [inside]
    · simp [inside]
  simp only [woken]
  rw [same]

theorem wokenCells_succ {rest : List Nat}
    (shape : cells (.object object) = thread :: rest) (count : Nat) :
    wokenCells (wokenCells cells object 1) object count = wokenCells cells object (count + 1) := by
  funext node
  by_cases isReady : node = .ready
  · subst node
    simp [wokenCells, shape]
  · by_cases isObject : node = .object object
    · subst node
      simp [wokenCells, shape]
    · simp [wokenCells, isReady, isObject]

theorem wokenCells_nil (empty : cells (.object object) = []) (count : Nat) :
    wokenCells cells object count = cells := by
  funext node
  by_cases isReady : node = .ready
  · subst node
    simp [wokenCells, empty]
  · by_cases isObject : node = .object object
    · subst node
      simp [wokenCells, empty]
    · simp [wokenCells, isReady, isObject]

/-- The first waiters of an object become ready, in order. -/
theorem wakeWaiters_spec (count : Nat) : ∀ (dispatcher : Dispatcher) (cells : Node → List Nat),
    Settled dispatcher cells → object < dispatcher.objectCount →
    ∃ links, wakeWaiters object count dispatcher =
        some ((cells (.object object)).take count,
          dispatcher.woken links ((cells (.object object)).take count) statusWait0) ∧
      Settled (dispatcher.woken links ((cells (.object object)).take count) statusWait0)
        (wokenCells cells object count) := by
  induction count with
  | zero =>
    intro dispatcher cells settled known
    refine ⟨dispatcher.links, ?_, ?_⟩
    · simp [wakeWaiters, woken]
    · have same : wokenCells cells object 0 = cells := by
        funext node
        simp [wokenCells]
      rw [same]
      simpa [woken] using settled
  | succ count ih =>
    intro dispatcher cells settled known
    cases shape : cells (.object object) with
    | nil =>
      refine ⟨dispatcher.links, ?_, ?_⟩
      · rw [wakeWaiters, kiWakeFirstWaiter_empty settled known shape]
        simp [woken]
      · rw [wokenCells_nil shape]
        simpa [woken] using settled
    | cons thread rest =>
      obtain ⟨links, first, kept⟩ := kiWakeFirstWaiter_cons settled known shape statusWait0
      obtain ⟨after, result, done⟩ := ih _ _ kept known
      have left : wokenCells cells object 1 (.object object) = rest := by
        simp [wokenCells, shape]
      rw [left] at result done
      rw [woken_woken] at result done
      refine ⟨after, ?_, ?_⟩
      · rw [wakeWaiters, first]
        simp only [result, Option.map_some, take_succ_cons]
      · rw [← wokenCells_succ shape]
        simpa using done

theorem kiWakeAllWaiters_eq (fuel : Nat) : ∀ (dispatcher : Dispatcher) (cells : Node → List Nat),
    Settled dispatcher cells → object < dispatcher.objectCount →
    (cells (.object object)).length < fuel →
    kiWakeAllWaiters object statusWait0 fuel dispatcher = wakeWaiters object fuel dispatcher := by
  induction fuel with
  | zero =>
    intro dispatcher cells _ _ enough
    omega
  | succ fuel ih =>
    intro dispatcher cells settled known enough
    cases shape : cells (.object object) with
    | nil =>
      rw [kiWakeAllWaiters, wakeWaiters, kiWakeFirstWaiter_empty settled known shape]
    | cons thread rest =>
      obtain ⟨links, first, kept⟩ := kiWakeFirstWaiter_cons settled known shape statusWait0
      have fewer : (wokenCells cells object 1 (.object object)).length < fuel := by
        simp only [wokenCells, shape] at enough ⊢
        simp only [ne_eq, reduceCtorEq, not_false_eq_true, update_of_ne,
          update_self, drop_succ_cons, drop_zero, length_cons] at *
        omega
      rw [kiWakeAllWaiters, wakeWaiters, first]
      simp only [ih _ _ kept known fewer]

end Waking

end MinNT.Ke
