import MinNT.Ke.DispatcherInvariant

namespace MinNT.Ke

open Function Dispatcher ListEntry

/-- The thread that leaves the processor goes back to the ready queue if it has
not given up its `Running` state. -/
def requeue (thread : KThread) : KThread :=
  if thread.state = .running then { thread with state := .ready } else thread

/-- The state after a switch from the current thread to another one. -/
def Dispatcher.switched (dispatcher : Dispatcher) (links : Links Node) (new : Nat)
    (point : Resume) : Dispatcher :=
  { dispatcher with
    links := links
    threads := update
      (update dispatcher.threads dispatcher.current
        (requeue (dispatcher.threads dispatcher.current))) new
      { dispatcher.threads new with state := .running }
    current := new
    resume := update dispatcher.resume dispatcher.current point }

/-- The wait that returns when a thread goes on. -/
def returnEvents (thread : Nat) (status : NtStatus) : Resume → List Event
  | .waitForSingleObject object => [.waitReturned thread object status]
  | _ => []

/-- The ready queue behind its first thread, with the thread that left. -/
def switchedCells (dispatcher : Dispatcher) (cells : Node → List Nat) (rest : List Nat) :
    Node → List Nat :=
  update cells .ready
    (if (dispatcher.threads dispatcher.current).state = .running then
      rest ++ [dispatcher.current] else rest)

theorem continueAt_running {dispatcher : Dispatcher} {thread : Nat}
    (running : (dispatcher.threads thread).state ≠ .waiting) (point : Resume) :
    continueAt dispatcher thread point =
      (dispatcher, returnEvents thread (dispatcher.threads thread).waitStatus point) := by
  cases point with
  | routine => rfl
  | waitThread => simp only [continueAt, afterWait, running, ↓reduceIte, returnEvents]
  | waitForSingleObject object =>
    simp only [continueAt, afterWait, running, ↓reduceIte, returnEvents]

section Switch

variable {dispatcher : Dispatcher} {cells : Node → List Nat}

theorem kiDispatchNextThread_idle (settled : Settled dispatcher cells) (empty : cells .ready = [])
    (point : Resume) :
    kiDispatchNextThread dispatcher point =
      some (continueAt dispatcher dispatcher.current point) := by
  have ring := settled.listed.ring .ready trivial
  rw [empty] at ring
  rw [kiDispatchNextThread, if_pos (ring.isListEmpty_iff.mpr rfl)]

theorem kiDispatchNextThread_self (head : dispatcher.links.flink .ready =
    .thread dispatcher.current) (point : Resume) :
    kiDispatchNextThread dispatcher point = none := by
  have notEmpty : ¬ isListEmpty dispatcher.links .ready = true := by
    simp [isListEmpty, head]
  rw [kiDispatchNextThread, if_neg notEmpty]
  simp only [removeHeadList, head, containingThread, ↓reduceIte]

theorem switchTo_eq (links : Links Node) (resume : Nat → Resume) {new : Nat}
    (different : new ≠ dispatcher.current) :
    ∃ after, switchTo { dispatcher.withLinks links with resume := resume } new =
      { dispatcher with
        links := after
        threads := update
          (update dispatcher.threads dispatcher.current
            (requeue (dispatcher.threads dispatcher.current))) new
          { dispatcher.threads new with state := .running }
        current := new
        resume := resume } ∧
      after = if (dispatcher.threads dispatcher.current).state = .running then
        insertTailList links .ready (.thread dispatcher.current) else links := by
  refine ⟨_, ?_, rfl⟩
  have other : dispatcher.current ≠ new := Ne.symm different
  by_cases running : (dispatcher.threads dispatcher.current).state = .running
  · simp only [switchTo, setState, Dispatcher.setThread, Dispatcher.withLinks,
      update_of_ne other, running, ↓reduceIte, kiReadyThread, requeue]
    rw [update_comm different]
  · simp only [switchTo, setState, Dispatcher.setThread, Dispatcher.withLinks,
      update_of_ne other, running, ↓reduceIte, requeue, update_eq_self]

theorem place_requeue (thread : KThread) :
    (requeue thread).place = if thread.state = .running then some .ready else thread.place := by
  by_cases running : thread.state = .running
  · simp only [requeue, running, ↓reduceIte, KThread.place]
  · simp only [requeue, running, ↓reduceIte]

/-- The dispatcher switches to the first ready thread. -/
theorem kiDispatchNextThread_switch (settled : Settled dispatcher cells) {new : Nat}
    {rest : List Nat} (shape : cells .ready = new :: rest) (different : new ≠ dispatcher.current)
    (point : Resume) :
    ∃ links, kiDispatchNextThread dispatcher point = some (dispatcher.switched links new point,
        returnEvents new (dispatcher.threads new).waitStatus (dispatcher.resume new)) ∧
      Settled (dispatcher.switched links new point) (switchedCells dispatcher cells rest) := by
  have isReady : IsHead dispatcher.objectCount .ready := trivial
  have ring := settled.listed.ring .ready isReady
  rw [shape, List.map_cons] at ring
  have notEmpty : ¬ isListEmpty dispatcher.links .ready = true := by
    rw [ring.isListEmpty_iff]
    simp
  have first := ring.flink_head
  have other : dispatcher.current ≠ new := Ne.symm different
  obtain ⟨after, switch, afterLinks⟩ := switchTo_eq (removeEntryList dispatcher.links (.thread new))
    (update dispatcher.resume dispatcher.current point) different
  have result : kiDispatchNextThread dispatcher point =
      some (dispatcher.switched after new point,
        returnEvents new (dispatcher.threads new).waitStatus (dispatcher.resume new)) := by
    rw [kiDispatchNextThread, if_neg notEmpty]
    simp only [removeHeadList, first, containingThread, different, ↓reduceIte]
    rw [switch, continueAt_running]
    · simp only [switched, update_self]
    · simp only [update_self]
      simp
  refine ⟨after, result, ?_⟩
  have parts : cells .ready = [] ++ new :: rest := shape
  have removed := settled.listed.remove isReady parts
  have newReady := (settled.ready_iff new).mp (by rw [shape]; exact List.mem_cons_self)
  have place : (dispatcher.switched after new point).placeOf =
      update (update dispatcher.placeOf new none) dispatcher.current
        (if (dispatcher.threads dispatcher.current).state = .running then some .ready
          else dispatcher.placeOf dispatcher.current) := by
    funext thread
    by_cases isNew : thread = new
    · subst thread
      simp [placeOf, switched, different, KThread.place]
    · by_cases isCurrent : thread = dispatcher.current
      · subst thread
        simp only [placeOf, switched, update_of_ne other, update_self]
        exact place_requeue _
      · simp [placeOf, switched, isNew, isCurrent]
  refine ⟨?_, ?_, ?_, ?_⟩
  · rw [place]
    show Listed after dispatcher.objectCount _ _
    rw [afterLinks]
    by_cases running : (dispatcher.threads dispatcher.current).state = .running
    · have idle : update dispatcher.placeOf new none dispatcher.current = none := by
        rw [update_of_ne other]
        exact place_none (by rw [running]; simp) (by rw [running]; simp)
      have inserted := removed.insert isReady idle
      simp only [running, ↓reduceIte, switchedCells]
      simpa using inserted
    · simp only [running, ↓reduceIte, switchedCells]
      have same : update (update dispatcher.placeOf new none) dispatcher.current
          (dispatcher.placeOf dispatcher.current) =
            update dispatcher.placeOf new none := by
        funext thread
        by_cases isCurrent : thread = dispatcher.current
        · subst thread
          rw [update_self, update_of_ne other]
        · rw [update_of_ne isCurrent]
      rw [same]
      simpa using removed
  · intro thread waiting
    by_cases isNew : thread = new
    · subst thread
      simp [switched] at waiting
    by_cases isCurrent : thread = dispatcher.current
    · subst thread
      simp only [switched, update_of_ne other, update_self] at waiting ⊢
      by_cases running : (dispatcher.threads dispatcher.current).state = .running
      · simp [requeue, running] at waiting
      · simp only [requeue, running, ↓reduceIte] at waiting ⊢
        exact settled.waitKnown _ waiting
    · simp only [switched, update_of_ne isNew, update_of_ne isCurrent] at waiting ⊢
      exact settled.waitKnown _ waiting
  · intro thread fresh
    have initialized := settled.created thread fresh
    by_cases isNew : thread = new
    · subst thread
      rw [newReady] at initialized
      cases initialized
    · by_cases isCurrent : thread = dispatcher.current
      · subst thread
        simp [switched, other, requeue, initialized]
      · simp [switched, isNew, isCurrent, initialized]
  · intro thread running
    by_cases isNew : thread = new
    · exact isNew
    by_cases isCurrent : thread = dispatcher.current
    · subst thread
      simp only [switched, update_of_ne other, update_self] at running
      by_cases was : (dispatcher.threads dispatcher.current).state = .running
      · simp [requeue, was] at running
      · simp only [requeue, was, ↓reduceIte] at running
    · simp only [switched, update_of_ne isNew, update_of_ne isCurrent] at running
      exact absurd (settled.running thread running) isCurrent

/-- The current thread on the wait list of an object. -/
def Dispatcher.blocked (dispatcher : Dispatcher) (object : Nat) : Dispatcher :=
  (dispatcher.setThread dispatcher.current
    { dispatcher.threads dispatcher.current with
      state := .waiting, waitObject := some object }).withLinks
    (insertTailList dispatcher.links (.object object) (.thread dispatcher.current))

theorem kiWaitThread_eq (dispatcher : Dispatcher) (object : Nat) (point : Resume) :
    kiWaitThread dispatcher object point =
      kiDispatchNextThread (dispatcher.blocked object) point := rfl

/-- Blocking moves the running thread to the end of a wait list. -/
theorem Settled.blocked (settled : Settled dispatcher cells) {object : Nat}
    (known : object < dispatcher.objectCount)
    (running : (dispatcher.threads dispatcher.current).state = .running) :
    Settled (dispatcher.blocked object) (update cells (.object object)
      (cells (.object object) ++ [dispatcher.current])) := by
  have isObject : IsHead dispatcher.objectCount (.object object) := known
  have idle : dispatcher.placeOf dispatcher.current = none :=
    place_none (by rw [running]; simp) (by rw [running]; simp)
  have inserted := settled.listed.insert isObject idle
  have place : (dispatcher.blocked object).placeOf =
      update dispatcher.placeOf dispatcher.current (some (.object object)) :=
    placeOf_update dispatcher dispatcher.current _
  refine ⟨place ▸ inserted, ?_, ?_, ?_⟩
  · intro thread waiting
    by_cases isCurrent : thread = dispatcher.current
    · subst thread
      exact ⟨object, known, by
        simp [Dispatcher.blocked, Dispatcher.setThread, Dispatcher.withLinks]⟩
    · simp only [Dispatcher.blocked, Dispatcher.setThread, Dispatcher.withLinks,
        update_of_ne isCurrent] at waiting ⊢
      exact settled.waitKnown thread waiting
  · intro thread fresh
    have initialized := settled.created thread fresh
    by_cases isCurrent : thread = dispatcher.current
    · subst thread
      rw [running] at initialized
      cases initialized
    · simp only [Dispatcher.blocked, Dispatcher.setThread, Dispatcher.withLinks,
        update_of_ne isCurrent]
      exact initialized
  · intro thread isRunning
    by_cases isCurrent : thread = dispatcher.current
    · exact isCurrent
    · simp only [Dispatcher.blocked, Dispatcher.setThread, Dispatcher.withLinks,
        update_of_ne isCurrent] at isRunning
      exact settled.running thread isRunning

end Switch

end MinNT.Ke
