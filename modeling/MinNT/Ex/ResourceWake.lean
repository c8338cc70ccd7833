import MinNT.Ex.Resource

namespace MinNT.Ex

open List Option Ke ListEntry Transition

variable {resource : EResource} {held : List (Nat × AcquireMode)} {thread : Nat}
  {owners : List EResourceThreadEntry}

theorem sharedBit_iff (state : BitVec 32) :
    state &&& exclusiveState = 0 ↔ state.toNat < 2 ^ 31 := by
  rw [exclusiveState, BitVec.and_twoPow, BitVec.getLsbD, Nat.testBit_eq_decide_div_mod_eq]
  split
  · rename_i set
    rw [decide_eq_true_eq] at set
    constructor
    · intro impossible
      exact absurd impossible (by decide)
    · intro small
      omega
  · rename_i clear
    rw [decide_eq_true_eq] at clear
    exact ⟨fun _ => by omega, fun _ => rfl⟩

theorem exclusiveState_bit : ¬ exclusiveState &&& exclusiveState = 0 := by decide

theorem exclusiveState_ne_zero : exclusiveState ≠ 0 := by decide

theorem toNat_succ {state : BitVec 32} (small : state.toNat < 2 ^ 31) :
    (state + 1).toNat = state.toNat + 1 := by
  have one : (1 : BitVec 32).toNat = 1 := rfl
  rw [BitVec.toNat_add, one]
  omega

theorem toNat_pred {state : BitVec 32} (positive : 0 < state.toNat) :
    (state - 1).toNat = state.toNat - 1 := by
  have one : (1 : BitVec 32).toNat = 1 := rfl
  rw [BitVec.toNat_sub, one]
  omega

theorem findOwner_cons (entry : EResourceThreadEntry) :
    findOwner (entry :: owners) thread =
      if entry.thread = thread then some entry else findOwner owners thread := by
  simp only [findOwner, find?_cons]
  by_cases same : entry.thread = thread
  · simp [same]
  · simp [same]

theorem findOwner_addSharedCount (change : Int) (other : Nat) :
    findOwner (addSharedCount thread change owners) other =
      if other = thread then (findOwner owners thread).map fun entry =>
        { entry with sharedCount := addLong entry.sharedCount change }
      else findOwner owners other := by
  induction owners with
  | nil => simp [addSharedCount, findOwner]
  | cons entry owners ih =>
    rw [addSharedCount]
    by_cases own : entry.thread = thread
    · rw [if_pos own, findOwner_cons, findOwner_cons, findOwner_cons, if_pos own]
      by_cases same : other = thread
      · rw [if_pos same, same]
        exact if_pos own
      · have different : entry.thread ≠ other := fun equal => same (equal.symm.trans own)
        rw [if_neg same, if_neg different]
        exact (if_neg different).symm
    · rw [if_neg own, findOwner_cons, findOwner_cons, findOwner_cons, if_neg own, ih]
      by_cases same : other = thread
      · rw [if_pos same, if_pos same, same]
        exact if_neg own
      · rw [if_neg same, if_neg same]

theorem sharedCountOf_self (change : Int) (found : findOwner owners thread ≠ none) :
    sharedCountOf (addSharedCount thread change owners) thread =
      addLong (sharedCountOf owners thread) change := by
  unfold sharedCountOf
  rw [findOwner_addSharedCount, if_pos rfl]
  cases entry : findOwner owners thread with
  | none => exact absurd entry found
  | some entry => rfl

theorem sharedCountOf_other (change : Int) {other : Nat} (different : other ≠ thread) :
    sharedCountOf (addSharedCount thread change owners) other = sharedCountOf owners other := by
  unfold sharedCountOf
  rw [findOwner_addSharedCount, if_neg different]

variable {memory : Bool}

theorem erFindOrCreateOwner_spec (present : memory = true ∨ findOwner owners thread ≠ none) :
    ∃ created, erFindOrCreateOwner owners thread memory = some created ∧
      findOwner created thread ≠ none ∧
      ∀ other, sharedCountOf created other = sharedCountOf owners other := by
  unfold erFindOrCreateOwner
  cases found : findOwner owners thread with
  | some entry =>
    refine ⟨owners, rfl, ?_, fun _ => rfl⟩
    rw [found]
    exact Option.some_ne_none entry
  | none =>
    have given := present.resolve_right (not_not.mpr found)
    dsimp only
    rw [if_pos given]
    refine ⟨_, rfl, ?_, fun other => ?_⟩
    · rw [findOwner_cons, if_pos rfl]
      exact Option.some_ne_none _
    · unfold sharedCountOf
      rw [findOwner_cons]
      split
      · rename_i same
        dsimp only at same
        rw [← same, found]
        rfl
      · rfl

theorem sharedCountOf_acquire (present : memory = true ∨ findOwner owners thread ≠ none)
    (positive : 0 ≤ sharedCountOf owners thread)
    (small : sharedCountOf owners thread < 2 ^ 31 - 1) :
    ∃ created, erFindOrCreateOwner owners thread memory = some created ∧
      ∀ other, sharedCountOf (addSharedCount thread 1 created) other =
        sharedCountOf owners other + if other = thread then 1 else 0 := by
  obtain ⟨created, found, own, same⟩ := erFindOrCreateOwner_spec present
  refine ⟨created, found, fun other => ?_⟩
  by_cases isOwn : other = thread
  · rw [isOwn, sharedCountOf_self 1 own, same, if_pos rfl, addLong]
    exact Int.bmod_eq_of_le (by omega) (by omega)
  · rw [sharedCountOf_other 1 isOwn, same, if_neg isOwn, Int.add_zero]

/-- What the resource knows of its holders is right. -/
structure Counted (resource : EResource) (held : List (Nat × AcquireMode)) : Prop where
  exclusive : ∀ thread, resource.exclusiveOwner = some thread →
    held = [(thread, .exclusive)] ∧ resource.state = exclusiveState
  shared : resource.exclusiveOwner = none →
    (∀ holder ∈ held, holder.2 = .shared) ∧ resource.state.toNat = held.length
  counts : ∀ thread, sharedCountOf resource.owners thread = held.count (thread, .shared)
  small : ∀ thread, held.count (thread, .shared) < 2 ^ 31

section Counted

variable (counted : Counted resource held)
include counted

theorem Counted.notExclusive
    (different : resource.state ≠ exclusiveState) : resource.exclusiveOwner = none := by
  cases owner : resource.exclusiveOwner with
  | none => rfl
  | some thread => exact absurd (counted.exclusive thread owner).2 different

theorem Counted.takeShared (clear : resource.state &&& exclusiveState = 0)
    (present : memory = true ∨ findOwner resource.owners thread ≠ none)
    (small : sharedCountOf resource.owners thread < 2 ^ 31 - 1) :
    Counted (takeShared resource thread memory) ((thread, .shared) :: held) ∧
      HoldsIn (takeShared resource thread memory) thread .shared ∧
      ∀ holder ∈ held, holder.2 = .shared := by
  have room := (sharedBit_iff resource.state).mp clear
  have free := counted.notExclusive (fun same => exclusiveState_bit (same ▸ clear))
  obtain ⟨modes, length⟩ := counted.shared free
  have count := counted.counts thread
  obtain ⟨created, found, counts⟩ := sharedCountOf_acquire present (by omega) small
  have state : (Ex.takeShared resource thread memory).state.toNat = held.length + 1 := by
    rw [← length]
    exact toNat_succ room
  have entries : (Ex.takeShared resource thread memory).owners =
      addSharedCount thread 1 created := by
    rw [Ex.takeShared, found]
  have after : ∀ other, ((thread, AcquireMode.shared) :: held).count (other, .shared) =
      held.count (other, .shared) + if other = thread then 1 else 0 := by
    intro other
    rw [count_cons]
    by_cases same : other = thread
    · simp [same]
    · simp [same, Ne.symm same]
  refine ⟨⟨fun other owner => ?_, fun _ => ⟨fun holder member => ?_, state⟩, fun other => ?_,
    fun other => ?_⟩, ⟨fun zero => ?_, ?_⟩, modes⟩
  · have impossible : resource.exclusiveOwner = some other := owner
    rw [free] at impossible
    cases impossible
  · rcases mem_cons.mp member with first | rest
    · rw [first]
    · exact modes holder rest
  · rw [entries, counts, counted.counts other, after]
    split
    · rfl
    · rfl
  · have before := counted.small other
    rw [after]
    split
    · rename_i same
      rw [same]
      omega
    · omega
  · rw [zero] at state
    cases state
  · rw [entries, counts, if_pos rfl]
    omega

theorem Counted.unowned (zero : resource.state = 0) : held = [] := by
  have free := counted.notExclusive (fun same => exclusiveState_ne_zero (same.symm.trans zero))
  have length := (counted.shared free).2
  rw [zero] at length
  exact length_eq_zero_iff.mp length.symm

theorem Counted.owned (taken : resource.state ≠ 0) : held ≠ [] := by
  rintro rfl
  cases owner : resource.exclusiveOwner with
  | none => exact taken (BitVec.eq_of_toNat_eq (counted.shared owner).2)
  | some thread => cases (counted.exclusive thread owner).1

theorem Counted.takeExclusive (zero : resource.state = 0)
    (thread : Nat) : Counted (takeExclusive resource thread) [(thread, .exclusive)] := by
  have nobody := counted.unowned zero
  subst nobody
  refine ⟨fun other owner => ?_, fun free => ?_, fun other => ?_, fun other => ?_⟩
  · cases owner
    exact ⟨rfl, rfl⟩
  · cases free
  · rw [count_cons_of_ne (by simp)]
    exact counted.counts other
  · rw [count_cons_of_ne (by simp)]
    exact counted.small other

theorem Counted.releaseExclusive (owner : resource.exclusiveOwner = some thread) :
    Counted { resource with exclusiveOwner := none, state := 0 }
      (held.erase (thread, .exclusive)) := by
  obtain ⟨alone, _⟩ := counted.exclusive thread owner
  subst alone
  rw [erase_cons_head]
  refine ⟨fun other impossible => (by cases impossible), fun _ => ⟨?_, rfl⟩, fun other => ?_,
    fun other => ?_⟩
  · exact fun _ member => absurd member not_mem_nil
  · have count := counted.counts other
    rwa [count_cons_of_ne (by simp)] at count
  · have small := counted.small other
    rwa [count_cons_of_ne (by simp)] at small

theorem Counted.sharedHolder (positive : 0 < sharedCountOf resource.owners thread) :
    (thread, .shared) ∈ held ∧ resource.exclusiveOwner = none := by
  rw [counted.counts] at positive
  have member : (thread, AcquireMode.shared) ∈ held := by
    apply count_pos_iff.mp
    omega
  refine ⟨member, ?_⟩
  cases owner : resource.exclusiveOwner with
  | none => rfl
  | some other =>
    rw [(counted.exclusive other owner).1] at member
    cases mem_singleton.mp member

theorem Counted.releaseShared (positive : 0 < sharedCountOf resource.owners thread) :
    Counted
      { resource with
        owners := addSharedCount thread (-1) resource.owners
        state := resource.state - 1 } (held.erase (thread, .shared)) := by
  obtain ⟨member, free⟩ := counted.sharedHolder positive
  obtain ⟨modes, length⟩ := counted.shared free
  have some : 0 < held.length := length_pos_of_mem member
  have found : findOwner resource.owners thread ≠ none := by
    intro none
    rw [sharedCountOf, none] at positive
    exact Int.lt_irrefl 0 positive
  have own := counted.counts thread
  have bound := counted.small thread
  refine ⟨fun other owner => ?_, fun _ => ⟨fun holder kept => ?_, ?_⟩, fun other => ?_,
    fun other => ?_⟩
  · have impossible : resource.exclusiveOwner = Option.some other := owner
    rw [free] at impossible
    cases impossible
  · exact modes holder (mem_of_mem_erase kept)
  · rw [length_erase_of_mem member, ← length]
    exact toNat_pred (by omega)
  · dsimp only
    by_cases same : other = thread
    · rw [same, sharedCountOf_self _ found, own, count_erase_self, addLong,
        Int.bmod_eq_of_le (by omega) (by omega)]
      omega
    · rw [sharedCountOf_other _ same, counted.counts,
        count_erase_of_ne (fun equal => same (Prod.mk.inj equal).1)]
  · have before := counted.small other
    have fewer : (held.erase (thread, AcquireMode.shared)).count (other, .shared) ≤
        held.count (other, .shared) := erase_sublist.count_le _
    omega

end Counted

variable {system next : ResourceSystem} {events : List ResourceEvent}

/-- Nobody releases the semaphores, and the resource is right about its holders. -/
structure ResourceInvariant (system : ResourceSystem) : Prop where
  lists : ∃ cells, Settled system.dispatcher cells ∧ CurrentOk system.dispatcher cells
  sharedIdle : IdleSemaphore system.dispatcher system.resource.sharedWaiters
  exclusiveIdle : IdleSemaphore system.dispatcher system.resource.exclusiveWaiter
  distinct : system.resource.exclusiveWaiter ≠ system.resource.sharedWaiters
  counted : Counted system.resource system.held

theorem resumeAcquires_none (memory : Bool) {returns : List Event}
    (shared : NoReturn resource.sharedWaiters returns)
    (exclusive : NoReturn resource.exclusiveWaiter returns) :
    resumeAcquires memory resource returns = (resource, []) := by
  induction returns with
  | nil => rfl
  | cons event returns ih =>
    have rest := ih (fun thread status member => shared thread status (mem_cons_of_mem _ member))
      (fun thread status member => exclusive thread status (mem_cons_of_mem _ member))
    have first : afterAcquireWait memory resource event = (resource, []) := by
      cases event with
      | waitReturned thread object status =>
        have notShared : object ≠ resource.sharedWaiters := by
          rintro rfl
          exact shared thread status mem_cons_self
        have notExclusive : object ≠ resource.exclusiveWaiter := by
          rintro rfl
          exact exclusive thread status mem_cons_self
        rw [afterAcquireWait, if_neg notShared, if_neg notExclusive]
      | _ => rfl
    rw [resumeAcquires, first, rest]
    rfl

theorem ResourceInvariant.dispatch (invariant : ResourceInvariant system) {call : Call}
    (shared : OnlyWaits system.resource.sharedWaiters system.dispatcher call)
    (exclusive : OnlyWaits system.resource.exclusiveWaiter system.dispatcher call)
    {answer : Dispatcher × List Event} (done : step system.dispatcher call = some answer)
    (memory : Bool) :
    ResourceInvariant (system.after (withAcquires memory system.resource answer)).1 ∧
      (system.after (withAcquires memory system.resource answer)).2 = [] := by
  obtain ⟨cells, settled, ok⟩ := invariant.lists
  obtain ⟨effect, lists⟩ := step_effect settled ok done
  obtain ⟨sharedIdle, sharedQuiet⟩ := invariant.sharedIdle.step settled ok shared effect
  obtain ⟨exclusiveIdle, exclusiveQuiet⟩ := invariant.exclusiveIdle.step settled ok exclusive effect
  rw [withAcquires, resumeAcquires_none memory sharedQuiet exclusiveQuiet]
  exact ⟨⟨lists, sharedIdle, exclusiveIdle, invariant.distinct, invariant.counted⟩, rfl⟩

theorem exists_ready {dispatcher : Dispatcher} {cells : Node → List Nat}
    (settled : Settled dispatcher cells) (others : isListEmpty dispatcher.links .ready = false) :
    ∃ thread, (dispatcher.threads thread).state = .ready := by
  have ring := settled.listed.ring .ready trivial
  cases queue : cells .ready with
  | nil =>
    rw [queue] at ring
    rw [ring.isListEmpty_iff.mpr rfl] at others
    cases others
  | cons thread rest =>
    exact ⟨thread, (settled.ready_iff thread).mp (queue ▸ mem_cons_self)⟩

theorem step_wait {dispatcher : Dispatcher} {semaphore : Nat}
    (known : semaphore < dispatcher.objectCount)
    (running : (dispatcher.threads dispatcher.current).state ≠ .terminated)
    {answer : Dispatcher × List Event}
    (done : keWaitForSingleObject dispatcher semaphore false = some answer) :
    step dispatcher (.waitForSingleObject semaphore false) = some answer := by
  have accepted : dispatcher.accepts (.waitForSingleObject semaphore false) = true := by
    simp [Dispatcher.accepts, running, known]
  rw [step, if_pos accepted]
  exact done

/-- A wait on a semaphore of the resource keeps its account. -/
theorem ResourceInvariant.wait (invariant : ResourceInvariant system) {semaphore : Nat}
    (known : semaphore < system.dispatcher.objectCount)
    (running : (system.dispatcher.threads system.dispatcher.current).state ≠ .terminated)
    (others : isListEmpty system.dispatcher.links .ready = false)
    (done : ((keWaitForSingleObject system.dispatcher semaphore false).map
      (withAcquires memory system.resource)).map system.after = some (next, events)) :
    ResourceInvariant next ∧ events = [] := by
  obtain ⟨waited, returned, same⟩ := map_eq_some_iff.mp done
  obtain ⟨answer, result, shape⟩ := map_eq_some_iff.mp returned
  subst shape
  obtain ⟨cells, settled, _⟩ := invariant.lists
  have ready := exists_ready settled others
  have only : ∀ other,
      OnlyWaits other system.dispatcher (.waitForSingleObject semaphore false) := by
    refine fun other => ⟨rfl, fun target => ?_⟩
    cases target
    exact ⟨rfl, ready⟩
  have kept := invariant.dispatch (only _) (only _) (step_wait known running result) memory
  rw [same] at kept
  exact kept

theorem wakesAndHolds_quiet (quiet : ∀ event ∈ events, ∃ thread status,
    event = .refused thread status) : WakesAndHolds system next events := by
  refine ⟨fun thread mode member => ?_, fun thread mode member => ?_⟩
  · obtain ⟨_, _, same⟩ := quiet _ member
    cases same
  · obtain ⟨_, _, same⟩ := quiet _ member
    cases same

theorem wakesAndHolds_refused (thread : Nat) (status : NtStatus) :
    WakesAndHolds system next [.refused thread status] :=
  wakesAndHolds_quiet (fun _ member => ⟨thread, status, mem_singleton.mp member⟩)

theorem wakesAndHolds_nil : WakesAndHolds system next [] :=
  wakesAndHolds_quiet (fun _ member => absurd member not_mem_nil)

section Invariant

variable (invariant : ResourceInvariant system)
include invariant

theorem ResourceInvariant.acquireShared
    {present wait memory : Bool} (meets : NobodyLost system (.acquireShared present wait memory))
    (done : resourceCall system (.acquireShared present wait memory) = some (next, events)) :
    ResourceInvariant next ∧ WakesAndHolds system next events := by
  rw [resourceCall] at done
  split at done
  · cases done
  rename_i running
  unfold exAcquireResourceSharedLite at done
  dsimp only at done
  split at done
  · cases done
    exact ⟨⟨invariant.lists, invariant.sharedIdle, invariant.exclusiveIdle, invariant.distinct,
      invariant.counted⟩, wakesAndHolds_refused _ _⟩
  rename_i given
  have condition := meets (by simpa using given)
  split at done
  · rename_i clear
    rw [if_pos clear.1] at condition
    obtain ⟨counted, holds, modes⟩ := invariant.counted.takeShared clear.1 condition.1 condition.2
    cases done
    refine ⟨⟨invariant.lists, invariant.sharedIdle, invariant.exclusiveIdle, invariant.distinct,
      counted⟩, fun thread mode member => ?_, fun thread mode member => ?_⟩
    · cases mem_singleton.mp member
    · cases mem_singleton.mp member
      refine ⟨holds, fun holder other => ⟨rfl, modes holder ?_⟩⟩
      have others : holder ∈ ((system.dispatcher.current, AcquireMode.shared) :: system.held).erase
          (system.dispatcher.current, .shared) := other
      rwa [erase_cons_head] at others
  · rename_i set
    have conflict : ¬ system.resource.state &&& exclusiveState = 0 := fun clear =>
      set ⟨clear, invariant.exclusiveIdle.count⟩
    rw [if_neg conflict] at condition
    split at done
    · cases done
      exact ⟨⟨invariant.lists, invariant.sharedIdle, invariant.exclusiveIdle, invariant.distinct,
      invariant.counted⟩, wakesAndHolds_refused _ _⟩
    · rename_i waits
      obtain ⟨kept, none⟩ := invariant.wait invariant.sharedIdle.known running
        (condition (by simpa using waits)) done
      rw [none]
      exact ⟨kept, wakesAndHolds_nil⟩

theorem ResourceInvariant.acquireExclusive {present wait memory : Bool}
    (meets : NobodyLost system (.acquireExclusive present wait memory))
    (done : resourceCall system (.acquireExclusive present wait memory) = some (next, events)) :
    ResourceInvariant next ∧ WakesAndHolds system next events := by
  rw [resourceCall] at done
  split at done
  · cases done
  rename_i running
  unfold exAcquireResourceExclusiveLite at done
  dsimp only at done
  split at done
  · cases done
    exact ⟨⟨invariant.lists, invariant.sharedIdle, invariant.exclusiveIdle, invariant.distinct,
      invariant.counted⟩, wakesAndHolds_refused _ _⟩
  rename_i given
  split at done
  · rename_i zero
    have nobody := invariant.counted.unowned zero
    have counted := invariant.counted.takeExclusive zero system.dispatcher.current
    rw [← nobody] at counted
    cases done
    refine ⟨⟨invariant.lists, invariant.sharedIdle, invariant.exclusiveIdle, invariant.distinct,
      counted⟩, fun thread mode member => ?_, fun thread mode member => ?_⟩
    · cases mem_singleton.mp member
    · cases mem_singleton.mp member
      refine ⟨⟨rfl, rfl⟩, fun holder other => ?_⟩
      have others : holder ∈ ((system.dispatcher.current, AcquireMode.exclusive) ::
          system.held).erase (system.dispatcher.current, .exclusive) := other
      rw [erase_cons_head, nobody] at others
      cases others
  · rename_i taken
    split at done
    · cases done
      exact ⟨⟨invariant.lists, invariant.sharedIdle, invariant.exclusiveIdle, invariant.distinct,
      invariant.counted⟩, wakesAndHolds_refused _ _⟩
    · rename_i waits
      obtain ⟨kept, none⟩ := invariant.wait invariant.exclusiveIdle.known running
        (meets (by simpa using given) taken (by simpa using waits)) done
      rw [none]
      exact ⟨kept, wakesAndHolds_nil⟩

/-- What a release does: it is refused, or drops the exclusive or one shared hold. -/
theorem ResourceInvariant.release_cases {present : Bool} {answer : ResourceAnswer}
    (done : exReleaseResourceLite system.dispatcher system.resource present = some answer) :
    ((present = true → ¬ LastHolder system) ∧ ∃ status, answer =
        ⟨system.dispatcher, system.resource, [.refused system.dispatcher.current status]⟩) ∨
      (present = true ∧ system.resource.exclusiveOwner = some system.dispatcher.current ∧
        answer = ⟨system.dispatcher, { system.resource with exclusiveOwner := none, state := 0 },
          [.released system.dispatcher.current .exclusive]⟩) ∨
      (present = true ∧ 0 < sharedCountOf system.resource.owners system.dispatcher.current ∧
        answer = ⟨system.dispatcher, { system.resource with
          owners := addSharedCount system.dispatcher.current (-1) system.resource.owners
          state := system.resource.state - 1 },
          [.released system.dispatcher.current .shared]⟩) := by
  have shared : keReadStateSemaphore system.dispatcher system.resource.sharedWaiters = 0 :=
    invariant.sharedIdle.count
  have exclusive : keReadStateSemaphore system.dispatcher system.resource.exclusiveWaiter = 0 :=
    invariant.exclusiveIdle.count
  unfold exReleaseResourceLite at done
  rw [shared, exclusive] at done
  dsimp only at done
  split at done
  · rename_i absent
    cases done
    exact .inl ⟨fun given => by simp [absent] at given, _, rfl⟩
  rename_i given
  split at done
  · rename_i owner
    rw [if_neg (by decide), if_neg (by decide)] at done
    cases done
    exact .inr (.inl ⟨by simpa using given, owner, rfl⟩)
  rename_i notOwner
  have notLast : sharedCountOf system.resource.owners system.dispatcher.current ≤ 0 →
      ¬ LastHolder system := by
    rintro count (owner | ⟨_, positive⟩)
    · exact notOwner owner
    · exact Int.not_le.mpr positive count
  split at done
  · rename_i absent
    cases done
    refine .inl ⟨fun _ => notLast ?_, _, rfl⟩
    rw [sharedCountOf, absent]
    exact Int.le_refl 0
  rename_i entry found
  split at done
  · rename_i count
    cases done
    refine .inl ⟨fun _ => notLast ?_, _, rfl⟩
    rw [sharedCountOf, found]
    exact count
  rename_i positive
  rw [if_neg (by simp)] at done
  cases done
  refine .inr (.inr ⟨by simpa using given, ?_, rfl⟩)
  rw [sharedCountOf, found]
  exact Int.not_le.mp positive

/-- A release that meets the condition wakes whom it should. -/
theorem ResourceInvariant.release {present : Bool} (meets : NobodyLost system (.release present))
    (done : resourceCall system (.release present) = some (next, events)) :
    ResourceInvariant next ∧ WakesAndHolds system next events := by
  rw [resourceCall] at done
  split at done
  · cases done
  obtain ⟨answer, returned, same⟩ := map_eq_some_iff.mp done
  rcases invariant.release_cases returned with ⟨_, status, shape⟩ | ⟨given, owner, shape⟩ |
    ⟨given, positive, shape⟩
  · rw [shape] at same
    cases same
    exact ⟨⟨invariant.lists, invariant.sharedIdle, invariant.exclusiveIdle, invariant.distinct,
      invariant.counted⟩, wakesAndHolds_refused _ _⟩
  · have unblocked := meets given (.inl owner)
    have counted := invariant.counted.releaseExclusive owner
    rw [shape] at same
    cases same
    refine ⟨⟨invariant.lists, invariant.sharedIdle, invariant.exclusiveIdle, invariant.distinct,
      counted⟩, fun _ _ _ _ waits => ?_, fun thread mode member => ?_⟩
    · obtain ⟨waiter, blocked⟩ := waits
      exact absurd blocked (unblocked waiter)
    · cases mem_singleton.mp member
  · have counted := invariant.counted.releaseShared positive
    rw [shape] at same
    cases same
    refine ⟨⟨invariant.lists, invariant.sharedIdle, invariant.exclusiveIdle, invariant.distinct,
      counted⟩, fun _ _ _ unowned waits => ?_, fun thread mode member => ?_⟩
    · obtain ⟨waiter, blocked⟩ := waits
      have zero : system.resource.state - 1 = 0 := unowned.1
      have last : system.resource.state = 1 := by bv_omega
      exact absurd blocked (meets given (.inr ⟨last, positive⟩) waiter)
    · cases mem_singleton.mp member

end Invariant

/-- One call of any kind keeps the resource's account. -/
theorem ResourceInvariant.step (invariant : ResourceInvariant system) {call : ResourceCall}
    (meets : NobodyLost system call) (done : resourceCall system call = some (next, events)) :
    ResourceInvariant next ∧ WakesAndHolds system next events := by
  cases call with
  | acquireShared present wait memory => exact invariant.acquireShared meets done
  | acquireExclusive present wait memory => exact invariant.acquireExclusive meets done
  | release present => exact invariant.release meets done
  | other call memory =>
    obtain ⟨waited, called, same⟩ := map_eq_some_iff.mp done
    obtain ⟨answer, stepped, shape⟩ := map_eq_some_iff.mp called
    subst shape
    obtain ⟨api, notShared, notExclusive⟩ := meets
    obtain ⟨kept, none⟩ := invariant.dispatch ⟨api, fun target => absurd target notShared⟩
      ⟨api, fun target => absurd target notExclusive⟩ stepped memory
    rw [same] at kept none
    refine ⟨kept, ?_⟩
    rw [show events = [] from none]
    exact wakesAndHolds_nil

theorem ResourceInvariant.returns (invariant : ResourceInvariant system) {semaphore : Nat}
    (idle : IdleSemaphore system.dispatcher semaphore)
    (running : (system.dispatcher.threads system.dispatcher.current).state ≠ .terminated)
    (nobody : isListEmpty system.dispatcher.links .ready ≠ false) {answer : Dispatcher × List Event}
    (done : keWaitForSingleObject system.dispatcher semaphore false = some answer) :
    ∃ status, answer.2 = [.waitCalled system.dispatcher.current semaphore false,
      .waitReturned system.dispatcher.current semaphore status] := by
  obtain ⟨cells, settled, ok⟩ := invariant.lists
  have notReady : ∀ thread, (system.dispatcher.threads thread).state ≠ .ready := by
    intro thread ready
    have ring := settled.listed.ring .ready trivial
    have queue := ring.isListEmpty_iff.mp (Bool.of_not_eq_false nobody)
    have member := (settled.ready_iff thread).mpr ready
    rw [map_eq_nil_iff.mp queue] at member
    cases member
  have stepped := step_wait idle.known running done
  obtain ⟨after, events⟩ := answer
  have effect := (step_effect settled ok stepped).1
  cases effect with
  | addObject new => cases new
  | waitSignaled known signaled => exact absurd idle.unsignaled signaled
  | switch leaves different ready => exact absurd ready (notReady _)
  | idle leaves plain nobody =>
    simp only [departure, idle.unsignaled] at leaves
    cases leaves
    cases plain
  | recover leaves blocking nobody =>
    simp only [departure, idle.unsignaled] at leaves
    cases leaves
    exact ⟨_, rfl⟩

theorem takeShared_notHeld (counted : Counted resource held)
    (lost : ¬ ((memory = true ∨ findOwner resource.owners thread ≠ none) ∧
      sharedCountOf resource.owners thread < 2 ^ 31 - 1)) :
    ¬ HoldsIn (takeShared resource thread memory) thread .shared := by
  rintro ⟨_, positive⟩
  by_cases present : memory = true ∨ findOwner resource.owners thread ≠ none
  · obtain ⟨created, found, own, same⟩ := erFindOrCreateOwner_spec present
    have count := counted.counts thread
    have small := counted.small thread
    have most : sharedCountOf resource.owners thread = 2 ^ 31 - 1 := by
      have large := not_and.mp lost present
      omega
    rw [takeShared, found] at positive
    dsimp only at positive
    rw [sharedCountOf_self 1 own, same, most] at positive
    exact absurd positive (by decide)
  · rw [not_or, not_not] at present
    have none : erFindOrCreateOwner resource.owners thread memory = none := by
      rw [erFindOrCreateOwner, present.2]
      exact if_neg present.1
    rw [takeShared, none] at positive
    dsimp only at positive
    rw [sharedCountOf, present.2] at positive
    exact Int.lt_irrefl 0 positive

theorem Counted.marked (counted : Counted resource held) (few : held.length < 2 ^ 31)
    (set : ¬ resource.state &&& exclusiveState = 0) : ∃ owner, held = [(owner, .exclusive)] := by
  cases owner : resource.exclusiveOwner with
  | none =>
    rw [sharedBit_iff, (counted.shared owner).2] at set
    exact absurd few set
  | some other => exact ⟨other, (counted.exclusive other owner).1⟩

section Invariant

variable (invariant : ResourceInvariant system)
include invariant

theorem ResourceInvariant.acquireShared_lost
    (few : system.held.length < 2 ^ 31) {present wait memory : Bool}
    (done : resourceCall system (.acquireShared present wait memory) = some (next, events))
    (sound : WakesAndHolds system next events) :
    NobodyLost system (.acquireShared present wait memory) := by
  intro given
  rw [resourceCall] at done
  split at done
  · cases done
  rename_i running
  unfold exAcquireResourceSharedLite at done
  dsimp only at done
  rw [if_neg (by simp [given])] at done
  split
  · rename_i clear
    rw [if_pos ⟨clear, invariant.exclusiveIdle.count⟩] at done
    cases done
    by_contra lost
    exact takeShared_notHeld invariant.counted lost (sound.holds _ _ mem_cons_self).1
  · rename_i set
    intro waits
    by_contra nobody
    obtain ⟨owner, held⟩ := invariant.counted.marked few set
    rw [if_neg (fun clear => set clear.1), if_neg (by simp [waits])] at done
    obtain ⟨waited, called, same⟩ := map_eq_some_iff.mp done
    obtain ⟨answer, result, shape⟩ := map_eq_some_iff.mp called
    obtain ⟨status, returned⟩ := invariant.returns invariant.sharedIdle running nobody result
    have resumed : resumeAcquires memory system.resource answer.2 =
        (takeShared system.resource system.dispatcher.current memory,
          [.acquired system.dispatcher.current .shared]) := by
      rw [returned]
      simp [resumeAcquires, afterAcquireWait]
    rw [withAcquires, resumed] at shape
    subst shape
    cases same
    have conflict := (sound.holds _ _ mem_cons_self).2 (owner, .exclusive)
      (show _ ∈ ((system.dispatcher.current, AcquireMode.shared) :: system.held).erase
        (system.dispatcher.current, .shared) by
        rw [erase_cons_head, held]
        exact mem_cons_self)
    exact absurd conflict.2 (by simp)

theorem ResourceInvariant.acquireExclusive_lost {present wait memory : Bool}
    (done : resourceCall system (.acquireExclusive present wait memory) = some (next, events))
    (sound : WakesAndHolds system next events) :
    NobodyLost system (.acquireExclusive present wait memory) := by
  intro given taken waits
  by_contra nobody
  rw [resourceCall] at done
  split at done
  · cases done
  rename_i running
  unfold exAcquireResourceExclusiveLite at done
  dsimp only at done
  rw [if_neg (by simp [given]), if_neg taken, if_neg (by simp [waits])] at done
  obtain ⟨waited, called, same⟩ := map_eq_some_iff.mp done
  obtain ⟨answer, result, shape⟩ := map_eq_some_iff.mp called
  obtain ⟨status, returned⟩ := invariant.returns invariant.exclusiveIdle running nobody result
  have resumed : resumeAcquires memory system.resource answer.2 =
      (takeExclusive system.resource system.dispatcher.current,
        [.acquired system.dispatcher.current .exclusive]) := by
    rw [returned]
    simp [resumeAcquires, afterAcquireWait, invariant.distinct]
  rw [withAcquires, resumed] at shape
  subst shape
  cases same
  obtain ⟨holder, member⟩ := exists_mem_of_ne_nil _ (invariant.counted.owned taken)
  have conflict := (sound.holds _ _ mem_cons_self).2 holder
    (show _ ∈ ((system.dispatcher.current, AcquireMode.exclusive) :: system.held).erase
      (system.dispatcher.current, .exclusive) by
      rw [erase_cons_head]
      exact member)
  exact absurd conflict.1 (by decide)

theorem ResourceInvariant.release_lost {present : Bool}
    (done : resourceCall system (.release present) = some (next, events))
    (sound : WakesAndHolds system next events) : NobodyLost system (.release present) := by
  intro given last thread blocked
  rw [resourceCall] at done
  split at done
  · cases done
  obtain ⟨answer, returned, same⟩ := map_eq_some_iff.mp done
  -- whoever is blocked is still blocked
  have still : ∀ waiter, Blocked system waiter →
      (system.dispatcher.threads waiter).state ≠ .ready := by
    rintro waiter (shared | exclusive) ready
    · rw [shared.1] at ready
      cases ready
    · rw [exclusive.1] at ready
      cases ready
  rcases invariant.release_cases returned with ⟨notLast, _⟩ | ⟨_, owner, shape⟩ |
    ⟨_, positive, shape⟩
  · exact notLast given last
  · rw [shape] at same
    cases same
    obtain ⟨waiter, waits, ready⟩ := sound.wakes _ _ mem_cons_self ⟨rfl, rfl⟩ ⟨thread, blocked⟩
    exact still waiter waits ready
  · have free := (invariant.counted.sharedHolder positive).2
    have one : system.resource.state = 1 := by
      rcases last with owner | ⟨one, _⟩
      · rw [free] at owner
        cases owner
      · exact one
    rw [shape] at same
    cases same
    have unowned : system.resource.state - 1 = 0 := by bv_omega
    obtain ⟨waiter, waits, ready⟩ := sound.wakes _ _ mem_cons_self ⟨unowned, free⟩ ⟨thread, blocked⟩
    exact still waiter waits ready

end Invariant

theorem ResourceStart.invariant (start : ResourceStart system) : ResourceInvariant system := by
  obtain ⟨dispatcher, history, name, run, rfl⟩ := start
  obtain ⟨cells, settled, ok⟩ := settled_run run
  have resumes := resumesKnown_run run
  have shared := idle_initialize resumes 0x7FFFFFFF
  have exclusive := idle_initialize (resumes.initializeSemaphore 0 0x7FFFFFFF) 1
  obtain ⟨_, settledShared, okShared⟩ := settled_initializeSemaphore settled ok 0 0x7FFFFFFF
  obtain ⟨last, lists⟩ := settled_initializeSemaphore settledShared okShared 0 1
  refine ⟨⟨last, lists⟩, shared.initializeSemaphore 0 1, exclusive, Nat.succ_ne_self _, ?_⟩
  exact ⟨fun _ owner => (by cases owner), fun _ => ⟨fun _ member => absurd member not_mem_nil,
    rfl⟩, fun _ => rfl, fun _ => Nat.two_pow_pos 31⟩

theorem ResourceStart.reached {start : ResourceSystem} (initial : ResourceStart start)
    (run : Reaches resourceStep NobodyLost start system) : ResourceInvariant system :=
  run.invariant initial.invariant (fun before label after invariant meets done => by
    obtain ⟨⟨next, events⟩, called, rfl⟩ := map_eq_some_iff.mp done
    exact (invariant.step meets called).1)

/-- Over runs in which no acquire waits without another thread that is ready or is
left uncounted, and no last release leaves threads blocked, whoever acquires the
resource holds it, and whenever it is left unowned a blocked thread is made ready.
With less than `2 ^ 31` holders a call on the resource that breaks the condition
breaks that as well. -/
theorem resource_wakesAndHolds (start system next : ResourceSystem) (events : List ResourceEvent)
    (initial : ResourceStart start) (run : Reaches resourceStep NobodyLost start system)
    (call : ResourceCall) (done : resourceCall system call = some (next, events)) :
    (NobodyLost system call → WakesAndHolds system next events) ∧
      (system.held.length < 2 ^ 31 → (∀ other memory, call ≠ .other other memory) →
        WakesAndHolds system next events → NobodyLost system call) := by
  have invariant := initial.reached run
  refine ⟨fun meets => (invariant.step meets done).2, fun few onResource sound => ?_⟩
  cases call with
  | acquireShared present wait memory => exact invariant.acquireShared_lost few done sound
  | acquireExclusive present wait memory => exact invariant.acquireExclusive_lost done sound
  | release present => exact invariant.release_lost done sound
  | other other memory => exact absurd rfl (onResource other memory)

/-- A resource that is initialised at boot. -/
def bootResource : ResourceSystem :=
  ⟨(exInitializeResourceLite bootDispatcher none).2,
    (exInitializeResourceLite bootDispatcher none).1, []⟩

theorem bootResource_start : ResourceStart bootResource :=
  ⟨bootDispatcher, [], none, .boot, rfl⟩

/-- The boot thread and a second one share the resource. -/
theorem resource_wakesAndHolds_shared : ∃ system next,
    resourceCall system (.acquireShared true true true) = some (next, [.acquired 1 .shared]) ∧
      WakesAndHolds system next [.acquired 1 .shared] := by
  have initial : Reaches resourceStep NobodyLost bootResource _ := .start
  have created := initial.step (show NobodyLost _ (.other .createThread true) from
    ⟨rfl, by simp [Call.target], by simp [Call.target]⟩) rfl
  have shared := created.step (show NobodyLost _ (.acquireShared true true true) from
    fun _ => by
      rw [if_pos (by decide)]
      exact ⟨.inl rfl, by decide⟩) rfl
  have switched := shared.step (show NobodyLost _ (.other .dispatchNext true) from
    ⟨rfl, by simp [Call.target], by simp [Call.target]⟩) rfl
  refine ⟨_, _, rfl, (resource_wakesAndHolds _ _ _ _ bootResource_start switched
    (.acquireShared true true true) rfl).1 (fun _ => ?_)⟩
  rw [if_pos (by decide)]
  exact ⟨.inl rfl, by decide⟩

/-- A second thread is blocked when the boot thread releases the resource, and
stays so. -/
theorem release_wakesNobody : ∃ system next events,
    Reaches resourceStep NobodyLost bootResource system ∧
      resourceCall system (.release true) = some (next, events) ∧ Unowned next.resource ∧
      Blocked system 1 ∧ ¬ WakesAndHolds system next events := by
  have initial : Reaches resourceStep NobodyLost bootResource _ := .start
  have created := initial.step (show NobodyLost _ (.other .createThread true) from
    ⟨rfl, by simp [Call.target], by simp [Call.target]⟩) rfl
  have acquired := created.step (show NobodyLost _ (.acquireExclusive true true true) from
    fun _ taken => absurd rfl taken) rfl
  have switched := acquired.step (show NobodyLost _ (.other .dispatchNext true) from
    ⟨rfl, by simp [Call.target], by simp [Call.target]⟩) rfl
  have waits := switched.step (show NobodyLost _ (.acquireExclusive true true true) from
    fun _ _ _ => rfl) rfl
  refine ⟨_, _, _, waits, rfl, ⟨rfl, rfl⟩, .inr ⟨rfl, rfl⟩, fun sound => ?_⟩
  have invariant := bootResource_start.reached waits
  exact invariant.release_lost rfl sound rfl (.inl rfl) 1 (.inr ⟨rfl, rfl⟩)

end MinNT.Ex
