import Mathlib.Data.List.Nodup
import MinNT.Ex.WorkItem

namespace MinNT.Ex

open List Function Option Transition

/-- No worker but this one has an item. -/
def OthersFree (work : WorkQueue) (worker : Nat) : Prop :=
  ∀ other, other ≠ worker → (work.workers other).busy = false

/-- Who has an item: nobody, or one worker, which is about to call its routine or has called it.
`held` are the slots of the items that workers have got, and `due` those that are not called. -/
inductive Holder (work : WorkQueue) : List Nat → List Nat → Prop
  | none (free : ∀ worker, (work.workers worker).busy = false) : Holder work [] []
  | calls (worker slot : Nat) (phase : work.workers worker = .call slot)
      (others : OthersFree work worker) : Holder work [slot] [slot]
  | frees (worker slot : Nat) (phase : work.workers worker = .free slot)
      (others : OthersFree work worker) (logged : work.called ≠ []) : Holder work [slot] []

/-- The slots in use are those that workers have got items from, and behind these in the order of
queueing the ones in `pending`, from low to high. -/
structure SlotsInvariant (work : WorkQueue) (held due pending : List Nat) : Prop where
  sorted : pending.Pairwise (· < ·)
  apart : ∀ slot ∈ held, slot ∉ pending
  used : ∀ slot < workitemQueueMax,
    (work.slots slot).inUse = true ↔ slot ∈ held ∨ slot ∈ pending
  items : ∀ slot ∈ due ++ pending, slot < workitemQueueMax ∧ (work.slots slot).flags = 0 ∧
    (work.slots slot).routine.isSome = true
  log : work.queued = work.called ++ (due ++ pending).map work.callAt
  holder : Holder work held due

section Slots

variable {work after : WorkQueue} {held due pending : List Nat}

theorem workers_setWorker (work : WorkQueue) (worker other : Nat) (phase : WorkerPhase) :
    (work.setWorker worker phase).workers other =
      if other = worker then phase else work.workers other := by
  simp only [WorkQueue.setWorker, update_apply]

variable {phase : WorkerPhase} {worker slot : Nat}

theorem othersFree_setWorker
    (others : OthersFree work worker) : OthersFree (work.setWorker worker phase) worker := by
  intro other different
  rw [workers_setWorker, if_neg different]
  exact others other different

theorem OthersFree.eq_of_busy {other : Nat} (others : OthersFree work other)
    (busy : (work.workers worker).busy = true) : worker = other := by
  by_contra different
  rw [others worker different] at busy
  cases busy

section Holder

variable (holder : Holder work held due)
include holder

theorem Holder.setWorker (before : (work.workers worker).busy = false)
    (later : phase.busy = false) : Holder (work.setWorker worker phase) held due := by
  have busy : ∀ other, (work.workers other).busy = false →
      ((work.setWorker worker phase).workers other).busy = false := by
    intro other free
    rw [workers_setWorker]
    split
    · exact later
    · exact free
  have kept : ∀ other, (work.workers other).busy = true →
      (work.setWorker worker phase).workers other = work.workers other := by
    intro other isBusy
    rw [workers_setWorker, if_neg]
    intro same
    rw [same, before] at isBusy
    cases isBusy
  cases holder with
  | none free => exact .none (fun other => busy other (free other))
  | calls other slot phase others =>
    refine .calls other slot ?_ (fun third different => busy third (others third different))
    rw [kept other (by rw [phase]; rfl), phase]
  | frees other slot phase others logged =>
    refine .frees other slot ?_ (fun third different => busy third (others third different)) logged
    rw [kept other (by rw [phase]; rfl), phase]

/-- Nobody has the item of a slot that is not held. -/
theorem Holder.not_has (other : slot ∉ held) (worker : Nat) :
    work.workers worker ≠ .call slot ∧ work.workers worker ≠ .free slot := by
  have busy : ∀ phase : WorkerPhase, phase.busy = true → work.workers worker = phase →
      (work.workers worker).busy = true := fun phase isBusy same => by rw [same, isBusy]
  cases holder with
  | none free =>
    refine ⟨fun has => ?_, fun has => ?_⟩
    · exact absurd (busy _ rfl has) (by rw [free worker]; exact Bool.false_ne_true)
    · exact absurd (busy _ rfl has) (by rw [free worker]; exact Bool.false_ne_true)
  | calls holding own phase others =>
    rw [mem_singleton] at other
    refine ⟨fun has => ?_, fun has => ?_⟩
    · obtain rfl := others.eq_of_busy (busy _ rfl has)
      exact other (WorkerPhase.call.inj (has.symm.trans phase))
    · obtain rfl := others.eq_of_busy (busy _ rfl has)
      cases has.symm.trans phase
  | frees holding own phase others _ =>
    rw [mem_singleton] at other
    refine ⟨fun has => ?_, fun has => ?_⟩
    · obtain rfl := others.eq_of_busy (busy _ rfl has)
      cases has.symm.trans phase
    · obtain rfl := others.eq_of_busy (busy _ rfl has)
      exact other (WorkerPhase.free.inj (has.symm.trans phase))

theorem Holder.of_call (phase : work.workers worker = .call slot) :
    held = [slot] ∧ due = [slot] ∧ OthersFree work worker := by
  have busy : (work.workers worker).busy = true := by rw [phase]; rfl
  cases holder with
  | none free =>
    rw [free worker] at busy
    cases busy
  | calls other own phase' others =>
    obtain rfl := others.eq_of_busy busy
    cases phase.symm.trans phase'
    exact ⟨rfl, rfl, others⟩
  | frees other own phase' others _ =>
    obtain rfl := others.eq_of_busy busy
    cases phase.symm.trans phase'

theorem Holder.of_free (phase : work.workers worker = .free slot) :
    held = [slot] ∧ due = [] ∧ OthersFree work worker := by
  have busy : (work.workers worker).busy = true := by rw [phase]; rfl
  cases holder with
  | none free =>
    rw [free worker] at busy
    cases busy
  | calls other own phase' others =>
    obtain rfl := others.eq_of_busy busy
    cases phase.symm.trans phase'
  | frees other own phase' others _ =>
    obtain rfl := others.eq_of_busy busy
    cases phase.symm.trans phase'
    exact ⟨rfl, rfl, others⟩

theorem Holder.due_held : ∀ slot ∈ due, slot ∈ held := by
  cases holder with
  | none _ => exact fun _ member => member
  | calls _ _ _ _ => exact fun _ member => member
  | frees _ _ _ _ _ => exact fun _ none => absurd none not_mem_nil

theorem Holder.of_others (others : OthersFree work worker)
    (notBusy : (work.workers worker).busy = false) : held = [] ∧ due = [] := by
  cases holder with
  | none _ => exact ⟨rfl, rfl⟩
  | calls other own phase _ | frees other own phase _ _ =>
    obtain rfl := others.eq_of_busy (show (work.workers other).busy = true by rw [phase]; rfl)
    rw [phase] at notBusy
    cases notBusy

end Holder

theorem SlotsInvariant.setWorker (invariant : SlotsInvariant work held due pending)
    (before : (work.workers worker).busy = false) (later : phase.busy = false) :
    SlotsInvariant (work.setWorker worker phase) held due pending :=
  ⟨invariant.sorted, invariant.apart, invariant.used, invariant.items, invariant.log,
    invariant.holder.setWorker before later⟩

theorem SlotsInvariant.semaphore (invariant : SlotsInvariant work held due pending) (count : Int)
    (signaled : Bool) (waiters : List Nat) (releases : Nat) :
    SlotsInvariant
      { work with
        currentCount := count, signaled := signaled, waiters := waiters, releases := releases }
      held due pending := by
  refine ⟨invariant.sorted, invariant.apart, invariant.used, invariant.items, invariant.log, ?_⟩
  cases invariant.holder with
  | none free => exact .none free
  | calls worker slot phase others => exact .calls worker slot phase others
  | frees worker slot phase others logged => exact .frees worker slot phase others logged

theorem find?_range_least {accepts : Nat → Bool} {limit index : Nat} (inside : index < limit)
    (hit : accepts index = true) (misses : ∀ before < index, accepts before = false) :
    (range limit).find? accepts = some index := by
  rw [find?_range_eq_some]
  refine ⟨hit, mem_range.mpr inside, ?_⟩
  intro before earlier
  rw [misses before earlier]
  rfl

/-- A worker takes the first item that is due, or goes to wait. -/
theorem SlotsInvariant.dequeue (invariant : SlotsInvariant work held due pending)
    (now : Int) (phase : work.workers worker = .dequeue) (others : OthersFree work worker) :
    ∃ held due pending, SlotsInvariant (workItemDequeue work worker now) held due pending := by
  have notBusy : (work.workers worker).busy = false := by rw [phase]; rfl
  obtain ⟨rfl, rfl⟩ := invariant.holder.of_others others notBusy
  have used : ∀ slot < workitemQueueMax, (work.slots slot).inUse = true ↔ slot ∈ pending := by
    intro slot inside
    rw [invariant.used slot inside, or_iff_right not_mem_nil]
  unfold workItemDequeue
  cases pending with
  | nil =>
    have missing : (range workitemQueueMax).find? (fun slot => (work.slots slot).due now) =
        none := by
      rw [find?_eq_none]
      intro slot member due
      rw [WorkItem.due, Bool.and_eq_true] at due
      cases (used slot (mem_range.mp member)).mp due.1
    rw [missing]
    exact ⟨[], [], [], invariant.setWorker notBusy rfl⟩
  | cons low rest =>
    obtain ⟨inside, flags, _⟩ := invariant.items low mem_cons_self
    have above := (pairwise_cons.mp invariant.sorted).1
    have isLow : (range workitemQueueMax).find? (fun slot => (work.slots slot).due now) =
        some low := by
      apply find?_range_least inside
      · have inUse := (used low inside).mpr mem_cons_self
        simp [WorkItem.due, inUse, flags]
      · intro slot below
        have free : (work.slots slot).inUse ≠ true := by
          rw [Ne, used slot (Nat.lt_trans below inside), mem_cons, not_or]
          exact ⟨Nat.ne_of_lt below, fun member => Nat.lt_asymm below (above slot member)⟩
        simp [WorkItem.due, free]
    rw [isLow]
    refine ⟨[low], [low], rest, (pairwise_cons.mp invariant.sorted).2, ?_, ?_,
      invariant.items, invariant.log, ?_⟩
    · intro slot same member
      rw [mem_singleton] at same
      exact Nat.lt_irrefl low (above low (same ▸ member))
    · intro slot inside
      exact (used slot inside).trans (by rw [mem_cons, mem_singleton])
    · refine .calls worker low ?_ (othersFree_setWorker others)
      rw [workers_setWorker, if_pos rfl]

theorem SlotsInvariant.call (invariant : SlotsInvariant work held due pending)
    (phase : work.workers worker = .call slot) :
    SlotsInvariant (callRoutine work worker slot) held [] pending := by
  obtain ⟨rfl, rfl, others⟩ := invariant.holder.of_call phase
  obtain ⟨_, _, some⟩ := invariant.items slot mem_cons_self
  obtain ⟨routine, known⟩ := isSome_iff_exists.mp some
  have own : work.callAt slot = ⟨(work.slots slot).ticket, routine, (work.slots slot).context⟩ := by
    rw [WorkQueue.callAt, known, getD_some]
  unfold callRoutine
  dsimp only
  rw [known]
  refine ⟨invariant.sorted, invariant.apart, invariant.used,
    fun other member => invariant.items other (mem_cons_of_mem _ member), ?_, ?_⟩
  · show work.queued = (work.called ++
      [⟨(work.slots slot).ticket, routine, (work.slots slot).context⟩]) ++ pending.map work.callAt
    rw [invariant.log, singleton_append, map_cons, own, append_assoc, singleton_append]
  · refine .frees worker slot ?_ (othersFree_setWorker others) ?_
    · dsimp only
      rw [workers_setWorker, if_pos rfl]
    · exact append_ne_nil_of_right_ne_nil _ (cons_ne_nil _ _)

/-- A worker frees its slot. -/
theorem SlotsInvariant.free (invariant : SlotsInvariant work held due pending)
    (phase : work.workers worker = .free slot) :
    SlotsInvariant (workItemFree work worker slot) [] [] pending := by
  obtain ⟨rfl, rfl, others⟩ := invariant.holder.of_free phase
  have apart := invariant.apart slot mem_cons_self
  have different : ∀ other ∈ pending, other ≠ slot := fun other member same =>
    apart (same ▸ member)
  unfold workItemFree
  refine ⟨invariant.sorted, fun _ none => absurd none not_mem_nil, ?_, ?_, ?_, ?_⟩
  · intro other inside
    show (update work.slots slot _ other).inUse = true ↔ _
    rw [or_iff_right not_mem_nil]
    by_cases same : other = slot
    · rw [same, update_self]
      exact iff_of_false Bool.false_ne_true apart
    · rw [update_of_ne same, invariant.used other inside, mem_singleton, or_iff_right same]
  · intro other member
    show _ ∧ (update work.slots slot _ other).flags = 0 ∧
      (update work.slots slot _ other).routine.isSome = true
    rw [update_of_ne (different other member)]
    exact invariant.items other member
  · show work.queued = work.called ++ _
    rw [invariant.log]
    congr 1
    apply map_congr_left
    intro other member
    unfold WorkQueue.callAt
    show _ = WorkCall.mk (update work.slots slot _ other).ticket
      ((update work.slots slot _ other).routine.getD 0)
      (update work.slots slot _ other).context
    rw [update_of_ne (different other member)]
  · refine .none fun other => ?_
    rw [workers_setWorker]
    split
    · rfl
    · rename_i different
      exact others other different

/-- A new item goes behind all pending ones. -/
theorem SlotsInvariant.append (invariant : SlotsInvariant work held due pending)
    (inside : slot < workitemQueueMax) (free : ¬ (work.slots slot).inUse = true)
    (above : ∀ other ∈ pending, other < slot) (request : WorkRequest) {routine : Nat}
    (known : request.routine = some routine) (now : Int) :
    SlotsInvariant
      { work with
        slots := update work.slots slot
          (request.item .criticalWorkItem now work.queued.length)
        releases := work.releases + 1
        queued := work.queued ++ [⟨work.queued.length, routine, request.context⟩] }
      held due (pending ++ [slot]) := by
  obtain ⟨notHeld, notPending⟩ := not_or.mp (mt (invariant.used slot inside).mpr free)
  have different : ∀ other ∈ due ++ pending, other ≠ slot := by
    rintro other member rfl
    rcases mem_append.mp member with isDue | later
    · exact notHeld (invariant.holder.due_held other isDue)
    · exact notPending later
  refine ⟨?_, ?_, ?_, ?_, ?_, ?_⟩
  · rw [pairwise_append]
    refine ⟨invariant.sorted, pairwise_singleton _ _, fun other member last same => ?_⟩
    rw [mem_singleton.mp same]
    exact above other member
  · intro other isHeld member
    rcases mem_append.mp member with old | new
    · exact invariant.apart other isHeld old
    · rw [mem_singleton.mp new] at isHeld
      exact notHeld isHeld
  · intro other below
    dsimp only
    rw [mem_append, mem_singleton]
    by_cases same : other = slot
    · rw [same, update_self]
      exact iff_of_true rfl (.inr (.inr rfl))
    · rw [update_of_ne same, invariant.used other below, or_iff_left same]
  · intro other member
    dsimp only
    rw [← append_assoc, mem_append, mem_singleton] at member
    rcases member with old | rfl
    · rw [update_of_ne (different other old)]
      exact invariant.items other old
    · rw [update_self]
      exact ⟨inside, rfl, by simp [WorkRequest.item, known]⟩
  · show work.queued ++ _ = work.called ++ _
    rw [← append_assoc, map_append, ← append_assoc, invariant.log, map_singleton]
    congr 1
    · congr 1
      apply map_congr_left
      intro other member
      simp only [WorkQueue.callAt]
      rw [update_of_ne (different other member)]
    · simp only [WorkQueue.callAt, update_self, WorkRequest.item, known, getD_some]
  · cases invariant.holder with
    | none free => exact .none free
    | calls worker slot phase others => exact .calls worker slot phase others
    | frees worker slot phase others logged => exact .frees worker slot phase others logged

theorem SlotsInvariant.queue (invariant : SlotsInvariant work held due pending)
    (request : WorkRequest) (now : Int)
    (packed : ∀ slot < workitemQueueMax, work.Unstarted slot →
      ∀ below < slot, (work.slots below).inUse = true) :
    ∃ pending,
      SlotsInvariant (exQueueWorkItem work request .criticalWorkItem now).2 held due pending := by
  unfold exQueueWorkItem
  cases known : request.routine with
  | none => exact ⟨pending, invariant⟩
  | some routine =>
    dsimp only
    cases found : workItemAlloc work with
    | none => exact ⟨pending, invariant⟩
    | some slot =>
      obtain ⟨free, inside, _⟩ := find?_range_eq_some.mp found
      rw [mem_range] at inside
      have isFree : ¬ (work.slots slot).inUse = true := by simpa using free
      refine ⟨pending ++ [slot], invariant.append inside isFree ?_ request known now⟩
      intro other member
      -- a pending slot above would be an item that no worker has got
      by_contra notBelow
      have small := (invariant.items other (mem_append_right _ member)).1
      have inUse := (invariant.used other small).mpr (.inr member)
      have notHeld : other ∉ held := fun isHeld => invariant.apart other isHeld member
      have below : slot < other := by
        rcases Nat.lt_or_eq_of_le (Nat.not_lt.mp notBelow) with less | same
        · exact less
        · exact absurd (same ▸ inUse) isFree
      exact isFree (packed other small ⟨inUse, invariant.holder.not_has notHeld⟩ slot below)

end Slots

/-- `CurrentCount` counts the releases, none of which a wait takes back, and once
there has been one a worker is awake. -/
structure SemaphoreCounts (work : WorkQueue) : Prop where
  released : work.currentCount + work.releases = work.queued.length
  bounds : 0 ≤ work.currentCount ∧ work.currentCount ≤ 0x7FFFFFFF
  signaled : work.signaled = decide (work.currentCount > 0)
  once : work.waiters.Nodup
  listed : ∀ worker, worker ∈ work.waiters ↔ work.workers worker = .parked
  known : ∀ worker ∈ work.waiters, worker < workitemMaxThreads
  awake : 0 < work.currentCount → ∃ worker < workitemMaxThreads, work.workers worker ≠ .parked

section Semaphore

variable {work : WorkQueue}

section Counts

variable (counts : SemaphoreCounts work)
include counts

theorem SemaphoreCounts.setWorker {worker : Nat}
    {phase : WorkerPhase} (before : work.workers worker ≠ .parked) (later : phase ≠ .parked) :
    SemaphoreCounts (work.setWorker worker phase) := by
  refine ⟨counts.released, counts.bounds, counts.signaled, counts.once, ?_, counts.known, ?_⟩
  · intro other
    rw [workers_setWorker]
    show other ∈ work.waiters ↔ _
    rw [counts.listed other]
    by_cases same : other = worker
    · rw [if_pos same, same]
      exact ⟨fun parked => absurd parked before, fun parked => absurd parked later⟩
    · rw [if_neg same]
  · intro positive
    obtain ⟨other, inside, notParked⟩ := counts.awake positive
    refine ⟨other, inside, ?_⟩
    rw [workers_setWorker]
    split
    · exact later
    · exact notParked

theorem SemaphoreCounts.unlink {worker : Nat} (waiters : List Nat) (once : waiters.Nodup)
    (others : ∀ other, other ∈ waiters ↔ other ≠ worker ∧ other ∈ work.waiters) :
    SemaphoreCounts ({ work with waiters := waiters }.setWorker worker .dequeue) := by
  refine ⟨counts.released, counts.bounds, counts.signaled, once, ?_, ?_, ?_⟩
  · intro other
    rw [workers_setWorker]
    show other ∈ waiters ↔ _
    rw [others, counts.listed other]
    by_cases same : other = worker <;> simp [same]
  · intro other member
    exact counts.known other ((others other).mp member).2
  · intro positive
    obtain ⟨other, inside, notParked⟩ := counts.awake positive
    refine ⟨other, inside, ?_⟩
    rw [workers_setWorker]
    split
    · simp
    · exact notParked

theorem SemaphoreCounts.wait {worker : Nat} (inside : worker < workitemMaxThreads)
    (phase : work.workers worker = .wait) : SemaphoreCounts (waitWorkAvailable work worker) := by
  unfold waitWorkAvailable
  split
  · exact counts.setWorker (by simp [phase]) (by simp)
  rename_i unsignaled
  have none : work.currentCount = 0 := by
    have bounds := counts.bounds
    rw [counts.signaled, decide_eq_true_eq] at unsignaled
    omega
  have outside : worker ∉ work.waiters := by
    rw [counts.listed, phase]
    simp
  refine ⟨counts.released, counts.bounds, counts.signaled, ?_, ?_, ?_, ?_⟩
  · apply List.Nodup.append counts.once (nodup_singleton worker)
    rw [disjoint_singleton]
    exact outside
  · intro other
    rw [workers_setWorker]
    show other ∈ work.waiters ++ [worker] ↔ _
    rw [mem_append, mem_singleton, counts.listed other]
    by_cases same : other = worker <;> simp [same]
  · intro other member
    rcases mem_append.mp member with old | new
    · exact counts.known other old
    · rw [mem_singleton.mp new]
      exact inside
  · intro positive
    have zero : ¬ 0 < work.currentCount := by omega
    exact absurd positive zero

theorem SemaphoreCounts.release (positive : 0 < work.releases)
    (room : work.currentCount < 0x7FFFFFFF) :
    SemaphoreCounts (releaseWorkAvailable { work with releases := work.releases - 1 }) := by
  have bounds := counts.bounds
  have released := counts.released
  have sum : Ke.addLong work.currentCount 1 = work.currentCount + 1 := by
    rw [Ke.addLong, Int.bmod_eq_of_le (by omega) (by omega)]
  unfold releaseWorkAvailable
  dsimp only
  rw [sum, if_neg (by omega)]
  split
  · rename_i none
    refine ⟨by dsimp only; omega, ⟨by dsimp only; omega, by dsimp only; omega⟩, rfl, counts.once,
      counts.listed, counts.known, ?_⟩
    intro _
    refine ⟨0, by decide, ?_⟩
    intro parked
    have member := (counts.listed 0).mpr parked
    rw [none] at member
    cases member
  · rename_i worker waiters shape
    have once := counts.once
    rw [shape, nodup_cons] at once
    have others : ∀ other, other ∈ waiters ↔ other ≠ worker ∧ other ∈ work.waiters := by
      intro other
      rw [shape, mem_cons]
      constructor
      · intro member
        exact ⟨fun same => once.1 (same ▸ member), .inr member⟩
      · rintro ⟨different, same | later⟩
        · exact absurd same different
        · exact later
    have woken := counts.unlink waiters once.2 others
    refine ⟨?_, ⟨?_, ?_⟩, rfl, woken.once, woken.listed, woken.known, ?_⟩
    · show work.currentCount + 1 + ((work.releases - 1 : Nat) : Int) = work.queued.length
      omega
    · show 0 ≤ work.currentCount + 1
      omega
    · show work.currentCount + 1 ≤ 0x7FFFFFFF
      omega
    · intro _
      refine ⟨worker, counts.known worker (by rw [shape]; exact mem_cons_self), ?_⟩
      rw [workers_setWorker, if_pos rfl]
      simp

end Counts

end Semaphore

structure WorkInvariant (work : WorkQueue) : Prop where
  slots : ∃ held due pending, SlotsInvariant work held due pending
  semaphore : SemaphoreCounts work

theorem workInvariant_initial : WorkInvariant exInitializeWorkerFactory where
  slots := ⟨[], [], [], .nil, fun _ none => absurd none not_mem_nil,
    fun _ _ => by simp [exInitializeWorkerFactory, zeroItem],
    fun _ none => absurd none not_mem_nil, rfl, .none (fun _ => rfl)⟩
  semaphore := by
    refine ⟨rfl, by decide, rfl, nodup_nil, ?_, ?_, ?_⟩
    · simp [exInitializeWorkerFactory]
    · intro _ member
      cases member
    · intro positive
      cases positive

theorem SemaphoreCounts.queue {work : WorkQueue} (counts : SemaphoreCounts work)
    (request : WorkRequest) (queueType : WorkQueueType) (now : Int) :
    SemaphoreCounts (exQueueWorkItem work request queueType now).2 := by
  unfold exQueueWorkItem
  split
  · exact counts
  split
  · exact counts
  · refine ⟨?_, counts.bounds, counts.signaled, counts.once, counts.listed, counts.known,
      counts.awake⟩
    have released := counts.released
    dsimp only
    rw [length_append, length_singleton]
    omega

/-- One step keeps the items in order while one is at work. -/
theorem WorkInvariant.step {work after : WorkQueue} {label : WorkStep}
    (invariant : WorkInvariant work) (allowed : OneAtATime work label)
    (done : workStep work label = some after) : WorkInvariant after := by
  obtain ⟨held, due, pending, slots⟩ := invariant.slots
  have counts := invariant.semaphore
  cases label with
  | queue request queueType now =>
    cases done
    obtain ⟨rfl, packed⟩ := allowed
    exact ⟨⟨held, due, slots.queue request now packed⟩, counts.queue request _ now⟩
  | release =>
    obtain ⟨positive, same⟩ := ite_none_right_eq_some.mp done
    cases same
    refine ⟨⟨held, due, pending, ?_⟩, counts.release positive allowed⟩
    unfold releaseWorkAvailable
    dsimp only
    split
    · exact slots.semaphore _ _ _ _
    · rename_i worker waiters shape
      have parked := (counts.listed worker).mp (by rw [shape]; exact mem_cons_self)
      exact (slots.semaphore _ _ waiters _).setWorker (by dsimp only; rw [parked]; rfl) rfl
  | wait worker =>
    obtain ⟨⟨inside, phase⟩, same⟩ := ite_none_right_eq_some.mp done
    cases same
    refine ⟨⟨held, due, pending, ?_⟩, counts.wait inside phase⟩
    unfold waitWorkAvailable
    split
    · exact slots.setWorker (by rw [phase]; rfl) rfl
    · exact (slots.semaphore _ _ _ _).setWorker (by dsimp only; rw [phase]; rfl) rfl
  | giveUp worker =>
    obtain ⟨phase, same⟩ := ite_none_right_eq_some.mp done
    cases same
    refine ⟨⟨held, due, pending, ?_⟩, ?_⟩
    · exact (slots.semaphore _ _ _ _).setWorker (by dsimp only; rw [phase]; rfl) rfl
    · exact counts.unlink _ (counts.once.erase worker) (fun _ => counts.once.mem_erase_iff)
  | dequeue worker now =>
    obtain ⟨phase, same⟩ := ite_none_right_eq_some.mp done
    cases same
    refine ⟨slots.dequeue now phase allowed, ?_⟩
    unfold workItemDequeue
    split
    · exact counts.setWorker (by simp [phase]) (by simp)
    · exact counts.setWorker (by simp [phase]) (by simp)
  | call worker =>
    simp only [workStep] at done
    split at done
    · rename_i slot phase
      cases done
      refine ⟨⟨held, [], pending, slots.call phase⟩, ?_⟩
      unfold callRoutine
      dsimp only
      split
      · exact counts.setWorker (by simp [phase]) (by simp)
      · have moved : SemaphoreCounts (work.setWorker worker (.free slot)) :=
          counts.setWorker (by simp [phase]) (by simp)
        exact ⟨moved.released, moved.bounds, moved.signaled, moved.once, moved.listed,
          moved.known, moved.awake⟩
    · cases done
  | free worker =>
    simp only [workStep] at done
    split at done
    · rename_i slot phase
      cases done
      refine ⟨⟨[], [], pending, slots.free phase⟩, ?_⟩
      have moved : SemaphoreCounts (work.setWorker worker .dequeue) :=
        counts.setWorker (by simp [phase]) (by simp)
      exact ⟨moved.released, moved.bounds, moved.signaled, moved.once, moved.listed,
        moved.known, moved.awake⟩
    · cases done

/-- Items in order are delivered in order. -/
theorem WorkInvariant.delivered {work : WorkQueue} (invariant : WorkInvariant work) :
    Delivered work := by
  obtain ⟨held, due, pending, slots⟩ := invariant.slots
  have counts := invariant.semaphore
  have inUse : ∀ slot ∈ due ++ pending, (work.slots slot).inUse = true := by
    intro slot member
    apply (slots.used slot (slots.items slot member).1).mpr
    rcases mem_append.mp member with isDue | later
    · exact .inl (slots.holder.due_held slot isDue)
    · exact .inr later
  constructor
  · exact ⟨_, slots.log.symm⟩
  · intro call member
    rw [slots.log, drop_left, List.mem_map] at member
    obtain ⟨slot, listed, rfl⟩ := member
    obtain ⟨inside, _, some⟩ := slots.items slot listed
    obtain ⟨routine, known⟩ := isSome_iff_exists.mp some
    refine ⟨slot, inside, inUse slot listed, ?_, rfl, rfl⟩
    simp [WorkQueue.callAt, known]
  · intro slot inside isUsed noneToCome
    apply counts.awake
    have released := counts.released
    have length : 0 < work.queued.length := by
      rw [slots.log, length_append, length_map, length_append]
      rcases (slots.used slot inside).mp isUsed with isHeld | later
      · cases slots.holder with
        | none _ => cases isHeld
        | calls _ _ _ _ =>
          rw [length_singleton]
          omega
        | frees _ _ _ _ logged => exact Nat.add_pos_left (length_pos_of_ne_nil logged) _
      · have some := length_pos_of_mem later
        omega
    omega

/-- The items of a run are delivered if they are queued and got one at a time. -/
theorem workItems_delivered (work : WorkQueue)
    (run : Reaches workStep OneAtATime exInitializeWorkerFactory work) : Delivered work :=
  (run.invariant workInvariant_initial
    (fun _ _ _ invariant allowed done => invariant.step allowed done)).delivered

/-- An item is queued, released and called by the one worker that runs. -/
theorem workItems_delivered_one : ∃ work, work.called = [⟨0, 7, 42⟩] ∧ Delivered work := by
  have packed : OneAtATime exInitializeWorkerFactory (.queue ⟨some 7, 42, 0⟩ .criticalWorkItem 0) :=
    ⟨rfl, fun _ _ unstarted => by cases unstarted.1⟩
  have initial : Reaches workStep OneAtATime exInitializeWorkerFactory _ := .start
  have queued := initial.step packed rfl
  have released := queued.step (show OneAtATime _ .release from
    (by decide : (0 : Int) < 0x7FFFFFFF)) rfl
  have woken := released.step (show OneAtATime _ (.wait 0) from trivial) rfl
  have got := woken.step
    (show OneAtATime _ (.dequeue 0 0) from fun other different => by
      show (update (fun _ => WorkerPhase.wait) 0 .dequeue other).busy = false
      rw [update_of_ne different]
      rfl) rfl
  have called := got.step (show OneAtATime _ (.call 0) from trivial) rfl
  exact ⟨_, rfl, workItems_delivered _ called⟩

/-- Two workers get the same item, and its routine is called twice. -/
theorem workItems_notDelivered :
    ∃ work, Reaches workStep (fun _ _ => True) exInitializeWorkerFactory work ∧
      work.called = [⟨0, 7, 42⟩, ⟨0, 7, 42⟩] ∧ ¬ Delivered work := by
  have run : runFrom workStep exInitializeWorkerFactory
      [.queue ⟨some 7, 42, 0⟩ .criticalWorkItem 0, .release, .wait 0, .wait 1, .dequeue 0 0,
        .dequeue 1 0, .call 0, .call 1] = some _ := rfl
  refine ⟨_, reaches_of_runFrom run, rfl, fun delivered => ?_⟩
  have short := delivered.inOrder.length_le
  exact absurd short (by decide)

end MinNT.Ex
