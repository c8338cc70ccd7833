import Mathlib.Data.List.Nodup
import MinNT.Lib.Transition
import MinNT.Win32k.MessageQueue

namespace MinNT.Win32k

open List Function Option Transition

/-! Threads that get messages from one queue, and its auto-reset event. -/

/-- What the two kinds of queues differ in: their capacity, the filters of a get
and the messages of a post. -/
structure QueueKind (φ ψ : Type) where
  capacity : Nat
  accepts : φ → W32kMsg → Bool
  write : ψ → W32kMsg → W32kMsg

/-- What is posted to the system message queue. -/
structure SystemPost where
  hWnd : UInt64
  posted : PostedMsg
  keTickCount : UInt32
deriving DecidableEq, Repr

/-- `UserGetMessage` and the posts of usermsg.c. -/
def systemKind : QueueKind MsgFilter SystemPost where
  capacity := w32MsgqueueSize
  accepts := MsgFilter.accepts
  write := fun post _ =>
    ⟨post.hWnd, post.posted.msg, post.posted.wParam, post.posted.lParam, post.keTickCount, ⟨0, 0⟩⟩

/-- `UserGetMessageForThread` and the posts of queue.c. -/
def threadKind : QueueKind (UInt32 × UInt32) (PostedMsg × UInt32) where
  capacity := queueSize
  accepts := fun range => threadAccepts range.1 range.2
  write := fun post => post.1.write post.2

/-- Where a thread is in its get: before it searches the queue, behind a search
without result, behind a test of the event that found it signaled or not, or on
the wait list. -/
inductive GetPhase where
  | away
  | search
  | missed
  | signaled
  | unsignaled
  | blocked
deriving DecidableEq, Repr

structure Getter (φ : Type) where
  filter : φ
  phase : GetPhase

/-- The queue, `SignalState` and `WaitListHead` of its event, the threads, and the
posters that have not come to their `KeSetEvent` yet. -/
structure MessageWaits (φ : Type) where
  queue : MsgRing
  signaled : Bool
  waiters : List Nat
  getters : Nat → Getter φ
  sets : Nat

inductive WaitStep (φ ψ : Type) where
  | get (thread : Nat) (filter : φ)
  | search (thread : Nat)
  | test (thread : Nat)
  | consume (thread : Nat)
  | block (thread : Nat)
  | giveUp (thread : Nat)
  | post (message : ψ)
  | set
  | peek (filter : φ) (remove : Bool)

section Steps

variable {φ ψ : Type}

def MessageWaits.setPhase (waits : MessageWaits φ) (thread : Nat) (phase : GetPhase) :
    MessageWaits φ :=
  { waits with
    getters := update waits.getters thread { waits.getters thread with phase := phase } }

def emptyWaits (filter : φ) : MessageWaits φ := ⟨zeroRing, false, [], fun _ => ⟨filter, .away⟩, 0⟩

/-- The locked search of a get, which takes its message out. -/
def searchStep (kind : QueueKind φ ψ) (waits : MessageWaits φ) (thread : Nat) : MessageWaits φ :=
  match waits.queue.find kind.capacity (kind.accepts (waits.getters thread).filter) true with
  | none => waits.setPhase thread .missed
  | some (_, queue) => { waits with queue := queue }.setPhase thread .away

/-- The first test of `KeWaitForSingleObject`. -/
def testStep (waits : MessageWaits φ) (thread : Nat) : MessageWaits φ :=
  waits.setPhase thread (if waits.signaled then .signaled else .unsignaled)

/-- `KeSetEvent`: the first thread of the wait list is woken, or the event stays
signaled. -/
def setStep (waits : MessageWaits φ) : MessageWaits φ :=
  match waits.waiters with
  | [] => { waits with signaled := true }
  | thread :: waiters =>
    { waits with signaled := false, waiters := waiters }.setPhase thread .search

/-- A step of one of the threads or posters. In `giveUp` the dispatcher has found
no other thread to run, and the wait returns. -/
def waitStep (kind : QueueKind φ ψ) (waits : MessageWaits φ) :
    WaitStep φ ψ → Option (MessageWaits φ)
  | .get thread filter =>
      if (waits.getters thread).phase = .away then
        some { waits with getters := update waits.getters thread ⟨filter, .search⟩ }
      else none
  | .search thread =>
      if (waits.getters thread).phase = .search then some (searchStep kind waits thread) else none
  | .test thread =>
      if (waits.getters thread).phase = .missed then some (testStep waits thread) else none
  | .consume thread =>
      if (waits.getters thread).phase = .signaled then
        some ({ waits with signaled := false }.setPhase thread .search)
      else none
  | .block thread =>
      if (waits.getters thread).phase = .unsignaled then
        some ({ waits with waiters := waits.waiters ++ [thread] }.setPhase thread .blocked)
      else none
  | .giveUp thread =>
      if (waits.getters thread).phase = .blocked then
        some ({ waits with waiters := waits.waiters.erase thread }.setPhase thread .search)
      else none
  | .post message =>
      match waits.queue.push kind.capacity (kind.write message) with
      | none => some waits
      | some queue => some { waits with queue := queue, sets := waits.sets + 1 }
  | .set => if 0 < waits.sets then some { setStep waits with sets := waits.sets - 1 } else none
  | .peek filter remove =>
      match waits.queue.find kind.capacity (kind.accepts filter) remove with
      | none => some waits
      | some (_, queue) => some { waits with queue := queue }

/-- A `KeSetEvent` to come will wake the thread. -/
def MessageWaits.wakePending (waits : MessageWaits φ) (thread : Nat) : Prop :=
  thread ∈ waits.waiters.take waits.sets

/-- No thread is blocked while a message for it is in the queue and no wake-up of
it is pending. -/
def NoLostWakeup (kind : QueueKind φ ψ) (waits : MessageWaits φ) : Prop :=
  ∀ thread, (waits.getters thread).phase = .blocked →
    ∀ message ∈ waits.queue.contents kind.capacity,
      kind.accepts (waits.getters thread).filter message = true → waits.wakePending thread

/-- No message in the queue is for the thread. -/
def NothingFor (kind : QueueKind φ ψ) (waits : MessageWaits φ) (thread : Nat) : Prop :=
  ∀ message ∈ waits.queue.contents kind.capacity,
    kind.accepts (waits.getters thread).filter message = false

/-- A message that is queued is for none of the blocked threads except the first
ones, as many as there are sets to come with the one of this post. A thread goes
onto the wait list while nothing is in the queue for it, or while more sets are to
come than threads wait. -/
def WakesReach (kind : QueueKind φ ψ) (waits : MessageWaits φ) : WaitStep φ ψ → Prop
  | .post message => waits.queue.count < kind.capacity → ∀ thread,
      (waits.getters thread).phase = .blocked →
      kind.accepts (waits.getters thread).filter
          (kind.write message (waits.queue.slots waits.queue.tail)) = true →
      thread ∈ waits.waiters.take (waits.sets + 1)
  | .block thread => NothingFor kind waits thread ∨ waits.waiters.length < waits.sets
  | _ => True

structure WaitInvariant (kind : QueueKind φ ψ) (waits : MessageWaits φ) : Prop where
  ring : RingBuffer.Sound kind.capacity waits.queue
  once : waits.waiters.Nodup
  listed : ∀ thread, thread ∈ waits.waiters ↔ (waits.getters thread).phase = .blocked
  wakeups : NoLostWakeup kind waits

section Invariant

variable {kind : QueueKind φ ψ} {waits after : MessageWaits φ}

theorem getters_setPhase (thread other : Nat) (phase : GetPhase) :
    (waits.setPhase thread phase).getters other =
      if other = thread then { waits.getters thread with phase := phase }
      else waits.getters other := by
  simp only [MessageWaits.setPhase, Function.update_apply]

theorem filter_setPhase (thread other : Nat) (phase : GetPhase) :
    ((waits.setPhase thread phase).getters other).filter = (waits.getters other).filter := by
  rw [getters_setPhase]
  split
  · rename_i same
    rw [same]
  · rfl

theorem phase_setPhase (thread other : Nat) (phase : GetPhase) :
    ((waits.setPhase thread phase).getters other).phase =
      if other = thread then phase else (waits.getters other).phase := by
  rw [getters_setPhase]
  split <;> rfl

theorem WaitInvariant.fewer (invariant : WaitInvariant kind waits)
    (ring : RingBuffer.Sound kind.capacity after.queue)
    (fewer : after.queue.contents kind.capacity ⊆ waits.queue.contents kind.capacity)
    (once : after.waiters.Nodup)
    (listed : ∀ thread, thread ∈ after.waiters ↔ (after.getters thread).phase = .blocked)
    (blocked : ∀ thread, (after.getters thread).phase = .blocked →
      (waits.getters thread).phase = .blocked ∧
        (after.getters thread).filter = (waits.getters thread).filter ∧
        (waits.wakePending thread → after.wakePending thread)) : WaitInvariant kind after := by
  refine ⟨ring, once, listed, ?_⟩
  intro thread waiting message member accepted
  obtain ⟨before, same, pending⟩ := blocked thread waiting
  rw [same] at accepted
  exact pending (invariant.wakeups thread before message (fewer member) accepted)

theorem WaitInvariant.setPhase (invariant : WaitInvariant kind waits) {thread : Nat}
    {phase : GetPhase} (awake : (waits.getters thread).phase ≠ .blocked)
    (stays : phase ≠ .blocked) : WaitInvariant kind (waits.setPhase thread phase) := by
  apply invariant.fewer
  · exact invariant.ring
  · exact List.Subset.refl _
  · exact invariant.once
  · intro other
    rw [phase_setPhase]
    by_cases same : other = thread
    · rw [if_pos same, same]
      simp only [stays, iff_false]
      exact fun member => awake ((invariant.listed thread).mp member)
    · rw [if_neg same]
      exact invariant.listed other
  · intro other waiting
    rw [phase_setPhase] at waiting
    split at waiting
    · exact absurd waiting stays
    · exact ⟨waiting, filter_setPhase _ _ _, id⟩

section Invariant

variable (invariant : WaitInvariant kind waits)
include invariant

theorem WaitInvariant.withQueue {queue : MsgRing} (ring : RingBuffer.Sound kind.capacity queue)
    (fewer : queue.contents kind.capacity ⊆ waits.queue.contents kind.capacity) :
    WaitInvariant kind { waits with queue := queue } :=
  invariant.fewer ring fewer invariant.once invariant.listed (fun _ waiting => ⟨waiting, rfl, id⟩)

theorem WaitInvariant.found {accepts : W32kMsg → Bool}
    {remove : Bool} {message : W32kMsg} {queue : MsgRing}
    (found : waits.queue.find kind.capacity accepts remove = some (message, queue)) :
    WaitInvariant kind { waits with queue := queue } := by
  rcases RingBuffer.find_spec accepts remove invariant.ring with
    ⟨missing, -⟩ | ⟨message', queue', found', -, sound, contents⟩
  · rw [missing] at found
    cases found
  · rw [found'] at found
    cases found
    apply invariant.withQueue sound
    rw [contents]
    split
    · exact eraseP_subset
    · exact List.Subset.refl _

theorem WaitInvariant.search {thread : Nat} (phase : (waits.getters thread).phase = .search) :
    WaitInvariant kind (searchStep kind waits thread) := by
  have awake : (waits.getters thread).phase ≠ .blocked := by simp [phase]
  unfold searchStep
  split
  · exact invariant.setPhase awake (by simp)
  · rename_i found
    exact (invariant.found found).setPhase awake (by simp)

end Invariant

theorem WaitInvariant.block (invariant : WaitInvariant kind waits) {thread : Nat}
    (phase : (waits.getters thread).phase = .unsignaled)
    (reach : WakesReach kind waits (.block thread)) :
    WaitInvariant kind
      ({ waits with waiters := waits.waiters ++ [thread] }.setPhase thread .blocked) := by
  have outside : thread ∉ waits.waiters := by
    rw [invariant.listed thread, phase]
    simp
  refine ⟨invariant.ring, ?_, ?_, ?_⟩
  · apply List.Nodup.append invariant.once (nodup_singleton thread)
    rw [disjoint_singleton]
    exact outside
  · intro other
    rw [phase_setPhase]
    show other ∈ waits.waiters ++ [thread] ↔ _
    rw [mem_append, mem_singleton, invariant.listed other]
    by_cases same : other = thread <;> simp [same]
  · intro other waiting message member accepted
    rw [filter_setPhase] at accepted
    show other ∈ (waits.waiters ++ [thread]).take waits.sets
    by_cases same : other = thread
    · subst same
      rcases reach with nothing | short
      · rw [nothing message member] at accepted
        cases accepted
      · rw [take_of_length_le (by simp; omega)]
        exact mem_append_right _ (mem_singleton_self _)
    · rw [phase_setPhase, if_neg same] at waiting
      have pending := invariant.wakeups other waiting message member accepted
      rw [take_append]
      exact mem_append_left _ pending

theorem mem_take_erase {thread other : Nat} (different : other ≠ thread) {count : Nat}
    {threads : List Nat} (member : other ∈ threads.take count) :
    other ∈ (threads.erase thread).take count := by
  induction threads generalizing count with
  | nil => simp at member
  | cons first threads ih =>
    cases count with
    | zero => simp at member
    | succ count =>
      rw [take_succ_cons, mem_cons] at member
      by_cases same : first = thread
      · rw [same, erase_cons_head]
        rcases member with rfl | later
        · exact absurd same different
        · exact (take_prefix_take_left (Nat.le_succ count)).subset later
      · rw [erase_cons_tail (by simpa using same), take_succ_cons, mem_cons]
        rcases member with rfl | later
        · exact .inl rfl
        · exact .inr (ih later)

section Invariant

variable (invariant : WaitInvariant kind waits)
include invariant

theorem WaitInvariant.unlink {thread : Nat}
    (waiters : List Nat) (once : waiters.Nodup) (signaled : Bool) (sets : Nat)
    (others : ∀ other, other ∈ waiters ↔ other ≠ thread ∧ other ∈ waits.waiters)
    (earlier : ∀ other, other ≠ thread → waits.wakePending other → other ∈ waiters.take sets) :
    WaitInvariant kind
      ({ waits with waiters := waiters, signaled := signaled, sets := sets }.setPhase
        thread .search) := by
  apply invariant.fewer
  · exact invariant.ring
  · exact List.Subset.refl _
  · exact once
  · intro other
    rw [phase_setPhase]
    show other ∈ waiters ↔ _
    rw [others, invariant.listed other]
    by_cases same : other = thread <;> simp [same]
  · intro other waiting
    rw [phase_setPhase] at waiting
    by_cases same : other = thread
    · rw [if_pos same] at waiting
      cases waiting
    · rw [if_neg same] at waiting
      exact ⟨waiting, filter_setPhase _ _ _, earlier other same⟩

theorem WaitInvariant.giveUp (thread : Nat) :
    WaitInvariant kind
      ({ waits with waiters := waits.waiters.erase thread }.setPhase thread .search) :=
  invariant.unlink (waits.waiters.erase thread) (invariant.once.erase thread) waits.signaled
    waits.sets (fun _ => invariant.once.mem_erase_iff)
    (fun _ different pending => mem_take_erase different pending)

theorem WaitInvariant.set (positive : 0 < waits.sets) :
    WaitInvariant kind { setStep waits with sets := waits.sets - 1 } := by
  unfold setStep
  split
  · rename_i shape
    apply invariant.fewer
    · exact invariant.ring
    · exact List.Subset.refl _
    · exact invariant.once
    · exact invariant.listed
    · intro thread waiting
      have listed := (invariant.listed thread).mpr waiting
      rw [shape] at listed
      cases listed
  · rename_i first waiters shape
    have once := invariant.once
    rw [shape, nodup_cons] at once
    apply invariant.unlink waiters once.2 false (waits.sets - 1)
    · intro other
      rw [shape, mem_cons]
      constructor
      · intro member
        exact ⟨fun same => once.1 (same ▸ member), .inr member⟩
      · rintro ⟨different, same | later⟩
        · exact absurd same different
        · exact later
    · intro other different pending
      obtain ⟨sets, same⟩ := Nat.exists_eq_succ_of_ne_zero (Nat.ne_of_gt positive)
      unfold MessageWaits.wakePending at pending
      rw [shape, same, Nat.succ_eq_add_one, take_succ_cons, mem_cons] at pending
      rw [same, Nat.succ_sub_one]
      exact pending.resolve_left different

theorem WaitInvariant.post {message : ψ} (reach : WakesReach kind waits (.post message))
    {queue : MsgRing} (pushed : waits.queue.push kind.capacity (kind.write message) = some queue) :
    WaitInvariant kind { waits with queue := queue, sets := waits.sets + 1 } := by
  obtain ⟨room, sound, contents⟩ := RingBuffer.push_some invariant.ring pushed
  refine ⟨sound, invariant.once, invariant.listed, ?_⟩
  intro thread waiting posted member accepted
  rw [contents, mem_append, mem_singleton] at member
  rcases member with old | new
  · exact (take_prefix_take_left (Nat.le_succ _)).subset
      (invariant.wakeups thread waiting posted old accepted)
  · rw [new] at accepted
    exact reach room thread waiting accepted

/-- A thread may begin a wait. -/
theorem WaitInvariant.get {thread : Nat} (filter : φ)
    (away : (waits.getters thread).phase = .away) :
    WaitInvariant kind
      { waits with getters := update waits.getters thread ⟨filter, .search⟩ } := by
  have phases : ∀ other,
      (update waits.getters thread ⟨filter, .search⟩ other).phase =
        if other = thread then .search else (waits.getters other).phase := by
    intro other
    rw [Function.update_apply]
    split <;> rfl
  have others : ∀ other, other ≠ thread →
      update waits.getters thread ⟨filter, .search⟩ other = waits.getters other :=
    fun _ different => Function.update_of_ne different _ _
  apply invariant.fewer
  · exact invariant.ring
  · exact List.Subset.refl _
  · exact invariant.once
  · intro other
    show other ∈ waits.waiters ↔ _
    rw [phases, invariant.listed other]
    by_cases same : other = thread <;> simp [same, away]
  · intro other waiting
    by_cases same : other = thread
    · simp [same] at waiting
    · dsimp only at waiting ⊢
      rw [others other same] at waiting ⊢
      exact ⟨waiting, rfl, id⟩

end Invariant

/-- A step whose wakes reach loses no wakeup. -/
theorem WaitInvariant.step (invariant : WaitInvariant kind waits) {label : WaitStep φ ψ}
    (reach : WakesReach kind waits label) (done : waitStep kind waits label = some after) :
    WaitInvariant kind after := by
  cases label with
  | get thread filter =>
    obtain ⟨away, same⟩ := ite_none_right_eq_some.mp done
    cases same
    exact invariant.get filter away
  | search thread =>
    obtain ⟨phase, same⟩ := ite_none_right_eq_some.mp done
    cases same
    exact invariant.search phase
  | test thread =>
    obtain ⟨phase, same⟩ := ite_none_right_eq_some.mp done
    cases same
    apply invariant.setPhase (by simp [phase])
    split <;> simp
  | consume thread =>
    obtain ⟨phase, same⟩ := ite_none_right_eq_some.mp done
    cases same
    have reset : WaitInvariant kind { waits with signaled := false } :=
      invariant.fewer invariant.ring (List.Subset.refl _) invariant.once invariant.listed
        (fun _ waiting => ⟨waiting, rfl, id⟩)
    exact reset.setPhase (by simp [phase]) (by simp)
  | block thread =>
    obtain ⟨phase, same⟩ := ite_none_right_eq_some.mp done
    cases same
    exact invariant.block phase reach
  | giveUp thread =>
    obtain ⟨-, same⟩ := ite_none_right_eq_some.mp done
    cases same
    exact invariant.giveUp thread
  | post message =>
    simp only [waitStep] at done
    split at done
    · cases done
      exact invariant
    · rename_i queue pushed
      cases done
      exact invariant.post reach pushed
  | set =>
    obtain ⟨positive, same⟩ := ite_none_right_eq_some.mp done
    cases same
    exact invariant.set positive
  | peek filter remove =>
    simp only [waitStep] at done
    split at done
    · cases done
      exact invariant
    · rename_i message queue found
      cases done
      exact invariant.found found

theorem WaitInvariant.reach_of_noLost (invariant : WaitInvariant kind waits)
    {label : WaitStep φ ψ} (done : waitStep kind waits label = some after)
    (noLost : NoLostWakeup kind after) : WakesReach kind waits label := by
  cases label with
  | post message =>
    intro room thread waiting accepted
    obtain ⟨queue, pushed, -, contents⟩ :=
      RingBuffer.push_room (kind.write message) invariant.ring room
    simp only [waitStep, pushed] at done
    cases done
    apply noLost thread waiting _ _ accepted
    rw [contents]
    exact mem_append_right _ (mem_singleton_self _)
  | block thread =>
    obtain ⟨phase, same⟩ := ite_none_right_eq_some.mp done
    cases same
    have outside : thread ∉ waits.waiters := by
      rw [invariant.listed thread, phase]
      simp
    by_cases short : waits.waiters.length < waits.sets
    · exact .inr short
    left
    intro message member
    by_contra accepted
    have pending : thread ∈ (waits.waiters ++ [thread]).take waits.sets := by
      apply noLost thread (by simp [phase_setPhase]) message member
      rw [filter_setPhase]
      exact Bool.eq_true_of_not_eq_false accepted
    rw [take_append_of_le_length (by omega)] at pending
    exact outside (mem_of_mem_take pending)
  | _ => trivial

end Invariant

theorem waitInvariant_empty (kind : QueueKind φ ψ) (positive : 0 < kind.capacity) (filter : φ) :
    WaitInvariant kind (emptyWaits filter) where
  ring := RingBuffer.sound_empty positive _
  once := nodup_nil
  listed := fun _ => by simp [emptyWaits]
  wakeups := fun _ waiting => by simp [emptyWaits] at waiting

/-- No wake-up is lost while all wake-ups reach the threads they are for, and a
step loses one exactly if its wake-up does not. -/
theorem noLostWakeup_of_reaches {kind : QueueKind φ ψ} (positive : 0 < kind.capacity)
    {filter : φ} {waits : MessageWaits φ}
    (run : Reaches (waitStep kind) (WakesReach kind) (emptyWaits filter) waits) :
    NoLostWakeup kind waits ∧ ∀ label after, waitStep kind waits label = some after →
      (NoLostWakeup kind after ↔ WakesReach kind waits label) := by
  have invariant : WaitInvariant kind waits :=
    run.invariant (waitInvariant_empty kind positive filter)
      (fun _ _ _ invariant reach done => invariant.step reach done)
  exact ⟨invariant.wakeups, fun _ _ done =>
    ⟨invariant.reach_of_noLost done, fun reach => (invariant.step reach done).wakeups⟩⟩

end Steps

/-- On the system queue and on a thread queue no wake-up is lost as long as all
wake-ups reach the threads they are for, and only a step whose wake-up does not
loses one. -/
theorem getMessage_noLostWakeup (system : MessageWaits MsgFilter)
    (thread : MessageWaits (UInt32 × UInt32)) :
    (Reaches (waitStep systemKind) (WakesReach systemKind) (emptyWaits ⟨0, 0, 0⟩) system →
      NoLostWakeup systemKind system ∧
        ∀ label after, waitStep systemKind system label = some after →
          (NoLostWakeup systemKind after ↔ WakesReach systemKind system label)) ∧
    (Reaches (waitStep threadKind) (WakesReach threadKind) (emptyWaits (0, 0)) thread →
      NoLostWakeup threadKind thread ∧
        ∀ label after, waitStep threadKind thread label = some after →
          (NoLostWakeup threadKind after ↔ WakesReach threadKind thread label)) :=
  ⟨noLostWakeup_of_reaches (by decide), noLostWakeup_of_reaches (by decide)⟩

/-- A thread looks for the messages of a window and is about to wait. -/
def searchForWindow (thread : Nat) (hWnd : UInt64) : List (WaitStep MsgFilter SystemPost) :=
  [.get thread ⟨hWnd, 0, 0⟩, .search thread, .test thread]

theorem searchForWindow_run {waits : MessageWaits MsgFilter} {thread : Nat} {hWnd : UInt64}
    (away : (waits.getters thread).phase = .away) (unsignaled : waits.signaled = false)
    (nothing : waits.queue.find systemKind.capacity (systemKind.accepts ⟨hWnd, 0, 0⟩) true = none) :
    runFrom (waitStep systemKind) waits (searchForWindow thread hWnd) =
      some { waits with
        getters := update waits.getters thread ⟨⟨hWnd, 0, 0⟩, .unsignaled⟩ } := by
  simp [searchForWindow, runFrom, waitStep, away, searchStep, nothing, testStep, unsignaled,
    MessageWaits.setPhase]

/-- A message for window 1. -/
def windowMessage : SystemPost := ⟨1, ⟨7, 0, 0⟩, 0⟩

/-- A message for the one thread that waits. -/
theorem getMessage_noLostWakeup_oneWaiter :
    ∃ waits, waits.waiters = [0] ∧ waits.queue.count = 1 ∧ NoLostWakeup systemKind waits := by
  have always : ∀ label ∈ searchForWindow 0 1, ∀ waits, WakesReach systemKind waits label := by
    simp [searchForWindow, WakesReach]
  have searched := Reaches.start.append always
    (@searchForWindow_run (emptyWaits ⟨0, 0, 0⟩) 0 1 rfl rfl rfl)
  have blocked := searched.step
    (show WakesReach systemKind _ (.block 0) from Or.inl (fun _ member => by cases member)) rfl
  refine ⟨_, ?_, ?_, ((getMessage_noLostWakeup _ (emptyWaits (0, 0))).1
    (blocked.step ?_ (rfl : waitStep systemKind _ (.post windowMessage) = some _))).1⟩
  · rfl
  · rfl
  · intro _ thread waiting _
    by_cases same : thread = 0
    · subst same
      exact mem_singleton_self _
    · simp [MessageWaits.setPhase, emptyWaits, same] at waiting

/-- Two threads wait for different windows, and a message for the second one wakes
the first one. -/
theorem getMessage_lostWakeup :
    ∃ waits, Reaches (waitStep systemKind) (fun _ _ => True) (emptyWaits ⟨0, 0, 0⟩) waits ∧
      ¬ NoLostWakeup systemKind waits := by
  have run : runFrom (waitStep systemKind) (emptyWaits ⟨0, 0, 0⟩)
      (searchForWindow 0 2 ++ [.block 0] ++ searchForWindow 1 1 ++
        [.block 1, .post windowMessage, .set]) = some _ := rfl
  refine ⟨_, reaches_of_runFrom run, fun noLost => ?_⟩
  have pending := noLost 1 rfl (systemKind.write windowMessage zeroMsg) (by decide) (by decide)
  exact absurd (show 1 ∈ ([] : List Nat) from pending) not_mem_nil

end MinNT.Win32k
