import MinNT.Ex.PushLock

namespace MinNT.Ex

open Transition PushThread

/-- The shared holders of the lock: a thread that has acquired it twice is
counted twice. -/
def sharedHolders (threads : Nat) (lock : PushLock) : Nat :=
  ∑ thread ∈ Finset.range threads, (lock.threads thread).shared

def exclusiveHolders (threads : Nat) (lock : PushLock) : Nat :=
  ∑ thread ∈ Finset.range threads, (lock.threads thread).exclusive.toNat

/-- A thread that releases holds what it releases. -/
structure PushThread.Ok (thread : PushThread) : Prop where
  shared : ∀ state, thread.phase = .releaseShared state → 0 < thread.shared
  exclusive : ∀ state, thread.phase = .releaseExclusive state → thread.exclusive = true

theorem PushThread.ok_of_phase {thread : PushThread}
    (shared : ∀ state, thread.phase ≠ .releaseShared state)
    (exclusive : ∀ state, thread.phase ≠ .releaseExclusive state) : thread.Ok :=
  ⟨fun state same => absurd same (shared state), fun state same => absurd same (exclusive state)⟩

/-- A step that leaves the word and the holds alone, or one of the four
successful compare-and-swaps and the one that marks a waiter. -/
inductive PushEffect (word : LockWord) (thread : PushThread) : LockWord → PushThread → Prop
  | quiet {after : PushThread} (shared : after.shared = thread.shared)
      (exclusive : after.exclusive = thread.exclusive) : PushEffect word thread word after
  | acquireShared {after : PushThread} (free : word &&& pushlockExclusive = 0)
      (room : word &&& pushlockSharedMask < pushlockSharedMask)
      (shared : after.shared = thread.shared + 1)
      (exclusive : after.exclusive = thread.exclusive) :
      PushEffect word thread ((word + 1) &&& pushlockSharedMask) after
  | releaseShared {after : PushThread} (held : word &&& pushlockSharedMask ≠ 0)
      (shared : after.shared + 1 = thread.shared)
      (exclusive : after.exclusive = thread.exclusive) : PushEffect word thread (word - 1) after
  | acquireExclusive {after : PushThread} (free : word = 0) (shared : after.shared = thread.shared)
      (exclusive : after.exclusive = true) :
      PushEffect word thread (pushlockExclusive ||| pushlockWaiting) after
  | markWaiting {after : PushThread} (shared : after.shared = thread.shared)
      (exclusive : after.exclusive = thread.exclusive) :
      PushEffect word thread (word ||| pushlockWaiting) after
  | releaseExclusive {after : PushThread} (held : thread.exclusive = true)
      (shared : after.shared = thread.shared) (exclusive : after.exclusive = false) :
      PushEffect word thread (word &&& ~~~(pushlockExclusive ||| pushlockWaiting)) after

section Effects

variable {word state : LockWord} {thread : PushThread}

theorem acquireShared_effect :
    PushEffect word thread (exAcquirePushLockShared word state thread).1
        (exAcquirePushLockShared word state thread).2 ∧
      (exAcquirePushLockShared word state thread).2.Ok := by
  unfold exAcquirePushLockShared
  split
  · rename_i free
    split
    · rename_i same
      subst same
      exact ⟨.acquireShared free.1 free.2 rfl rfl, ok_of_phase (by simp) (by simp)⟩
    · exact ⟨.quiet rfl rfl, ok_of_phase (by simp) (by simp)⟩
  · exact ⟨.quiet rfl rfl, ok_of_phase (by simp) (by simp)⟩

theorem releaseShared_effect (held : 0 < thread.shared) :
    PushEffect word thread (exReleasePushLockShared word state thread).1
        (exReleasePushLockShared word state thread).2 ∧
      (exReleasePushLockShared word state thread).2.Ok := by
  unfold exReleasePushLockShared
  split
  · exact ⟨.quiet rfl rfl, ok_of_phase (by simp) (by simp)⟩
  rename_i counted
  split
  · rename_i same
    subst same
    refine ⟨.releaseShared counted (Nat.sub_add_cancel held) rfl, ?_⟩
    constructor
    · intro state phase
      dsimp only at phase
      split at phase <;> cases phase
    · intro state phase
      dsimp only at phase
      split at phase <;> cases phase
  · exact ⟨.quiet rfl rfl, fun _ _ => held, by simp⟩

theorem acquireExclusive_effect :
    PushEffect word thread (exAcquirePushLockExclusive word state thread).1
        (exAcquirePushLockExclusive word state thread).2 ∧
      (exAcquirePushLockExclusive word state thread).2.Ok := by
  unfold exAcquirePushLockExclusive
  split
  · rename_i empty
    split
    · rename_i same
      exact ⟨.acquireExclusive (same.trans empty) rfl rfl, ok_of_phase (by simp) (by simp)⟩
    · exact ⟨.quiet rfl rfl, ok_of_phase (by simp) (by simp)⟩
  · split
    · rename_i same
      subst same
      exact ⟨.markWaiting rfl rfl, ok_of_phase (by simp) (by simp)⟩
    · exact ⟨.quiet rfl rfl, ok_of_phase (by simp) (by simp)⟩

theorem releaseExclusive_effect (held : thread.exclusive = true) :
    PushEffect word thread (exReleasePushLockExclusive word state thread).1
        (exReleasePushLockExclusive word state thread).2 ∧
      (exReleasePushLockExclusive word state thread).2.Ok := by
  unfold exReleasePushLockExclusive
  dsimp only
  split
  · rename_i same
    subst same
    refine ⟨.releaseExclusive held rfl rfl, ?_⟩
    constructor
    · intro state phase
      dsimp only at phase
      split at phase <;> cases phase
    · intro state phase
      dsimp only at phase
      split at phase <;> cases phase
  · exact ⟨.quiet rfl rfl, by simp, fun _ _ => held⟩

theorem advanceThread_effect (ok : thread.Ok) {result : LockWord × PushThread}
    (done : advanceThread word thread = some result) :
    PushEffect word thread result.1 result.2 ∧ result.2.Ok := by
  unfold advanceThread at done
  cases phase : thread.phase with
  | idle =>
    rw [phase] at done
    cases done
  | acquireShared state =>
    rw [phase] at done
    cases done
    exact acquireShared_effect
  | releaseShared state =>
    rw [phase] at done
    cases done
    exact releaseShared_effect (ok.shared state phase)
  | acquireExclusive state =>
    rw [phase] at done
    cases done
    exact acquireExclusive_effect
  | spin count | recheck =>
    rw [phase] at done
    cases done
    refine ⟨.quiet rfl rfl, ok_of_phase ?_ ?_⟩
    · intro state
      dsimp only
      split <;> simp
    · intro state
      dsimp only
      split <;> simp
  | releaseExclusive state =>
    rw [phase] at done
    cases done
    exact releaseExclusive_effect (ok.exclusive state phase)
  | wait | reload | wake =>
    rw [phase] at done
    cases done
    exact ⟨.quiet rfl rfl, ok_of_phase (by simp) (by simp)⟩

theorem startOperation_ok (operation : PushOperation) (may : thread.mayCall operation = true) :
    PushThread.Ok { thread with phase := startOperation word operation } := by
  constructor
  · intro state same
    cases operation with
    | releaseShared => simpa [mayCall] using may
    | _ => simp [startOperation] at same
  · intro state same
    cases operation with
    | releaseExclusive => simpa [mayCall] using may
    | _ => simp [startOperation] at same

end Effects

/-- The lock word of `shared` shared and `exclusive` exclusive holders. -/
structure WordOk (shared exclusive : Nat) (word : LockWord) : Prop where
  small : shared < 2 ^ 16
  one : exclusive ≤ 1
  alone : exclusive = 0 ∨ shared = 0
  word : ∃ waiting, word = lockWord shared (decide (exclusive = 1)) waiting

structure PushInvariant (threads : Nat) (lock : PushLock) : Prop where
  word : WordOk (sharedHolders threads lock) (exclusiveHolders threads lock) lock.state
  ok : ∀ thread, (lock.threads thread).Ok

/-- The word follows what a step changes in its thread. -/
theorem WordOk.effect {shared exclusive shared' exclusive' : Nat} {word word' : LockWord}
    {thread after : PushThread} (ok : WordOk shared exclusive word)
    (effect : PushEffect word thread word' after) (one : thread.exclusive.toNat ≤ exclusive)
    (shares : shared' + thread.shared = shared + after.shared)
    (exclusives : exclusive' + thread.exclusive.toNat = exclusive + after.exclusive.toNat) :
    WordOk shared' exclusive' word' := by
  obtain ⟨waiting, shape⟩ := ok.word
  have small := ok.small
  have most := ok.one
  have alone := ok.alone
  cases effect with
  | quiet sameShared sameExclusive =>
    rw [sameExclusive] at exclusives
    obtain rfl : shared' = shared := by omega
    obtain rfl : exclusive' = exclusive := by omega
    exact ok
  | acquireShared free room sameShared sameExclusive =>
    rw [sameExclusive] at exclusives
    obtain rfl : shared' = shared + 1 := by omega
    obtain rfl : exclusive' = exclusive := by omega
    rw [shape, lockWord_exclusive small, decide_eq_false_iff_not] at free
    obtain rfl : exclusive' = 0 := by omega
    have counted : shared + 1 < 2 ^ 16 := by
      rw [shape, lockWord_mask small, BitVec.lt_def, BitVec.toNat_ofNat,
        show pushlockSharedMask.toNat = 2 ^ 16 - 1 by rfl] at room
      omega
    exact ⟨counted, by omega, .inl rfl, false, by
      rw [shape]
      exact lockWord_acquireShared counted⟩
  | releaseShared held sameShared sameExclusive =>
    rw [sameExclusive] at exclusives
    obtain rfl : exclusive' = exclusive := by omega
    obtain rfl : shared = shared' + 1 := by omega
    exact ⟨by omega, most, by omega, waiting, by
      rw [shape]
      exact lockWord_releaseShared small⟩
  | acquireExclusive free sameShared nowExclusive =>
    obtain rfl : shared' = shared := by omega
    rw [free, eq_comm, lockWord_zero small, decide_eq_false_iff_not] at shape
    obtain rfl : exclusive = 0 := by omega
    rw [nowExclusive, Bool.toNat_true] at exclusives
    obtain rfl : exclusive' = 1 := by omega
    obtain rfl : shared' = 0 := shape.1
    exact ⟨by omega, by omega, .inr rfl, true, by decide⟩
  | markWaiting sameShared sameExclusive =>
    rw [sameExclusive] at exclusives
    obtain rfl : shared' = shared := by omega
    obtain rfl : exclusive' = exclusive := by omega
    exact ⟨small, most, alone, true, by
      rw [shape]
      exact lockWord_markWaiting small⟩
  | releaseExclusive held sameShared nowFree =>
    rw [held, Bool.toNat_true] at one exclusives
    rw [nowFree, Bool.toNat_false] at exclusives
    obtain rfl : exclusive = 1 := by omega
    obtain rfl : exclusive' = 0 := by omega
    obtain rfl : shared' = 0 := by omega
    obtain rfl : shared = 0 := by omega
    refine ⟨by omega, by omega, .inl rfl, false, ?_⟩
    rw [shape]
    exact lockWord_releaseExclusive

theorem pushInvariant_initial (threads : Nat) : PushInvariant threads exInitializePushLock where
  word := by
    have none : sharedHolders threads exInitializePushLock = 0 ∧
        exclusiveHolders threads exInitializePushLock = 0 := by
      simp [sharedHolders, exclusiveHolders, exInitializePushLock]
    rw [none.1, none.2]
    exact ⟨by omega, by omega, .inl rfl, false, by decide⟩
  ok := fun _ => ok_of_phase (by simp [exInitializePushLock])
    (by simp [exInitializePushLock])

theorem exclusive_le {threads thread : Nat} (known : thread < threads) (lock : PushLock) :
    (lock.threads thread).exclusive.toNat ≤ exclusiveHolders threads lock :=
  Finset.single_le_sum (f := fun thread => (lock.threads thread).exclusive.toNat)
    (fun _ _ => Nat.zero_le _) (Finset.mem_range.mpr known)

variable {threads : Nat}

theorem pushStep_effect {lock next : PushLock} {label : PushStep}
    (ok : ∀ thread, (lock.threads thread).Ok) (done : pushStep threads lock label = some next) :
    ∃ thread after, thread < threads ∧
      next.threads = Function.update lock.threads thread after ∧
      PushEffect lock.state (lock.threads thread) next.state after ∧ after.Ok := by
  cases label with
  | call thread operation =>
    simp only [pushStep] at done
    split at done
    · rename_i accepted
      cases done
      exact ⟨thread, _, accepted.1, rfl, .quiet rfl rfl, startOperation_ok operation accepted.2.2⟩
    · cases done
  | advance thread =>
    simp only [pushStep] at done
    split at done
    · rename_i known
      rw [Option.map_eq_some_iff] at done
      obtain ⟨result, advanced, rfl⟩ := done
      have effect := advanceThread_effect (ok thread) advanced
      exact ⟨thread, result.2, known, rfl, effect.1, effect.2⟩
    · cases done

/-- One step of any thread keeps the lock word right. -/
theorem PushInvariant.step {threads : Nat} {lock next : PushLock} {label : PushStep}
    (invariant : PushInvariant threads lock) (done : pushStep threads lock label = some next) :
    PushInvariant threads next := by
  obtain ⟨thread, after, known, updated, effect, ok⟩ := pushStep_effect invariant.ok done
  have shares := sum_update known shared lock.threads after
  have exclusives :=
    sum_update known (fun holder => holder.exclusive.toNat) lock.threads after
  rw [← updated] at shares exclusives
  constructor
  · exact invariant.word.effect effect (exclusive_le known lock) shares exclusives
  · intro other
    rw [updated]
    by_cases same : other = thread
    · rw [same, Function.update_self]
      exact ok
    · rw [Function.update_of_ne same]
      exact invariant.ok other

theorem pushInvariant {lock : PushLock} (run : PushReaches threads lock) :
    PushInvariant threads lock :=
  run.invariant (pushInvariant_initial threads) (fun _ _ _ invariant _ done => invariant.step done)

/-- The thread is in one of the release operations. -/
def PushThread.releases (thread : PushThread) : Prop :=
  ∃ state, thread.phase = .releaseShared state ∨ thread.phase = .releaseExclusive state

/-- An exclusive holder has the lock alone. -/
def ExclusiveAlone (threads : Nat) (lock : PushLock) : Prop :=
  ∀ owner < threads, (lock.threads owner).exclusive = true →
    sharedHolders threads lock = 0 ∧
      ∀ other < threads, other ≠ owner → (lock.threads other).exclusive = false

/-- An exclusive holder is alone. -/
theorem PushInvariant.exclusiveAlone {lock : PushLock}
    (invariant : PushInvariant threads lock) : ExclusiveAlone threads lock := by
  intro owner known held
  have most := invariant.word.one
  have alone := invariant.word.alone
  have member : owner ∈ Finset.range threads := Finset.mem_range.mpr known
  have split := Finset.add_sum_erase (Finset.range threads)
    (fun thread => (lock.threads thread).exclusive.toNat) member
  simp only [held, Bool.toNat_true] at split
  constructor
  · unfold exclusiveHolders at most alone
    omega
  · intro other inside different
    have others : (lock.threads other).exclusive.toNat ≤
        ∑ thread ∈ (Finset.range threads).erase owner, (lock.threads thread).exclusive.toNat :=
      Finset.single_le_sum (f := fun thread => (lock.threads thread).exclusive.toNat)
        (fun _ _ => Nat.zero_le _)
        (Finset.mem_erase.mpr ⟨different, Finset.mem_range.mpr inside⟩)
    cases shape : (lock.threads other).exclusive with
    | false => rfl
    | true =>
      rw [shape, Bool.toNat_true] at others
      unfold exclusiveHolders at most
      omega

theorem PushInvariant.shareCount_eq {lock : PushLock} (invariant : PushInvariant threads lock) :
    shareCount lock.state = sharedHolders threads lock := by
  obtain ⟨waiting, shape⟩ := invariant.word.word
  rw [shape, shareCount_lockWord invariant.word.small]

theorem advanceThread_releases {word : LockWord} {thread : PushThread} (releases : thread.releases)
    {result : LockWord × PushThread} (done : advanceThread word thread = some result) :
    result.2.shared ≤ thread.shared := by
  obtain ⟨state, phase | phase⟩ := releases
  · rw [advanceThread, phase] at done
    cases done
    unfold exReleasePushLockShared
    split
    · exact Nat.le_refl _
    · split
      · exact Nat.sub_le _ _
      · exact Nat.le_refl _
  · rw [advanceThread, phase] at done
    cases done
    unfold exReleasePushLockExclusive
    dsimp only
    split <;> exact Nat.le_refl _

/-- A release never wraps the shared count. -/
theorem PushInvariant.release_noWrap {threads thread : Nat} {lock next : PushLock}
    (invariant : PushInvariant threads lock) (releases : (lock.threads thread).releases)
    (done : pushStep threads lock (.advance thread) = some next) :
    shareCount next.state ≤ shareCount lock.state := by
  rw [(invariant.step done).shareCount_eq, invariant.shareCount_eq]
  simp only [pushStep] at done
  split at done
  · rename_i known
    rw [Option.map_eq_some_iff] at done
    obtain ⟨result, advanced, rfl⟩ := done
    have less := advanceThread_releases releases advanced
    have shares := sum_update known shared lock.threads result.2
    unfold sharedHolders
    dsimp only
    omega
  · cases done

/-- In every interleaving an exclusive holder has the lock alone, the lock word
counts the shared holders, and a release never makes the count wrap. -/
theorem pushLock_excludes (threads : Nat) (lock : PushLock) (run : PushReaches threads lock) :
    ExclusiveAlone threads lock ∧
      shareCount lock.state = sharedHolders threads lock ∧
      ∀ thread next, (lock.threads thread).releases →
        pushStep threads lock (.advance thread) = some next →
        shareCount next.state ≤ shareCount lock.state :=
  ⟨(pushInvariant run).exclusiveAlone, (pushInvariant run).shareCount_eq,
    fun _ _ releases done => (pushInvariant run).release_noWrap releases done⟩

/-- A writer marks the lock of two readers, one of which is about to release it. -/
def markedRun : List PushStep :=
  [.call 0 .acquireShared, .call 1 .acquireShared, .advance 0, .advance 1, .advance 1,
    .call 2 .acquireExclusive, .advance 2, .call 0 .releaseShared]

/-- The writer marks the lock; both readers hold it. -/
theorem pushLock_excludes_marked : ∃ lock, runFrom (pushStep 3) exInitializePushLock markedRun =
      some lock ∧ (lock.threads 0).releases ∧ lock.state = lockWord 2 false true ∧
      ExclusiveAlone 3 lock ∧ shareCount lock.state = sharedHolders 3 lock := by
  have run : runFrom (pushStep 3) exInitializePushLock markedRun = some _ := rfl
  refine ⟨_, run, ⟨_, .inl rfl⟩, by decide, ?_⟩
  have excludes := pushLock_excludes 3 _ (reaches_of_runFrom run)
  exact ⟨excludes.1, excludes.2.1⟩

end MinNT.Ex
