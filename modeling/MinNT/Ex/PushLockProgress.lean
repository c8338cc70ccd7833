import MinNT.Ex.PushLockInvariant

namespace MinNT.Ex

open Transition

def NoHolder (threads : Nat) (lock : PushLock) : Prop :=
  ∀ thread < threads, (lock.threads thread).shared = 0 ∧ (lock.threads thread).exclusive = false

/-- An `ExAcquirePushLockExclusive` of a thread that is not in another call gets
the lock after some of its own steps, while no other thread takes one. -/
def AcquiresAlone (threads : Nat) (lock : PushLock) (thread : Nat) : Prop :=
  ∃ count next,
    runFrom (pushStep threads) lock
        (.call thread .acquireExclusive :: List.replicate count (.advance thread)) = some next ∧
      (next.threads thread).phase = .idle ∧ (next.threads thread).exclusive = true

theorem free_word {threads : Nat} {lock : PushLock} (invariant : PushInvariant threads lock)
    (free : NoHolder threads lock) : lock.state = 0 ∨ lock.state = pushlockWaiting := by
  have none : sharedHolders threads lock = 0 ∧ exclusiveHolders threads lock = 0 := by
    constructor
    · exact Finset.sum_eq_zero (fun thread member => (free thread (Finset.mem_range.mp member)).1)
    · apply Finset.sum_eq_zero
      intro thread member
      rw [(free thread (Finset.mem_range.mp member)).2, Bool.toNat_false]
  obtain ⟨waiting, shape⟩ := invariant.word.word
  rw [none.1, none.2] at shape
  cases waiting with
  | false => exact .inl (shape.trans (by decide))
  | true => exact .inr (shape.trans (by decide))

/-- A thread that finds the word zero acquires the lock. -/
theorem acquiresAlone_of_zero {threads thread : Nat} {lock : PushLock} (known : thread < threads)
    (idle : (lock.threads thread).phase = .idle) (zero : lock.state = 0) :
    AcquiresAlone threads lock thread := by
  have called : pushStep threads lock (.call thread .acquireExclusive) =
      some { lock with
        threads := Function.update lock.threads thread
          { lock.threads thread with phase := .acquireExclusive lock.state } } :=
    if_pos ⟨known, idle, rfl⟩
  refine ⟨1, ⟨pushlockExclusive ||| pushlockWaiting, Function.update lock.threads thread
      { lock.threads thread with phase := .idle, exclusive := true }⟩, ?_, ?_⟩
  · rw [runFrom_cons, called, Option.bind_some, List.replicate_one, runFrom_cons]
    simp [pushStep, known, advanceThread, exAcquirePushLockExclusive, zero, runFrom]
  · simp

/-- A writer on its own that found only the waiting bit set. -/
structure Stuck (lock : PushLock) (thread : Nat) : Prop where
  word : lock.state = pushlockWaiting
  exclusive : (lock.threads thread).exclusive = false
  phase : (lock.threads thread).phase = .acquireExclusive pushlockWaiting ∨
    (∃ count, (lock.threads thread).phase = .spin count) ∨
    (lock.threads thread).phase = .recheck ∨ (lock.threads thread).phase = .wait ∨
    (lock.threads thread).phase = .reload

/-- A stuck thread stays stuck. -/
theorem Stuck.step {threads thread : Nat} {lock next : PushLock} (stuck : Stuck lock thread)
    (done : pushStep threads lock (.advance thread) = some next) : Stuck next thread := by
  have word := stuck.word
  have different : pushlockWaiting ≠ 0 := by decide
  simp only [pushStep] at done
  split at done
  · rw [Option.map_eq_some_iff] at done
    obtain ⟨result, advanced, rfl⟩ := done
    rcases stuck.phase with phase | ⟨count, phase⟩ | phase | phase | phase
    · simp only [advanceThread, phase, exAcquirePushLockExclusive, word, different, if_false,
        if_true, Option.some.injEq] at advanced
      subst advanced
      exact ⟨BitVec.or_self, by simpa using stuck.exclusive, .inr (.inl ⟨0, by simp⟩)⟩
    · simp only [advanceThread, phase, Option.some.injEq] at advanced
      subst advanced
      refine ⟨word, by simpa using stuck.exclusive, ?_⟩
      dsimp only
      rw [Function.update_self]
      split
      · exact .inr (.inl ⟨_, rfl⟩)
      · exact .inr (.inr (.inl rfl))
    · simp only [advanceThread, phase, word, ne_eq, different, not_false_eq_true, if_true,
        Option.some.injEq] at advanced
      subst advanced
      exact ⟨rfl, by simpa using stuck.exclusive, .inr (.inr (.inr (.inl (by simp))))⟩
    · simp only [advanceThread, phase, Option.some.injEq] at advanced
      subst advanced
      exact ⟨word, by simpa using stuck.exclusive, .inr (.inr (.inr (.inr (by simp))))⟩
    · simp only [advanceThread, phase, word, Option.some.injEq] at advanced
      subst advanced
      exact ⟨rfl, by simpa using stuck.exclusive, .inl (by simp)⟩
  · cases done

theorem Stuck.steps {threads thread count : Nat} {lock next : PushLock} (stuck : Stuck lock thread)
    (done : runFrom (pushStep threads) lock (List.replicate count (.advance thread)) = some next) :
    Stuck next thread := by
  induction count generalizing lock with
  | zero =>
    cases done
    exact stuck
  | succ count ih =>
    rw [List.replicate_succ, runFrom_cons, Option.bind_eq_some_iff] at done
    obtain ⟨middle, first, rest⟩ := done
    exact ih (stuck.step first) rest

theorem not_acquiresAlone_of_waiting {threads thread : Nat} {lock : PushLock}
    (free : (lock.threads thread).exclusive = false) (waiting : lock.state = pushlockWaiting) :
    ¬ AcquiresAlone threads lock thread := by
  rintro ⟨count, next, done, -, held⟩
  rw [runFrom_cons, Option.bind_eq_some_iff] at done
  obtain ⟨called, first, rest⟩ := done
  have stuck : Stuck called thread := by
    simp only [pushStep] at first
    split at first
    · cases first
      exact ⟨waiting, by simpa using free, .inl (by simp [startOperation, waiting])⟩
    · cases first
  rw [(stuck.steps rest).exclusive] at held
  cases held

/-- A free lock is acquired by a writer on its own exactly if the waiting bit is
not left in its word. -/
theorem acquiresAlone_iff (threads : Nat) (lock : PushLock) (run : PushReaches threads lock)
    (free : NoHolder threads lock) (thread : Nat) (known : thread < threads)
    (idle : (lock.threads thread).phase = .idle) :
    AcquiresAlone threads lock thread ↔ lock.state &&& pushlockWaiting = 0 := by
  constructor
  · intro acquires
    rcases free_word (pushInvariant run) free with zero | waiting
    · rw [zero]
      decide
    · exact absurd acquires
        (not_acquiresAlone_of_waiting (free thread known).2 waiting)
  · intro clear
    rcases free_word (pushInvariant run) free with zero | waiting
    · exact acquiresAlone_of_zero known idle zero
    · rw [waiting] at clear
      exact absurd clear (by decide)

/-- A reader and a writer that acquire and release one after the other. -/
theorem acquiresAlone_afterRelease :
    ∃ lock, runFrom (pushStep 2) exInitializePushLock
        [.call 0 .acquireShared, .advance 0, .call 0 .releaseShared, .advance 0] = some lock ∧
      AcquiresAlone 2 lock 1 := by
  have run : runFrom (pushStep 2) exInitializePushLock
      [.call 0 .acquireShared, .advance 0, .call 0 .releaseShared, .advance 0] = some _ := rfl
  refine ⟨_, run, (acquiresAlone_iff 2 _ (reaches_of_runFrom run) ?_ 1 (by decide) rfl).mpr ?_⟩
  · unfold NoHolder
    decide
  · decide

/-- A writer that finds the lock shared leaves the waiting bit in the word, and no
writer gets the lock when the reader has released it. -/
theorem not_acquiresAlone_afterMark :
    ∃ lock, PushReaches 3 lock ∧ NoHolder 3 lock ∧ (lock.threads 2).phase = .idle ∧
      ¬ AcquiresAlone 3 lock 2 := by
  have run : runFrom (pushStep 3) exInitializePushLock
      [.call 0 .acquireShared, .advance 0, .call 1 .acquireExclusive, .advance 1,
        .call 0 .releaseShared, .advance 0, .advance 0] = some _ := rfl
  refine ⟨_, reaches_of_runFrom run, ?_, rfl, not_acquiresAlone_of_waiting rfl (by decide)⟩
  unfold NoHolder
  decide

end MinNT.Ex
