import Mathlib.Algebra.BigOperators.Group.Finset.Piecewise
import Mathlib.Algebra.Order.BigOperators.Group.Finset
import Mathlib.Data.Nat.Bitwise
import MinNT.Lib.Transition

namespace MinNT.Ex

open Transition

/-- `Lock->State`. -/
abbrev LockWord := BitVec 32

def pushlockExclusive : LockWord := 1#32 <<< 16
def pushlockWaiting : LockWord := 1#32 <<< 17
def pushlockSharedMask : LockWord := 0xFFFF#32

/-- Where a thread is between two of its accesses to the lock word, with its
local copy `state` of the word. In `wait` it is in `KeWaitForSingleObject`, and
in `wake` it has a `KeSetEvent` of the `WakeEvent` before it. -/
inductive PushPhase where
  | idle
  | acquireShared (state : LockWord)
  | releaseShared (state : LockWord)
  | acquireExclusive (state : LockWord)
  | spin (count : Nat)
  | recheck
  | wait
  | reload
  | releaseExclusive (state : LockWord)
  | wake
deriving DecidableEq, Repr

/-- A thread, and what it holds: the shared acquires it has not released, and
whether it holds the lock exclusively. -/
structure PushThread where
  phase : PushPhase
  shared : Nat
  exclusive : Bool
deriving DecidableEq, Repr

structure PushLock where
  state : LockWord
  threads : Nat → PushThread

def exInitializePushLock : PushLock := ⟨0, fun _ => ⟨.idle, 0, false⟩⟩

inductive PushOperation where
  | acquireShared
  | releaseShared
  | acquireExclusive
  | releaseExclusive
deriving DecidableEq, Repr

/-- The operations a thread may call: it releases only what it holds. -/
def PushThread.mayCall (thread : PushThread) : PushOperation → Bool
  | .releaseShared => decide (0 < thread.shared)
  | .releaseExclusive => thread.exclusive
  | _ => true

/-- The first read of the lock word, `ULONG state = Lock->State`. -/
def startOperation (word : LockWord) : PushOperation → PushPhase
  | .acquireShared => .acquireShared word
  | .releaseShared => .releaseShared word
  | .acquireExclusive => .acquireExclusive word
  | .releaseExclusive => .releaseExclusive word

/-- A turn of the loop of `ExAcquirePushLockShared`: the compare-and-swap, or the
read behind the spinning. -/
def exAcquirePushLockShared (word state : LockWord) (thread : PushThread) :
    LockWord × PushThread :=
  if state &&& pushlockExclusive = 0 ∧ state &&& pushlockSharedMask < pushlockSharedMask then
    if word = state then
      ((state + 1) &&& pushlockSharedMask,
        { thread with phase := .idle, shared := thread.shared + 1 })
    else (word, { thread with phase := .acquireShared word })
  else (word, { thread with phase := .acquireShared word })

/-- A turn of the loop of `ExReleasePushLockShared`. -/
def exReleasePushLockShared (word state : LockWord) (thread : PushThread) :
    LockWord × PushThread :=
  if state &&& pushlockSharedMask = 0 then (word, { thread with phase := .idle })
  else if word = state then
    (state - 1,
      { thread with
        phase :=
          if (state - 1) &&& (pushlockWaiting ||| pushlockSharedMask) = pushlockWaiting then .wake
          else .idle
        shared := thread.shared - 1 })
  else (word, { thread with phase := .releaseShared word })

/-- A turn of the loop of `ExAcquirePushLockExclusive` up to the spinning. -/
def exAcquirePushLockExclusive (word state : LockWord) (thread : PushThread) :
    LockWord × PushThread :=
  if state = 0 then
    if word = state then
      (pushlockExclusive ||| pushlockWaiting, { thread with phase := .idle, exclusive := true })
    else (word, { thread with phase := .acquireExclusive word })
  else if word = state then (state ||| pushlockWaiting, { thread with phase := .spin 0 })
  else (word, { thread with phase := .acquireExclusive word })

/-- A turn of the loop of `ExReleasePushLockExclusive`. -/
def exReleasePushLockExclusive (word state : LockWord) (thread : PushThread) :
    LockWord × PushThread :=
  let newState := state &&& ~~~(pushlockExclusive ||| pushlockWaiting)
  if word = state then
    (newState,
      { thread with
        phase :=
          if 0 < newState &&& pushlockSharedMask ∨ newState &&& pushlockWaiting ≠ 0 then .wake
          else .idle
        exclusive := false })
  else (word, { thread with phase := .releaseExclusive word })

/-- A thread goes on up to its next access to the lock word. `KeSetEvent` and
`KeWaitForSingleObject` do not touch the word, and a wait may end at any time. -/
def advanceThread (word : LockWord) (thread : PushThread) : Option (LockWord × PushThread) :=
  match thread.phase with
  | .idle => none
  | .acquireShared state => some (exAcquirePushLockShared word state thread)
  | .releaseShared state => some (exReleasePushLockShared word state thread)
  | .acquireExclusive state => some (exAcquirePushLockExclusive word state thread)
  | .spin count =>
      some (word, { thread with
        phase := if count < 1000 ∧ word ≠ 0 then .spin (count + 1) else .recheck })
  | .recheck => some (word, { thread with phase := if word ≠ 0 then .wait else .reload })
  | .wait => some (word, { thread with phase := .reload })
  | .reload => some (word, { thread with phase := .acquireExclusive word })
  | .releaseExclusive state => some (exReleasePushLockExclusive word state thread)
  | .wake => some (word, { thread with phase := .idle })

inductive PushStep where
  | call (thread : Nat) (operation : PushOperation)
  | advance (thread : Nat)
deriving DecidableEq, Repr

/-- One atomic step of one of the threads. -/
def pushStep (threads : Nat) (lock : PushLock) : PushStep → Option PushLock
  | .call thread operation =>
      let caller := lock.threads thread
      if thread < threads ∧ caller.phase = .idle ∧ caller.mayCall operation = true then
        some { lock with
          threads := Function.update lock.threads thread
            { caller with phase := startOperation lock.state operation } }
      else none
  | .advance thread =>
      if thread < threads then
        (advanceThread lock.state (lock.threads thread)).map fun result =>
          ⟨result.1, Function.update lock.threads thread result.2⟩
      else none

/-- The states of all interleavings. -/
abbrev PushReaches (threads : Nat) : PushLock → Prop :=
  Reaches (pushStep threads) (fun _ _ => True) exInitializePushLock

/-- A lock word by its parts. -/
def lockWord (shared : Nat) (exclusive waiting : Bool) : LockWord :=
  BitVec.ofNat 32 (shared + (if exclusive then 2 ^ 16 else 0) + if waiting then 2 ^ 17 else 0)

/-- The share count stored in the lock word. -/
def shareCount (word : LockWord) : Nat := (word &&& pushlockSharedMask).toNat

section Word

variable {shared : Nat} {exclusive waiting : Bool}

section Small

variable (small : shared < 2 ^ 16)
include small

theorem lockWord_toNat :
    (lockWord shared exclusive waiting).toNat =
      shared + (if exclusive then 2 ^ 16 else 0) + if waiting then 2 ^ 17 else 0 := by
  rw [lockWord, BitVec.toNat_ofNat]
  apply Nat.mod_eq_of_lt
  split <;> split <;> omega

theorem lockWord_mask :
    lockWord shared exclusive waiting &&& pushlockSharedMask = BitVec.ofNat 32 shared := by
  apply BitVec.eq_of_toNat_eq
  rw [BitVec.toNat_and, lockWord_toNat small, BitVec.toNat_ofNat,
    show pushlockSharedMask.toNat = 2 ^ 16 - 1 by rfl, Nat.and_two_pow_sub_one_eq_mod]
  split <;> split <;> omega

theorem shareCount_lockWord : shareCount (lockWord shared exclusive waiting) = shared := by
  rw [shareCount, lockWord_mask small, BitVec.toNat_ofNat]
  omega

theorem lockWord_exclusive :
    lockWord shared exclusive waiting &&& pushlockExclusive = 0 ↔ exclusive = false := by
  rw [← BitVec.toNat_inj, BitVec.toNat_and, lockWord_toNat small,
    show pushlockExclusive.toNat = 2 ^ 16 by rfl, Nat.and_two_pow]
  cases exclusive <;> cases waiting <;> simp [Nat.testBit, Nat.shiftRight_eq_div_pow] <;> omega

theorem lockWord_zero :
    lockWord shared exclusive waiting = 0 ↔ shared = 0 ∧ exclusive = false ∧ waiting = false := by
  rw [← BitVec.toNat_inj, lockWord_toNat small]
  cases exclusive <;> cases waiting <;> simp

end Small

theorem lockWord_acquireShared (small : shared + 1 < 2 ^ 16) :
    (lockWord shared false waiting + 1) &&& pushlockSharedMask =
    lockWord (shared + 1) false false := by
  apply BitVec.eq_of_toNat_eq
  rw [BitVec.toNat_and, BitVec.toNat_add, lockWord_toNat (by omega), lockWord_toNat small,
    show pushlockSharedMask.toNat = 2 ^ 16 - 1 by rfl, Nat.and_two_pow_sub_one_eq_mod,
    show (1 : LockWord).toNat = 1 by rfl]
  cases waiting <;> simp <;> omega

theorem lockWord_releaseShared (small : shared + 1 < 2 ^ 16) :
    lockWord (shared + 1) exclusive waiting - 1 = lockWord shared exclusive waiting := by
  rw [BitVec.sub_eq_iff_eq_add]
  apply BitVec.eq_of_toNat_eq
  rw [BitVec.toNat_add, lockWord_toNat small, lockWord_toNat (by omega),
    show (1 : LockWord).toNat = 1 by rfl]
  cases exclusive <;> cases waiting <;> simp <;> omega

theorem lockWord_markWaiting (small : shared < 2 ^ 16) :
    lockWord shared exclusive waiting ||| pushlockWaiting = lockWord shared exclusive true := by
  have joined : ∀ low : Nat, low < 2 ^ 17 → (low + 2 ^ 17) = low ||| 2 ^ 17 := by
    intro low bound
    have step := Nat.two_pow_add_eq_or_of_lt bound 1
    rw [Nat.mul_one] at step
    rw [Nat.add_comm, step, Nat.or_comm]
  apply BitVec.eq_of_toNat_eq
  rw [BitVec.toNat_or, lockWord_toNat small, lockWord_toNat small,
    show pushlockWaiting.toNat = 2 ^ 17 by rfl]
  have bound : shared + (if exclusive then 2 ^ 16 else 0) < 2 ^ 17 := by
    split <;> omega
  cases waiting with
  | false => simpa using (joined _ bound).symm
  | true =>
    simp only [if_true]
    rw [joined _ bound, Nat.or_assoc, Nat.or_self]

theorem lockWord_releaseExclusive :
    lockWord 0 true waiting &&& ~~~(pushlockExclusive ||| pushlockWaiting) =
      lockWord 0 false false := by
  cases waiting <;> decide

end Word

end MinNT.Ex
