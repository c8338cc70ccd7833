import Mathlib.Logic.Function.Basic

/-! The interrupt request level and the spin locks of `ke/irql.c`, as one processor sees them. -/

namespace MinNT.Ke

open Function

def passiveLevel : Nat := 0
def dispatchLevel : Nat := 2

/-- The locks that calls of the registry and of the file system take. -/
inductive SpinLock where
  | cmLock
  | fsLock
  | expPoolLock
  | mmPfnLock
deriving DecidableEq, Repr

/-- `Irql` of the `KPCR`, whether interrupts are enabled, and the lock words. -/
structure Processor where
  irql : Nat
  interrupts : Bool
  held : SpinLock → Bool

/-- Why a call does not return. -/
inductive Halt where
  /-- `IRQL_NOT_LESS_OR_EQUAL`. -/
  | irqlNotLessOrEqual (newIrql irql site : Nat)
  | spins (lock : SpinLock)
  /-- A walk along a list without end. -/
  | endless
deriving DecidableEq, Repr

def kfRaiseIrql (cpu : Processor) (newIrql : Nat) : Except Halt (Nat × Processor) :=
  if newIrql < cpu.irql then .error (.irqlNotLessOrEqual newIrql cpu.irql 1)
  else
    .ok (cpu.irql,
      { cpu with
        irql := newIrql
        interrupts := if newIrql ≥ dispatchLevel then false else cpu.interrupts })

def kfLowerIrql (cpu : Processor) (newIrql : Nat) : Except Halt Processor :=
  if newIrql > cpu.irql then .error (.irqlNotLessOrEqual newIrql cpu.irql 2)
  else
    .ok
      { cpu with
        irql := newIrql
        interrupts := if newIrql < dispatchLevel then true else cpu.interrupts }

/-- `KeAcquireSpinLock`, that is `KeAcquireSpinLockRaiseToDpc`. -/
def keAcquireSpinLock (cpu : Processor) (lock : SpinLock) : Except Halt (Nat × Processor) := do
  let (old, cpu) ← kfRaiseIrql cpu dispatchLevel
  if cpu.held lock then throw (.spins lock)
  else return (old, { cpu with held := update cpu.held lock true })

def keReleaseSpinLock (cpu : Processor) (lock : SpinLock) (newIrql : Nat) :
    Except Halt Processor :=
  kfLowerIrql { cpu with held := update cpu.held lock false } newIrql

/-- What the locks see of `MmAllocatePhysicalPage` and of `MmFreePhysicalPage`. -/
def mmPageCall (cpu : Processor) : Except Halt Processor := do
  let (irql, cpu) ← keAcquireSpinLock cpu .mmPfnLock
  keReleaseSpinLock cpu .mmPfnLock irql

def mmPageCalls (cpu : Processor) : Nat → Except Halt Processor
  | 0 => .ok cpu
  | count + 1 => do
      let cpu ← mmPageCall cpu
      mmPageCalls cpu count

/-- Whether the pool has room, and how many calls for pages it makes to find out. -/
structure PoolAnswer where
  room : Bool
  pageCalls : Nat

def exAllocatePoolWithTag (cpu : Processor) (numberOfBytes : Nat) (answer : PoolAnswer) :
    Except Halt (Bool × Processor) :=
  if numberOfBytes = 0 then .ok (false, cpu)
  else do
    let (irql, cpu) ← keAcquireSpinLock cpu .expPoolLock
    let cpu ← mmPageCalls cpu answer.pageCalls
    let cpu ← keReleaseSpinLock cpu .expPoolLock irql
    return (answer.room, cpu)

def exFreePoolWithTag (cpu : Processor) : Except Halt Processor := do
  let (irql, cpu) ← keAcquireSpinLock cpu .expPoolLock
  keReleaseSpinLock cpu .expPoolLock irql

/-- The processor inside of a section that a lock protects. -/
def Processor.locked (cpu : Processor) (lock : SpinLock) : Processor :=
  ⟨dispatchLevel, false, update cpu.held lock true⟩

/-- The processor behind such a section, at the level it was left with. -/
def Processor.left (cpu : Processor) (newIrql : Nat) : Processor :=
  ⟨newIrql, decide (newIrql < dispatchLevel), cpu.held⟩

section Sections

variable {cpu : Processor} {lock : SpinLock}

theorem keAcquireSpinLock_ok (low : cpu.irql ≤ dispatchLevel) (free : cpu.held lock = false) :
    keAcquireSpinLock cpu lock = .ok (cpu.irql, cpu.locked lock) := by
  unfold keAcquireSpinLock kfRaiseIrql
  rw [if_neg (by omega)]
  simp only [bind, Except.bind, free]
  rfl

theorem keReleaseSpinLock_ok (free : cpu.held lock = false) {newIrql : Nat}
    (low : newIrql ≤ dispatchLevel) :
    keReleaseSpinLock (cpu.locked lock) lock newIrql = .ok (cpu.left newIrql) := by
  have restored : update (update cpu.held lock true) lock false = cpu.held := by
    rw [Function.update_idem, ← free, Function.update_eq_self]
  unfold keReleaseSpinLock kfLowerIrql Processor.locked Processor.left
  dsimp only
  rw [if_neg (by omega), restored]
  by_cases below : newIrql < dispatchLevel
  · rw [if_pos below, decide_eq_true below]
  · rw [if_neg below, decide_eq_false below]

theorem mmPageCall_ok (low : cpu.irql ≤ dispatchLevel) (free : cpu.held .mmPfnLock = false) :
    mmPageCall cpu = .ok (cpu.left cpu.irql) := by
  unfold mmPageCall
  rw [keAcquireSpinLock_ok low free]
  exact keReleaseSpinLock_ok free low

theorem exFreePoolWithTag_ok (low : cpu.irql ≤ dispatchLevel)
    (free : cpu.held .expPoolLock = false) : exFreePoolWithTag cpu = .ok (cpu.left cpu.irql) := by
  unfold exFreePoolWithTag
  rw [keAcquireSpinLock_ok low free]
  exact keReleaseSpinLock_ok free low

theorem mmPageCalls_locked (free : (cpu.locked lock).held .mmPfnLock = false) (count : Nat) :
    mmPageCalls (cpu.locked lock) count = .ok (cpu.locked lock) := by
  induction count with
  | zero => rfl
  | succ count ih =>
    rw [mmPageCalls, mmPageCall_ok (Nat.le_refl _) free]
    exact ih

theorem exAllocatePoolWithTag_ok (low : cpu.irql ≤ dispatchLevel)
    (freePool : cpu.held .expPoolLock = false) (freePfn : cpu.held .mmPfnLock = false)
    {numberOfBytes : Nat} (some : numberOfBytes ≠ 0) (answer : PoolAnswer) :
    exAllocatePoolWithTag cpu numberOfBytes answer = .ok (answer.room, cpu.left cpu.irql) := by
  have pages := @mmPageCalls_locked cpu .expPoolLock freePfn answer.pageCalls
  unfold exAllocatePoolWithTag
  rw [if_neg some, keAcquireSpinLock_ok low freePool]
  simp only [bind, Except.bind, pages, keReleaseSpinLock_ok freePool low]
  rfl

end Sections

end MinNT.Ke
