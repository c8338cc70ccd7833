import MinNT.Lib.ListFamily
import MinNT.Lib.Transition

namespace MinNT.Timer

open ListEntry Transition

/-- The `LIST_ENTRY`s of the timer code: `g_TimerListHead`, the `firedList` of the
scan thread and the `TimerListEntry` of each timer. -/
inductive Node where
  | timerListHead
  | firedList
  | timer (index : Nat)
deriving DecidableEq, Repr

/-- The fields of `KDPC` that a firing reads. -/
structure KDpc where
  deferredRoutine : Option Nat
  deferredContext : BitVec 64
  systemArgument1 : BitVec 64
  systemArgument2 : BitVec 64
deriving DecidableEq, Repr

/-- `KTIMER`; its `TimerListEntry` is a node of its own. -/
structure KTimer where
  dueTime : BitVec 64
  period : BitVec 64
  dpc : Option Nat
  dpcContext : BitVec 64
  inUse : Bool
  cancelled : Bool
deriving DecidableEq, Repr

/-- What a DPC routine is called with, and the timer that fired. -/
structure DpcCall where
  timer : Nat
  routine : Nat
  dpc : Nat
  deferredContext : BitVec 64
  systemArgument1 : BitVec 64
  systemArgument2 : BitVec 64
deriving DecidableEq, Repr

/-- Where the scan thread is: between two passes, at an entry of the timer list
with the lock held, at the head of the loop that fires, or in the routine it
called for a timer with the DPC it had read. -/
inductive Phase (position : Type) where
  | waiting
  | scanning (entry : position)
  | firing
  | inRoutine (timer : Nat) (dpc : Option Nat)
deriving DecidableEq, Repr

structure TimerTable where
  links : Links Node
  timers : Nat → KTimer
  tickCount : BitVec 64
  phase : Phase Node
  calls : List DpcCall

/-- The contents `KeInitializeTimer` gives a timer. -/
def keInitializeTimer : KTimer := ⟨0, 0, none, 0, false, false⟩

/-- `KeTimerInitSystem` at some tick, with every timer initialized. -/
def keTimerInitSystem (tickCount : BitVec 64) : TimerTable :=
  { links := ⟨id, id⟩
    timers := fun _ => keInitializeTimer
    tickCount := tickCount
    phase := .waiting
    calls := [] }

/-- `DueTimeToTicks` on a `QuadPart`. -/
def dueTimeToTicks (tickCount dueTime : BitVec 64) : BitVec 64 :=
  if dueTime.slt 0 then
    let relTicks := (-dueTime).sdiv 10000
    let relTicks := if relTicks.sle 0 then 1 else relTicks
    tickCount + relTicks
  else dueTime.sdiv 10000

section Routines

variable (dpcs : Nat → KDpc)

/-- The stores of `KeSetTimerEx` to the timer. -/
def KTimer.arm (timer : KTimer) (tickCount dueTime : BitVec 64) (period : BitVec 32)
    (dpc : Option Nat) : KTimer :=
  { timer with
    dueTime := dueTimeToTicks tickCount dueTime
    period := period.signExtend 64
    dpc := dpc
    dpcContext := match dpc with
      | some dpc => (dpcs dpc).deferredContext
      | none => 0
    cancelled := false }

/-- `FreeTimerSlot`. -/
def KTimer.free (timer : KTimer) : KTimer := { timer with inUse := false, cancelled := false }

/-- The test before the call of a DPC routine, with the arguments of the call. -/
def KTimer.dpcCall (timer : KTimer) (index : Nat) : Option DpcCall :=
  match timer.dpc with
  | none => none
  | some dpc =>
      match (dpcs dpc).deferredRoutine with
      | none => none
      | some routine =>
          if timer.cancelled then none
          else some ⟨index, routine, dpc, timer.dpcContext, (dpcs dpc).systemArgument1,
            (dpcs dpc).systemArgument2⟩

namespace TimerTable

def setTimer (table : TimerTable) (index : Nat) (timer : KTimer) : TimerTable :=
  { table with timers := Function.update table.timers index timer }

def withLinks (table : TimerTable) (links : Links Node) : TimerTable :=
  { table with links := links }

def withPhase (table : TimerTable) (phase : Phase Node) : TimerTable :=
  { table with phase := phase }

end TimerTable

/-- `RemoveEntryList` and `InitializeListHead`, where the timer was inserted. -/
def removeTimer (links : Links Node) (timer : Nat) : Links Node :=
  if isListEmpty links (.timer timer) then links else unlink links (.timer timer)

/-- `KeSetTimerEx`, with `wasInserted`. -/
def keSetTimerEx (table : TimerTable) (timer : Nat) (dueTime : BitVec 64) (period : BitVec 32)
    (dpc : Option Nat) : Bool × TimerTable :=
  let wasInserted := !isListEmpty table.links (.timer timer)
  let removed := removeTimer table.links timer
  let armed := table.setTimer timer
    ((table.timers timer).arm dpcs table.tickCount dueTime period dpc)
  (wasInserted, armed.withLinks (insertTailList removed .timerListHead (.timer timer)))

/-- `KeCancelTimer`, with `wasInserted`. -/
def keCancelTimer (table : TimerTable) (timer : Nat) : Bool × TimerTable :=
  let wasInserted := !isListEmpty table.links (.timer timer)
  let cancelled := table.setTimer timer { table.timers timer with cancelled := true }
  (wasInserted, cancelled.withLinks (removeTimer table.links timer))

/-- The body of the scan loop at one entry; `none` is an entry without a timer
around it. -/
def scanEntry (table : TimerTable) : Node → Option TimerTable
  | .timerListHead => some (table.withPhase .firing)
  | .firedList => none
  | .timer index =>
      let next := table.links.flink (.timer index)
      let collected :=
        if (table.timers index).dueTime ≤ table.tickCount ∧ (table.timers index).cancelled = false
        then insertTailList (unlink table.links (.timer index)) .firedList (.timer index)
        else table.links
      some ((table.withLinks collected).withPhase (.scanning next))

/-- What the firing loop does behind the call of the routine. -/
def rearmOrFree (table : TimerTable) (timer : Nat) (dpc : Option Nat) : TimerTable :=
  let period := (table.timers timer).period
  if 0 < period ∧ (table.timers timer).cancelled = false then
    (keSetTimerEx dpcs table timer (-period * 10000) (period.setWidth 32) dpc).2
  else table.setTimer timer (table.timers timer).free

/-- One turn of the firing loop up to the call of the routine, or the whole turn
where none is called. -/
def fireFirst (table : TimerTable) : Option TimerTable :=
  match table.links.flink .firedList with
  | .timer index =>
      let dpc := (table.timers index).dpc
      let popped := table.withLinks (unlink table.links (.timer index))
      match (table.timers index).dpcCall dpcs index with
      | some call =>
          some ({ popped with calls := table.calls ++ [call] }.withPhase (.inRoutine index dpc))
      | none => some (rearmOrFree dpcs popped index dpc)
  | _ => none

/-- The steps of the clock interrupt, of the callers of the timer routines (DPC
routines among them) and of the scan thread. -/
inductive Label where
  | tick
  | setTimer (timer : Nat) (dueTime : BitVec 64) (period : BitVec 32) (dpc : Option Nat)
  | cancelTimer (timer : Nat)
  | beginPass
  | scan
  | fire
  | routineReturns
  | endPass
deriving DecidableEq, Repr

/-- The scan holds `g_TimerListLock` with interrupts masked: no tick and no other
call comes between its entries. -/
def step (table : TimerTable) : Label → Option TimerTable
  | .tick =>
      match table.phase with
      | .scanning _ => none
      | _ => some { table with tickCount := table.tickCount + 1 }
  | .setTimer timer dueTime period dpc =>
      match table.phase with
      | .scanning _ => none
      | _ => some (keSetTimerEx dpcs table timer dueTime period dpc).2
  | .cancelTimer timer =>
      match table.phase with
      | .scanning _ => none
      | _ => some (keCancelTimer table timer).2
  | .beginPass =>
      match table.phase with
      | .waiting =>
          let emptied := table.withLinks (initializeListHead table.links .firedList)
          some (emptied.withPhase (.scanning (emptied.links.flink .timerListHead)))
      | _ => none
  | .scan =>
      match table.phase with
      | .scanning entry => scanEntry table entry
      | _ => none
  | .fire =>
      match table.phase with
      | .firing =>
          if isListEmpty table.links .firedList then none else fireFirst dpcs table
      | _ => none
  | .routineReturns =>
      match table.phase with
      | .inRoutine timer dpc => some ((rearmOrFree dpcs table timer dpc).withPhase .firing)
      | _ => none
  | .endPass =>
      match table.phase with
      | .firing => if isListEmpty table.links .firedList then some (table.withPhase .waiting)
        else none
      | _ => none

end Routines

end MinNT.Timer
