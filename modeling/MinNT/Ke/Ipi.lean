import Mathlib.Logic.Function.Basic
import MinNT.Lib.Transition

namespace MinNT.Ipi

open Function

/-- `KIPI_REQUEST`: the call that made it (its `Function`, `Argument` and
`CompletionFlag`), with the processor it was made for. -/
structure Request where
  call : Nat
  target : Nat
deriving DecidableEq, Repr

/-- Where `KeIpiInterruptHandler` is on a processor. -/
inductive Handler where
  | inactive
  /-- In front of `InterlockedExchange(&Kpcr->IpiPending, 0)`. -/
  | exchange
  | acquire
  /-- Holding the lock, in front of the test of the list. -/
  | check
  /-- Holding the lock, with the list found empty. -/
  | leave
  /-- Holding the lock and a request taken from the list. -/
  | taken (request : Request)
  /-- In the request's function. -/
  | run (request : Request)
  /-- In front of `InterlockedDecrement(Request->CompletionFlag)`. -/
  | signal (request : Request)
  /-- In front of `ExFreePoolWithTag`. -/
  | free (request : Request)
deriving DecidableEq, Repr

/-- What `KIPCR` holds for calls, the pending interrupt of its APIC, its handler, and
whether a thread on it is in `KeIpiGenericCall`. -/
structure Processor where
  ipiPending : Int
  ipiQueue : List Request
  ipiLock : Bool
  interrupt : Bool
  handler : Handler
  calling : Bool
deriving DecidableEq, Repr

/-- Where `KeIpiGenericCall` is, with its loop variable `Cpu`. -/
inductive Phase where
  | test (cpu : Nat)
  | acquire (cpu : Nat)
  | insert (cpu : Nat)
  | increment (cpu : Nat)
  | release (cpu : Nat)
  | send (cpu : Nat)
  | count (cpu : Nat)
  /-- In its own run of the function. -/
  | own
  | wait
  | returned
deriving DecidableEq, Repr

/-- A call that was begun. -/
structure Call where
  processor : Nat
  targetProcessors : BitVec 64
  completionCount : Int
  phase : Phase
deriving DecidableEq, Repr

/-- The machine; `ran` lists the requests whose function a handler has run, each with
the processor of the handler. -/
structure State where
  processors : Nat → Processor
  calls : Nat → Call
  started : Nat
  ran : List (Request × Nat)

/-- A `LONG`. -/
def wrapLong (value : Int) : Int := (value + 2 ^ 31) % 2 ^ 32 - 2 ^ 31

def State.setProcessor (s : State) (cpu : Nat) (processor : Processor) : State :=
  { s with processors := update s.processors cpu processor }

def State.setCall (s : State) (c : Nat) (call : Call) : State :=
  { s with calls := update s.calls c call }

/-- A call goes on to a place. -/
def State.goto (s : State) (c : Nat) (phase : Phase) : State :=
  s.setCall c { s.calls c with phase := phase }

def State.newCall (s : State) (call : Call) : State :=
  { s.setCall s.started call with started := s.started + 1 }

def State.setHandler (s : State) (cpu : Nat) (handler : Handler) : State :=
  s.setProcessor cpu { s.processors cpu with handler := handler }

section Update

variable (s : State) {cpu c t d : Nat} (processor : Processor) (call : Call)

theorem setProcessor_self : (s.setProcessor cpu processor).processors cpu = processor :=
  update_self _ _ _

theorem setProcessor_other (other : t ≠ cpu) :
    (s.setProcessor cpu processor).processors t = s.processors t :=
  update_of_ne other _ _

theorem setCall_self : (s.setCall c call).calls c = call :=
  update_self _ _ _

theorem setCall_other (other : d ≠ c) : (s.setCall c call).calls d = s.calls d :=
  update_of_ne other _ _

theorem newCall_new : (s.newCall call).calls s.started = call := setCall_self s call

theorem newCall_old (old : d ≠ s.started) : (s.newCall call).calls d = s.calls d :=
  setCall_other s call old

end Update

/-- `KeIpiGenericCall` begins, with a function, on a processor. -/
def start (n : Nat) (s : State) (cpu : Nat) (targets : BitVec 64) : Option State :=
  if cpu < n ∧ (s.processors cpu).calling = false then
    some ((s.setProcessor cpu { s.processors cpu with calling := true }).newCall
      ⟨cpu, targets, 0, .test 0⟩)
  else none

/-- One step of `KeIpiGenericCall`; `n` is `KeNumberProcessors`. -/
def callStep (n : Nat) (s : State) (c : Nat) : Option State :=
  match (s.calls c).phase with
  | .test cpu =>
      if cpu < n then
        if (s.calls c).targetProcessors.getLsbD cpu = true ∧ cpu ≠ (s.calls c).processor then
          some (s.goto c (.acquire cpu))
        else some (s.goto c (.test (cpu + 1)))
      else some (s.goto c .own)
  | .acquire cpu =>
      if (s.processors cpu).ipiLock then none
      else
        some ((s.setProcessor cpu { s.processors cpu with ipiLock := true }).goto c (.insert cpu))
  | .insert cpu =>
      some ((s.setProcessor cpu
        { s.processors cpu with
          ipiQueue := (s.processors cpu).ipiQueue ++ [⟨c, cpu⟩] }).goto c (.increment cpu))
  | .increment cpu =>
      some ((s.setProcessor cpu
        { s.processors cpu with
          ipiPending := wrapLong ((s.processors cpu).ipiPending + 1) }).goto c (.release cpu))
  | .release cpu =>
      some ((s.setProcessor cpu { s.processors cpu with ipiLock := false }).goto c (.send cpu))
  | .send cpu =>
      some ((s.setProcessor cpu { s.processors cpu with interrupt := true }).goto c (.count cpu))
  | .count cpu =>
      some (s.setCall c
        { s.calls c with
          completionCount := (s.calls c).completionCount + 1
          phase := .test (cpu + 1) })
  | .own => some (s.goto c .wait)
  | .wait =>
      if 0 < (s.calls c).completionCount then some s
      else
        some ((s.setProcessor (s.calls c).processor
          { s.processors (s.calls c).processor with calling := false }).goto c .returned)
  | .returned => none

/-- The interrupt is taken: `KeIpiInterruptHandler` sends its EOI. -/
def interruptStep (s : State) (cpu : Nat) : Option State :=
  if (s.processors cpu).interrupt = true ∧ (s.processors cpu).handler = .inactive then
    some (s.setProcessor cpu { s.processors cpu with interrupt := false, handler := .exchange })
  else none

/-- One step of `KeIpiInterruptHandler`. -/
def handlerStep (s : State) (cpu : Nat) : Option State :=
  match (s.processors cpu).handler with
  | .inactive => none
  | .exchange =>
      let handler := if 0 < (s.processors cpu).ipiPending then .acquire else .inactive
      some (s.setProcessor cpu { s.processors cpu with ipiPending := 0, handler := handler })
  | .acquire =>
      if (s.processors cpu).ipiLock then none
      else some (s.setProcessor cpu { s.processors cpu with ipiLock := true, handler := .check })
  | .check =>
      match (s.processors cpu).ipiQueue with
      | [] => some (s.setHandler cpu .leave)
      | request :: rest =>
          some (s.setProcessor cpu
            { s.processors cpu with ipiQueue := rest, handler := .taken request })
  | .leave =>
      some (s.setProcessor cpu { s.processors cpu with ipiLock := false, handler := .exchange })
  | .taken request =>
      some (s.setProcessor cpu
        { s.processors cpu with ipiLock := false, handler := .run request })
  | .run request =>
      some { s.setHandler cpu (.signal request) with ran := s.ran ++ [(request, cpu)] }
  | .signal request =>
      some ((s.setHandler cpu (.free request)).setCall request.call
        { s.calls request.call with
          completionCount := (s.calls request.call).completionCount - 1 })
  | .free _ => some (s.setHandler cpu .acquire)

inductive Label where
  | start (cpu : Nat) (targets : BitVec 64)
  | call (c : Nat)
  | interrupt (cpu : Nat)
  | handler (cpu : Nat)
deriving DecidableEq, Repr

def step (n : Nat) (s : State) : Label → Option State
  | .start cpu targets => start n s cpu targets
  | .call c => if c < s.started then callStep n s c else none
  | .interrupt cpu => interruptStep s cpu
  | .handler cpu => handlerStep s cpu

def initial : State where
  processors := fun _ => ⟨0, [], false, false, .inactive, false⟩
  calls := fun _ => ⟨0, 0, 0, .returned⟩
  started := 0
  ran := []

end MinNT.Ipi
