import Mathlib.Logic.Function.Basic
import MinNT.NtStatus

namespace MinNT.Boot

def statusObjectNameCollision : NtStatus := 0xC0000035#32

def bootMaxSubsystems : Nat := 96
def bootMaxDepsPer : Nat := 8
def bootMaxName : Nat := 32

/-- The characters of a C string before its terminator. -/
structure CString where
  chars : List (BitVec 8)
  terminated : 0 ∉ chars
deriving DecidableEq, Repr

/-- A copy of at most `count` characters and a terminator. -/
def CString.take (string : CString) (count : Nat) : CString :=
  ⟨string.chars.take count, fun member => string.terminated (List.mem_of_mem_take member)⟩

/-- The character at an index up to the terminator. -/
def CString.char (string : CString) (k : Nat) : BitVec 8 := string.chars.getD k 0

/-- `BOOT_SUBSYSTEM_REC`. `deps` holds the first `DepCount` pointers. -/
structure BootSubsystemRec where
  name : CString
  init : Option Nat
  deps : List (Option CString)
  phase : Nat
  shouldInit : Bool
  inUse : Bool
deriving DecidableEq, Repr

def zeroedRec : BootSubsystemRec := ⟨⟨[], List.not_mem_nil⟩, none, [], 0, false, false⟩

abbrev Registry := Nat → BootSubsystemRec

def phaseNames : List String := ["Core", "Drivers", "Services", "GUI"]

/-- The loop that compares two names, from character `k` on. -/
def sameName (recorded name : CString) : Nat → Nat → Bool
  | 0, _ => true
  | left + 1, k =>
      if recorded.char k ≠ name.char k then false
      else if name.char k = 0 then true
      else sameName recorded name left (k + 1)

def slots : List Nat := List.range bootMaxSubsystems

def bootRegisterSubsystemEx (registry : Registry) (name : Option CString) (init : Option Nat)
    (deps : List (Option CString)) (phase : Nat) : NtStatus × Registry :=
  match name, init with
  | some name, some init =>
      if deps.length > bootMaxDepsPer then (statusInvalidParameter, registry)
      else if slots.any fun i =>
          (registry i).inUse && sameName (registry i).name name bootMaxName 0 then
        (statusObjectNameCollision, registry)
      else
        match slots.find? fun i => !(registry i).inUse with
        | some i =>
            (statusSuccess, Function.update registry i
              { name := name.take (bootMaxName - 1)
                init := some init
                deps := deps
                phase := phase
                shouldInit := false
                inUse := true })
        | none => (statusNoMemory, registry)
  | _, _ => (statusInvalidParameter, registry)

/-- `BootFindRec`, with the index of the record. -/
def bootFindRec (registry : Registry) : Option CString → Option Nat
  | none => none
  | some name =>
      slots.find? fun i => (registry i).inUse && sameName (registry i).name name bootMaxName 0

/-- `BootMarkShouldInit`, for what the active profile allows. -/
def bootMarkShouldInit (bootProfileAllowsSubsystem : CString → Bool) (registry : Registry) :
    Registry := fun i =>
  if i < bootMaxSubsystems ∧ (registry i).inUse = true
  then { registry i with shouldInit := bootProfileAllowsSubsystem (registry i).name }
  else registry i

/-- A slot the sort looks at. -/
def inProfile (registry : Registry) (i : Nat) : Bool :=
  (registry i).inUse && (registry i).shouldInit

/-- A dependency that is counted. -/
def countedDep (registry : Registry) (depName : Option CString) : Bool :=
  match bootFindRec registry depName with
  | some dep => (registry dep).shouldInit
  | none => false

/-- The local variables of `BootTopoSort`; `OutOrder` has `order.length` entries. -/
structure SortState where
  emitted : Nat → Bool
  indegree : Nat → Nat
  order : List Nat

def initialSort (registry : Registry) : SortState :=
  { emitted := fun _ => false
    indegree := fun i =>
      if inProfile registry i then (registry i).deps.countP (countedDep registry) else 0
    order := [] }

/-- One slot of the search for the next subsystem: `bestIdx` and `bestPhase`. -/
def considerSlot (registry : Registry) (state : SortState) (best : Option Nat × Nat) (i : Nat) :
    Option Nat × Nat :=
  if inProfile registry i && !state.emitted i && state.indegree i == 0 &&
      decide ((registry i).phase < best.2)
  then (some i, (registry i).phase)
  else best

def findBest (registry : Registry) (state : SortState) : Option Nat :=
  (slots.foldl (considerSlot registry state) (none, 2 ^ 32 - 1)).1

def emit (registry : Registry) (state : SortState) (best : Nat) : SortState :=
  let emitted := Function.update state.emitted best true
  { emitted := emitted
    indegree := fun i =>
      if inProfile registry i && !emitted i && (registry i).deps.any (fun depName =>
          depName.isSome && bootFindRec registry depName == some best)
      then subtract32 (state.indegree i) 1
      else state.indegree i
    order := state.order ++ [best] }

/-- The loop of the sort over `n` subsystems; `none` is a loop that has not ended
when the fuel is used up. -/
def sortLoop (registry : Registry) (n : Nat) : Nat → SortState → Option SortState
  | 0, _ => none
  | fuel + 1, state =>
      if state.order.length < n then
        match findBest registry state with
        | none => some state
        | some best => sortLoop registry n fuel (emit registry state best)
      else some state

/-- What the dump of a failed sort prints of a subsystem. -/
structure StuckSubsystem where
  name : CString
  phaseName : String
  indegree : Nat
  deps : List (Option CString)
deriving DecidableEq, Repr

/-- One entry of the dump; `none` is a read behind `g_PhaseNames`. -/
def stuckSubsystem (registry : Registry) (state : SortState) (i : Nat) : Option StuckSubsystem :=
  phaseNames[(registry i).phase]?.map fun phaseName =>
    ⟨(registry i).name, phaseName, state.indegree i, (registry i).deps⟩

inductive Outcome where
  | returned (status : NtStatus) (order : List Nat) (count : Option Nat)
      (dump : List StuckSubsystem)
  | faulted
  | unfinished
deriving DecidableEq, Repr

/-- `BootTopoSort`; a `count` of `none` is an `*OutCount` that is not written. -/
def bootTopoSort (registry : Registry) (fuel : Nat) : Outcome :=
  let n := slots.countP (inProfile registry)
  if n = 0 then .returned statusSuccess [] (some 0) []
  else
    match sortLoop registry n fuel (initialSort registry) with
    | none => .unfinished
    | some state =>
        if state.order.length ≠ n then
          let stuck := slots.filter fun i => inProfile registry i && !state.emitted i
          match stuck.mapM (stuckSubsystem registry state) with
          | some dump => .returned statusUnsuccessful state.order none dump
          | none => .faulted
        else .returned statusSuccess state.order (some state.order.length) []

end MinNT.Boot
