import Mathlib.Data.List.Basic
import MinNT.NtStatus

namespace MinNT.Flt

open List

def fltMaxFilters : Nat := 32
def fltMaxName : Nat := 64

inductive FltOperation where
  | preCreate
  | postCreate
  | preRead
  | postRead
  | preWrite
  | postWrite
  | preCleanup
  | postCleanup
deriving DecidableEq, Repr

/-- `FLT_CALLBACK`; pointers are numbers. -/
structure FltCallback where
  callback : Nat
  context : Nat
  inUse : Bool
deriving DecidableEq, Repr

structure FltFilter where
  id : Nat
  name : List UInt8
  altitude : Nat
  callbacks : FltOperation → FltCallback
  attached : Bool
  inUse : Bool

/-- After `RtlZeroMemory`. -/
def FltFilter.zero : FltFilter := ⟨0, [], 0, fun _ => ⟨0, 0, false⟩, false, false⟩

/-- `g_Filters` and `g_NextFilterId`. -/
structure FltMgr where
  filters : List FltFilter
  nextFilterId : Nat
  whole : filters.length = fltMaxFilters

def fltMgrInit : FltMgr := ⟨replicate fltMaxFilters .zero, 1, List.length_replicate⟩

/-- `g_Filters[i] = filter`. -/
def FltMgr.set (mgr : FltMgr) (i : Nat) (filter : FltFilter) (nextFilterId : Nat) : FltMgr :=
  ⟨mgr.filters.set i filter, nextFilterId, by rw [List.length_set]; exact mgr.whole⟩

/-- `FltRegisterFilter`, with the slot that it hands out. -/
def fltRegisterFilter (mgr : FltMgr) (name : List UInt8) (altitude : Nat) :
    NtStatus × Option Nat × FltMgr :=
  match mgr.filters.findIdx? fun filter => ¬ filter.inUse with
  | none => (statusNoMemory, none, mgr)
  | some i =>
      (statusSuccess, some i, mgr.set i
        ⟨mgr.nextFilterId, (name.takeWhile (· ≠ 0)).take (fltMaxName - 1), altitude,
          fun _ => ⟨0, 0, false⟩, false, true⟩ ((mgr.nextFilterId + 1) % 2 ^ 32))

/-- The change that a call makes to one filter; `none` is a null pointer. -/
def onFilter (mgr : FltMgr) (filter : Option Nat) (change : FltFilter → FltFilter) :
    NtStatus × FltMgr :=
  match filter with
  | none => (statusInvalidParameter, mgr)
  | some i => (statusSuccess, mgr.set i (change (mgr.filters.getD i .zero)) mgr.nextFilterId)

def fltAttachFilter (mgr : FltMgr) (filter : Option Nat) : NtStatus × FltMgr :=
  onFilter mgr filter fun f => ⟨f.id, f.name, f.altitude, f.callbacks, true, f.inUse⟩

def fltDetachFilter (mgr : FltMgr) (filter : Option Nat) : NtStatus × FltMgr :=
  onFilter mgr filter fun f => ⟨f.id, f.name, f.altitude, f.callbacks, false, f.inUse⟩

def fltUnregisterFilter (mgr : FltMgr) (filter : Option Nat) : NtStatus × FltMgr :=
  onFilter mgr filter fun _ => .zero

def fltSetCallback (mgr : FltMgr) (filter : Option Nat) (operation : FltOperation)
    (callback context : Nat) : NtStatus × FltMgr :=
  onFilter mgr filter fun f => ⟨f.id, f.name, f.altitude,
    fun other => if other = operation then ⟨callback, context, true⟩ else f.callbacks other,
    f.attached, f.inUse⟩

/-- The filter has a callback for the operation, and is there and attached. -/
def Runs (operation : FltOperation) (filter : FltFilter) : Prop :=
  filter.inUse = true ∧ filter.attached = true ∧ (filter.callbacks operation).inUse = true ∧
    (filter.callbacks operation).callback ≠ 0

instance (operation : FltOperation) (filter : FltFilter) : Decidable (Runs operation filter) :=
  inferInstanceAs (Decidable (_ ∧ _))

/-- The slots that a run has looked at, those whose callbacks it has called, and its status. -/
structure Invoked where
  indexed : List Nat
  called : List Nat
  status : NtStatus

/-- One pass over the slots. What a callback answers may depend on the calls before it; `past` is
what stands in memory behind the last slot. -/
def invokePass (mgr : FltMgr) (past : FltFilter) (operation : FltOperation)
    (answer : List Nat → NtStatus) : List Nat → List Nat → Invoked
  | [], called => ⟨[], called, statusSuccess⟩
  | i :: rest, called =>
      if Runs operation (mgr.filters.getD i past) then
        let called := called ++ [i]
        if ntSuccess (answer called) then
          let after := invokePass mgr past operation answer rest called
          ⟨i :: after.indexed, after.called, after.status⟩
        else ⟨[i], called, answer called⟩
      else
        let after := invokePass mgr past operation answer rest called
        ⟨i :: after.indexed, after.called, after.status⟩

/-- The slots from `FLT_MAX_FILTERS` down to 0. -/
def downward : List Nat := (range (fltMaxFilters + 1)).reverse

def upward : List Nat := range fltMaxFilters

def fltInvokeCallbacks (mgr : FltMgr) (past : FltFilter) (operation : FltOperation)
    (answer : List Nat → NtStatus) : Invoked :=
  let first := invokePass mgr past operation answer downward []
  if ntSuccess first.status then
    let second := invokePass mgr past operation answer upward first.called
    ⟨first.indexed ++ second.indexed, second.called, second.status⟩
  else first

/-- The slots of the filters that have something to be called. -/
def runningSlots (mgr : FltMgr) (operation : FltOperation) : List Nat :=
  upward.filter fun i => Runs operation (mgr.filters.getD i .zero)

def altitudeAt (mgr : FltMgr) (i : Nat) : Nat := (mgr.filters.getD i .zero).altitude

/-- The same slots in ascending altitude. -/
def altitudeOrder (mgr : FltMgr) (operation : FltOperation) : List Nat :=
  (runningSlots mgr operation).mergeSort fun i j => altitudeAt mgr i ≤ altitudeAt mgr j

/-- Calls in this order, up to the first that fails. -/
def callUntil (answer : List Nat → NtStatus) : List Nat → List Nat → List Nat × NtStatus
  | [], called => (called, statusSuccess)
  | i :: rest, called =>
      let called := called ++ [i]
      if ntSuccess (answer called) then callUntil answer rest called else (called, answer called)

/-- The callbacks are called in descending altitude and then in ascending altitude, until one
fails. -/
def CallsKept (mgr : FltMgr) (operation : FltOperation) (answer : List Nat → NtStatus)
    (invoked : Invoked) : Prop :=
  (invoked.called, invoked.status) =
    callUntil answer ((altitudeOrder mgr operation).reverse ++ altitudeOrder mgr operation) []

/-- What the call owes: the order, and no look past the slots. -/
structure InvokeKept (mgr : FltMgr) (operation : FltOperation) (answer : List Nat → NtStatus)
    (invoked : Invoked) : Prop where
  inside : ∀ i ∈ invoked.indexed, i < fltMaxFilters
  calls : CallsKept mgr operation answer invoked

section Invoke

variable {mgr : FltMgr} {past : FltFilter} {operation : FltOperation}
  {answer : List Nat → NtStatus}

theorem callUntil_append (first second called : List Nat) :
    callUntil answer (first ++ second) called =
      if ntSuccess (callUntil answer first called).2 then
        callUntil answer second (callUntil answer first called).1
      else callUntil answer first called := by
  induction first generalizing called with
  | nil =>
    have goes : ntSuccess statusSuccess = true := by decide
    rw [nil_append, callUntil, if_pos goes]
  | cons i rest ih =>
    rw [cons_append, callUntil, callUntil]
    by_cases goes : ntSuccess (answer (called ++ [i])) = true
    · rw [if_pos goes, if_pos goes]
      exact ih (called ++ [i])
    · rw [if_neg goes, if_neg goes, if_neg goes]

theorem invokePass_calls (slots called : List Nat) :
    ((invokePass mgr past operation answer slots called).called,
        (invokePass mgr past operation answer slots called).status) =
      callUntil answer (slots.filter fun i => Runs operation (mgr.filters.getD i past)) called := by
  induction slots generalizing called with
  | nil => rfl
  | cons i rest ih =>
    rw [invokePass]
    by_cases runs : Runs operation (mgr.filters.getD i past)
    · rw [if_pos runs, filter_cons_of_pos (by simpa using runs), callUntil]
      dsimp only
      by_cases goes : ntSuccess (answer (called ++ [i])) = true
      · rw [if_pos goes, if_pos goes]
        exact ih (called ++ [i])
      · rw [if_neg goes, if_neg goes]
    · rw [if_neg runs, filter_cons_of_neg (by simpa using runs)]
      exact ih called

/-- The slots that the first pass finds: what it takes the memory behind the last slot for, and
then the filters in descending slots. -/
theorem filter_downward :
    (downward.filter fun i => Runs operation (mgr.filters.getD i past)) =
      (if Runs operation past then [fltMaxFilters] else []) ++
        (runningSlots mgr operation).reverse := by
  have last : mgr.filters.getD fltMaxFilters past = past := by
    rw [getD_eq_getElem?_getD, getElem?_eq_none (Nat.le_of_eq mgr.whole), Option.getD_none]
  have inside : ∀ i ∈ upward, mgr.filters.getD i past = mgr.filters.getD i .zero := by
    intro i member
    have here : i < mgr.filters.length := by
      rw [mgr.whole]
      exact mem_range.mp member
    rw [getD_eq_getElem?_getD, getD_eq_getElem?_getD, getElem?_eq_getElem here,
      Option.getD_some, Option.getD_some]
  have slots : downward = fltMaxFilters :: upward.reverse := by
    rw [downward, range_succ, reverse_append]
    rfl
  have rest : (upward.reverse.filter fun i => Runs operation (mgr.filters.getD i past)) =
      (runningSlots mgr operation).reverse := by
    rw [filter_reverse, runningSlots]
    congr 1
    apply filter_congr
    intro i member
    rw [inside i member]
  rw [slots, ← rest]
  by_cases runs : Runs operation past
  · rw [if_pos runs, filter_cons_of_pos (by rw [last]; simpa using runs)]
    rfl
  · rw [if_neg runs, filter_cons_of_neg (by rw [last]; simpa using runs)]
    rfl

theorem filter_upward :
    (upward.filter fun i => Runs operation (mgr.filters.getD i past)) =
      runningSlots mgr operation := by
  apply filter_congr
  intro i member
  have here : i < mgr.filters.length := by
    rw [mgr.whole]
    exact mem_range.mp member
  rw [getD_eq_getElem?_getD, getD_eq_getElem?_getD, getElem?_eq_getElem here,
    Option.getD_some, Option.getD_some]

theorem fltInvokeCallbacks_calls :
    ((fltInvokeCallbacks mgr past operation answer).called,
        (fltInvokeCallbacks mgr past operation answer).status) =
      callUntil answer ((if Runs operation past then [fltMaxFilters] else []) ++
        (runningSlots mgr operation).reverse ++ runningSlots mgr operation) [] := by
  have first := @invokePass_calls mgr past operation answer downward []
  rw [filter_downward] at first
  have second := @invokePass_calls mgr past operation answer upward
    (invokePass mgr past operation answer downward []).called
  rw [filter_upward] at second
  rw [callUntil_append, ← first]
  unfold fltInvokeCallbacks
  dsimp only
  by_cases goes : ntSuccess (invokePass mgr past operation answer downward []).status = true
  · rw [if_pos goes, if_pos goes]
    exact second
  · rw [if_neg goes, if_neg goes]

theorem mem_fltInvokeCallbacks_indexed :
    fltMaxFilters ∈ (fltInvokeCallbacks mgr past operation answer).indexed := by
  have slots : downward = fltMaxFilters :: upward.reverse := by
    rw [downward, range_succ, reverse_append]
    rfl
  have first : fltMaxFilters ∈ (invokePass mgr past operation answer downward []).indexed := by
    rw [slots, invokePass]
    split
    · dsimp only
      split
      · exact mem_cons_self
      · exact mem_cons_self
    · exact mem_cons_self
  unfold fltInvokeCallbacks
  dsimp only
  split
  · exact mem_append_left _ first
  · exact first

theorem callUntil_success (slots called : List Nat) :
    callUntil (fun _ => statusSuccess) slots called = (called ++ slots, statusSuccess) := by
  induction slots generalizing called with
  | nil => rw [append_nil]; rfl
  | cons i rest ih =>
    have goes : ntSuccess statusSuccess = true := by decide
    rw [callUntil, if_pos goes, ih, append_assoc, singleton_append]

/-- Without a callback behind the last slot the order is that of the altitudes exactly if the slots
ascend in altitude. -/
theorem callsKept_iff :
    (∀ answer, CallsKept mgr operation answer (fltInvokeCallbacks mgr past operation answer)) ↔
      ¬ Runs operation past ∧
        (runningSlots mgr operation).Pairwise fun i j => altitudeAt mgr i ≤ altitudeAt mgr j := by
  constructor
  · intro kept
    have calls := kept fun _ => statusSuccess
    rw [CallsKept, fltInvokeCallbacks_calls, callUntil_success, callUntil_success, nil_append,
      nil_append, Prod.mk.injEq] at calls
    have whole := calls.1
    have count : (altitudeOrder mgr operation).length = (runningSlots mgr operation).length :=
      length_mergeSort _
    have none : ¬ Runs operation past := by
      intro runs
      have lengths := congrArg List.length whole
      rw [if_pos runs] at lengths
      simp only [length_append, length_reverse, count, length_singleton] at lengths
      omega
    refine ⟨none, ?_⟩
    rw [if_neg none, nil_append] at whole
    have same : runningSlots mgr operation = altitudeOrder mgr operation :=
      (append_inj whole (by rw [length_reverse, length_reverse, count])).2
    rw [same]
    apply List.Pairwise.imp of_decide_eq_true
    apply pairwise_mergeSort
    · intro i j k less more
      rw [decide_eq_true_eq] at *
      omega
    · intro i j
      rw [Bool.or_eq_true, decide_eq_true_eq, decide_eq_true_eq]
      omega
  · rintro ⟨none, ascending⟩ answer
    have same : altitudeOrder mgr operation = runningSlots mgr operation :=
      mergeSort_of_pairwise (ascending.imp fun less => decide_eq_true less)
    rw [CallsKept, fltInvokeCallbacks_calls, if_neg none, nil_append, same]

end Invoke

/-- The first slot that a call looks at is behind the last one, whatever the filters are. Apart from
that the order of the calls is that of the altitudes exactly if no callback is found there and the
slots ascend in altitude. -/
theorem fltInvokeCallbacks_kept (mgr : FltMgr) (past : FltFilter) (operation : FltOperation) :
    (∀ answer, ¬ InvokeKept mgr operation answer (fltInvokeCallbacks mgr past operation answer)) ∧
    ((∀ answer, CallsKept mgr operation answer (fltInvokeCallbacks mgr past operation answer)) ↔
      ¬ Runs operation past ∧
        (runningSlots mgr operation).Pairwise fun i j => altitudeAt mgr i ≤ altitudeAt mgr j) := by
  refine ⟨?_, callsKept_iff⟩
  intro answer kept
  exact Nat.lt_irrefl _ (kept.inside _ mem_fltInvokeCallbacks_indexed)

/-- Two filters, the first with the higher altitude, that watch reads. -/
def twoFilters : FltMgr :=
  let first := (fltRegisterFilter fltMgrInit [0x41] 200).2.2
  let second := (fltRegisterFilter first [0x42] 100).2.2
  let attached := (fltAttachFilter (fltAttachFilter second (some 0)).2 (some 1)).2
  (fltSetCallback (fltSetCallback attached (some 0) .preRead 0x1000 0).2 (some 1) .preRead 0x2000
    0).2

/-- The filter with the lower altitude is called first, and the call looks past the slots. -/
theorem fltInvokeCallbacks_twoFilters :
    (fltInvokeCallbacks twoFilters .zero .preRead fun _ => statusSuccess).called = [1, 0, 0, 1] ∧
      altitudeAt twoFilters 0 = 200 ∧ altitudeAt twoFilters 1 = 100 ∧
      ¬ InvokeKept twoFilters .preRead (fun _ => statusSuccess)
        (fltInvokeCallbacks twoFilters .zero .preRead fun _ => statusSuccess) := by
  refine ⟨by decide, by decide, by decide, ?_⟩
  intro kept
  exact Nat.lt_irrefl _ (kept.inside _ mem_fltInvokeCallbacks_indexed)

end MinNT.Flt
