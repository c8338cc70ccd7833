import Mathlib.Data.Fintype.Card
import MinNT.NtStatus

namespace MinNT.Ps

def jobMaxObjects : Nat := 32

def jobMaxMembers : Nat := 32

/-- What `PsSetJobLimits` sets. -/
structure JobLimits where
  perProcessUserTimeLimit : UInt64
  perProcessKernelTimeLimit : UInt64
  totalUserTimeLimit : UInt64
  totalKernelTimeLimit : UInt64
  workingSetLimit : UInt64
  processCountLimit : UInt32
deriving DecidableEq, Repr

/-- `EJOB`; a member is a pointer to a process. -/
structure Job (Process : Type) where
  name : List UInt8
  inUse : Bool
  limits : JobLimits
  activeProcesses : UInt32
  terminatedProcesses : UInt32
  peakWorkingSetSize : UInt64
  members : Fin jobMaxMembers → Option Process

/-- What `RtlZeroMemory` leaves. -/
def zeroJob {Process : Type} : Job Process :=
  ⟨[], false, ⟨0, 0, 0, 0, 0, 0⟩, 0, 0, 0, fun _ => none⟩

abbrev Jobs (Process : Type) := Fin jobMaxObjects → Job Process

section Calls

variable {Process : Type}

/-- The job is the identifier of an entry in use. -/
def jobInUse? (jobs : Jobs Process) (jobId : UInt32) : Option (Fin jobMaxObjects) :=
  if inside : jobId.toNat < jobMaxObjects then
    if (jobs ⟨jobId.toNat, inside⟩).inUse then some ⟨jobId.toNat, inside⟩ else none
  else none

/-- `PsCreateJob`, which stores the identifier when it succeeds. -/
def psCreateJob (jobs : Jobs Process) (name : Option (List UInt8)) :
    Except NtStatus (Fin jobMaxObjects) × Jobs Process :=
  match (List.finRange jobMaxObjects).find? (fun i => !(jobs i).inUse) with
  | some i =>
      let text := (name.getD []).takeWhile (fun character => character ≠ 0)
      (.ok i, Function.update jobs i { zeroJob with inUse := true, name := text.take 63 })
  | none => (.error statusNoMemory, jobs)

def psDeleteJob (jobs : Jobs Process) (jobId : UInt32) : NtStatus × Jobs Process :=
  match jobInUse? jobs jobId with
  | none => (statusInvalidParameter, jobs)
  | some i => (statusSuccess, Function.update jobs i zeroJob)

/-- A process in a member slot, counted. -/
def Job.takeIn (job : Job Process) (slot : Fin jobMaxMembers) (process : Process) : Job Process :=
  let active := job.activeProcesses + 1
  { job with
    members := Function.update job.members slot (some process)
    activeProcesses := active
    peakWorkingSetSize :=
      if active.toUInt64 > job.peakWorkingSetSize then active.toUInt64
      else job.peakWorkingSetSize }

/-- The process count limit is exceeded. -/
def Job.overLimit (job : Job Process) : Bool :=
  job.limits.processCountLimit ≠ 0 ∧ job.activeProcesses > job.limits.processCountLimit

def Job.freeSlot? (job : Job Process) : Option (Fin jobMaxMembers) :=
  (List.finRange jobMaxMembers).find? (fun slot => (job.members slot).isNone)

def psAssignProcessToJob (jobs : Jobs Process) (jobId : UInt32) (process : Option Process) :
    NtStatus × Jobs Process :=
  match jobInUse? jobs jobId, process with
  | some i, some process =>
      match (jobs i).freeSlot? with
      | some slot =>
          let job := (jobs i).takeIn slot process
          (if job.overLimit then statusDiskQuotaExceeded else statusSuccess,
            Function.update jobs i job)
      | none => (statusNoMemory, jobs)
  | _, _ => (statusInvalidParameter, jobs)

/-- A member slot that is given up. -/
def Job.dismiss (job : Job Process) (slot : Fin jobMaxMembers) : Job Process :=
  { job with
    members := Function.update job.members slot none
    activeProcesses := if job.activeProcesses ≠ 0 then job.activeProcesses - 1 else 0
    terminatedProcesses := job.terminatedProcesses + 1 }

def psRemoveProcessFromJob [DecidableEq Process] (jobs : Jobs Process) (jobId : UInt32)
    (process : Option Process) : NtStatus × Jobs Process :=
  match jobInUse? jobs jobId, process with
  | some i, some process =>
      match (List.finRange jobMaxMembers).find?
          (fun slot => (jobs i).members slot = some process) with
      | some slot => (statusSuccess, Function.update jobs i ((jobs i).dismiss slot))
      | none => (statusNotFound, jobs)
  | _, _ => (statusInvalidParameter, jobs)

def psSetJobLimits (jobs : Jobs Process) (jobId : UInt32) (limits : JobLimits) :
    NtStatus × Jobs Process :=
  match jobInUse? jobs jobId with
  | none => (statusInvalidParameter, jobs)
  | some i => (statusSuccess, Function.update jobs i { jobs i with limits := limits })

/-- A call of the job functions. -/
inductive JobCall (Process : Type) where
  | create (name : Option (List UInt8))
  | delete (jobId : UInt32)
  | setLimits (jobId : UInt32) (limits : JobLimits)
  | assign (jobId : UInt32) (process : Option Process)
  | remove (jobId : UInt32) (process : Option Process)

/-- What the call leaves. -/
def JobCall.run [DecidableEq Process] (jobs : Jobs Process) : JobCall Process → Jobs Process
  | .create name => (psCreateJob jobs name).2
  | .delete jobId => (psDeleteJob jobs jobId).2
  | .setLimits jobId limits => (psSetJobLimits jobs jobId limits).2
  | .assign jobId process => (psAssignProcessToJob jobs jobId process).2
  | .remove jobId process => (psRemoveProcessFromJob jobs jobId process).2

/-- The member slots that are occupied. -/
def Job.occupied (job : Job Process) : Finset (Fin jobMaxMembers) :=
  Finset.univ.filter (fun slot => (job.members slot).isSome)

/-- The process count is within a limit that is not zero. -/
def WithinLimit (active limit : UInt32) : Prop := limit ≠ 0 → active ≤ limit

instance (active limit : UInt32) : Decidable (WithinLimit active limit) :=
  inferInstanceAs (Decidable (_ → _))

/-- `ActiveProcesses` counts the occupied slots, and the limit is kept. -/
structure Job.Kept (job : Job Process) : Prop where
  counted : job.activeProcesses.toNat = job.occupied.card
  limited : WithinLimit job.activeProcesses job.limits.processCountLimit

/-- The limit that a call sets is not below the current count. -/
def SetsNoLower (jobs : Jobs Process) : JobCall Process → Prop
  | .setLimits jobId limits => ∀ i, jobInUse? jobs jobId = some i →
      WithinLimit (jobs i).activeProcesses limits.processCountLimit
  | _ => True

instance : (jobs : Jobs Process) → (call : JobCall Process) → Decidable (SetsNoLower jobs call)
  | _, .setLimits _ _ => inferInstanceAs (Decidable (∀ _, _ → _))
  | _, .create _ | _, .delete _ | _, .assign _ _ | _, .remove _ _ => .isTrue trivial

/-- A process that finds a free slot finds the limit not yet reached. -/
def AssignsBelowLimit (jobs : Jobs Process) : JobCall Process → Prop
  | .assign jobId (some _) => ∀ i, jobInUse? jobs jobId = some i →
      (jobs i).occupied.card < jobMaxMembers →
        (jobs i).limits.processCountLimit = 0 ∨
          (jobs i).activeProcesses < (jobs i).limits.processCountLimit
  | _ => True

instance : (jobs : Jobs Process) → (call : JobCall Process) →
    Decidable (AssignsBelowLimit jobs call)
  | _, .assign _ (some _) => inferInstanceAs (Decidable (∀ _, _ → _ → _ ∨ _))
  | _, .assign _ none | _, .create _ | _, .delete _ | _, .setLimits _ _ | _, .remove _ _ =>
      .isTrue trivial

/-- An assignment that fails leaves the jobs as they are. -/
def RejectsCleanly (jobs : Jobs Process) : JobCall Process → Prop
  | .assign jobId process =>
      ntSuccess (psAssignProcessToJob jobs jobId process).1 = false →
        (psAssignProcessToJob jobs jobId process).2 = jobs
  | _ => True

variable [DecidableEq Process]

/-- What every call of a run meets in the jobs it finds. -/
def EveryCall (meets : Jobs Process → JobCall Process → Prop) :
    Jobs Process → List (JobCall Process) → Prop
  | _, [] => True
  | jobs, call :: calls => meets jobs call ∧ EveryCall meets (call.run jobs) calls

instance everyCallDecidable {meets : Jobs Process → JobCall Process → Prop}
    [∀ jobs call, Decidable (meets jobs call)] :
    (jobs : Jobs Process) → (calls : List (JobCall Process)) →
    Decidable (EveryCall meets jobs calls)
  | _, [] => .isTrue trivial
  | jobs, call :: calls =>
      @instDecidableAnd _ _ _ (everyCallDecidable (call.run jobs) calls)

/-- Before and after every call of a run each job in use is counted and within its
limit, and failed assignments change nothing. -/
def KeepsJobs : Jobs Process → List (JobCall Process) → Prop
  | jobs, [] => ∀ i, (jobs i).inUse = true → (jobs i).Kept
  | jobs, call :: calls =>
      (∀ i, (jobs i).inUse = true → (jobs i).Kept) ∧ RejectsCleanly jobs call ∧
        KeepsJobs (call.run jobs) calls

end Calls

section Slots

variable {Process : Type} {job : Job Process} {slot : Fin jobMaxMembers}

@[simp] theorem mem_occupied : slot ∈ job.occupied ↔ (job.members slot).isSome = true := by
  simp [Job.occupied]

theorem occupied_card_le (job : Job Process) : job.occupied.card ≤ jobMaxMembers := by
  have bound := Finset.card_le_univ job.occupied
  rwa [Fintype.card_fin] at bound

theorem freeSlot?_eq_some (found : job.freeSlot? = some slot) : slot ∉ job.occupied := by
  have free := List.find?_some found
  rw [mem_occupied]
  simpa using free

theorem freeSlot?_eq_none_iff : job.freeSlot? = none ↔ job.occupied.card = jobMaxMembers := by
  constructor
  · intro none
    have all : job.occupied = Finset.univ := by
      apply Finset.eq_univ_of_forall
      intro slot
      have taken := List.find?_eq_none.mp none slot (List.mem_finRange slot)
      rw [mem_occupied]
      simpa [Option.isSome_iff_ne_none] using taken
    rw [all, Finset.card_univ, Fintype.card_fin]
  · intro full
    have all : job.occupied = Finset.univ := by
      rw [← Finset.card_eq_iff_eq_univ, full, Fintype.card_fin]
    apply List.find?_eq_none.mpr
    intro slot _ free
    have taken : slot ∈ job.occupied := by
      rw [all]
      exact Finset.mem_univ slot
    rw [mem_occupied] at taken
    simp only [Option.isNone_iff_eq_none] at free
    rw [free] at taken
    cases taken

theorem admit_occupied (job : Job Process) (slot : Fin jobMaxMembers) (process : Process) :
    (job.takeIn slot process).occupied = insert slot job.occupied := by
  ext other
  rw [Finset.mem_insert, mem_occupied, mem_occupied]
  show (Function.update job.members slot (some process) other).isSome = true ↔ _
  by_cases same : other = slot
  · simp [same]
  · simp [same]

theorem dismiss_occupied (job : Job Process) (slot : Fin jobMaxMembers) :
    (job.dismiss slot).occupied = job.occupied.erase slot := by
  ext other
  rw [Finset.mem_erase, mem_occupied, mem_occupied]
  show (Function.update job.members slot none other).isSome = true ↔ _
  by_cases same : other = slot
  · simp [same]
  · simp [same]

theorem Job.Kept.admit_counted (kept : job.Kept) (free : slot ∉ job.occupied) (process : Process) :
    (job.activeProcesses + 1).toNat = job.activeProcesses.toNat + 1 ∧
      (job.activeProcesses + 1).toNat = (job.takeIn slot process).occupied.card := by
  have most := occupied_card_le (job.takeIn slot process)
  rw [admit_occupied, Finset.card_insert_of_notMem free] at most ⊢
  have few : job.activeProcesses.toNat + 1 ≤ 32 := by
    rw [kept.counted]
    exact most
  have sum : (job.activeProcesses + 1).toNat = job.activeProcesses.toNat + 1 := by
    rw [UInt32.toNat_add]
    exact Nat.mod_eq_of_lt (show job.activeProcesses.toNat + 1 < 2 ^ 32 by omega)
  exact ⟨sum, by rw [sum, kept.counted]⟩

theorem Job.Kept.takeIn (kept : job.Kept) (free : slot ∉ job.occupied) (process : Process)
    (below : job.limits.processCountLimit = 0 ∨
      job.activeProcesses < job.limits.processCountLimit) :
    (job.takeIn slot process).Kept where
  counted := (kept.admit_counted free process).2
  limited := by
    intro limited
    rcases below with zero | less
    · exact absurd zero limited
    · show job.activeProcesses + 1 ≤ job.limits.processCountLimit
      rw [UInt32.lt_iff_toNat_lt] at less
      rw [UInt32.le_iff_toNat_le, (kept.admit_counted free process).1]
      exact less

theorem Job.Kept.admit_overLimit (kept : job.Kept) (free : slot ∉ job.occupied)
    (process : Process) :
    (job.takeIn slot process).overLimit = false ↔ job.limits.processCountLimit = 0 ∨
      job.activeProcesses < job.limits.processCountLimit := by
  show decide (job.limits.processCountLimit ≠ 0 ∧
    job.activeProcesses + 1 > job.limits.processCountLimit) = false ↔ _
  rw [decide_eq_false_iff_not, not_and_or, not_not, gt_iff_lt, UInt32.lt_iff_toNat_lt,
    UInt32.lt_iff_toNat_lt, (kept.admit_counted free process).1, ← UInt32.toNat_inj]
  omega

theorem Job.Kept.dismiss (kept : job.Kept) (member : slot ∈ job.occupied) :
    (job.dismiss slot).Kept := by
  have some : 0 < job.occupied.card := Finset.card_pos.mpr ⟨slot, member⟩
  have nonzero : job.activeProcesses ≠ 0 := by
    intro zero
    rw [← kept.counted, zero] at some
    exact absurd some (by decide)
  have active : (job.dismiss slot).activeProcesses = job.activeProcesses - 1 := if_pos nonzero
  have less : (job.activeProcesses - 1).toNat = job.activeProcesses.toNat - 1 := by
    apply UInt32.toNat_sub_of_le
    rw [UInt32.le_iff_toNat_le, kept.counted]
    exact some
  constructor
  · rw [active, less, dismiss_occupied, Finset.card_erase_of_mem member, kept.counted]
  · intro limited
    have within := kept.limited limited
    rw [active]
    rw [UInt32.le_iff_toNat_le] at within ⊢
    show (job.activeProcesses - 1).toNat ≤ job.limits.processCountLimit.toNat
    omega

theorem zeroJob_kept (name : List UInt8) (inUse : Bool) :
    Job.Kept ({ zeroJob with inUse := inUse, name := name } : Job Process) := by
  constructor
  · symm
    apply Finset.card_eq_zero.mpr
    apply Finset.eq_empty_of_forall_notMem
    intro slot member
    rw [mem_occupied] at member
    cases member
  · exact fun limited => absurd rfl limited

end Slots

section Runs

variable {Process : Type} {jobs : Jobs Process}

/-- Every job in use is counted and within its limit. -/
def JobsKept (jobs : Jobs Process) : Prop := ∀ i, (jobs i).inUse = true → (jobs i).Kept

theorem zeroed_kept : JobsKept (fun _ => zeroJob : Jobs Process) :=
  fun _ _ => zeroJob_kept [] false

theorem jobInUse?_inUse {jobId : UInt32} {i : Fin jobMaxObjects}
    (found : jobInUse? jobs jobId = some i) : (jobs i).inUse = true := by
  unfold jobInUse? at found
  split at found
  · split at found
    · cases found
      assumption
    · cases found
  · cases found

theorem JobsKept.update (kept : JobsKept jobs) (i : Fin jobMaxObjects) {job : Job Process}
    (changed : job.Kept) : JobsKept (Function.update jobs i job) := by
  intro j inUse
  by_cases same : j = i
  · rw [same, Function.update_self]
    exact changed
  · rw [Function.update_of_ne same] at inUse ⊢
    exact kept j inUse

/-- What an assignment does: it leaves the jobs alone without asking for the limit, or it
admits the process and the limit decides what it returns. -/
theorem assign_cases (jobs : Jobs Process) (jobId : UInt32) (process : Option Process) :
    (psAssignProcessToJob jobs jobId process).2 = jobs ∧
        AssignsBelowLimit jobs (.assign jobId process) ∨
    ∃ i slot admitted, jobInUse? jobs jobId = some i ∧ process = some admitted ∧
      (jobs i).freeSlot? = some slot ∧
      psAssignProcessToJob jobs jobId process =
        (if ((jobs i).takeIn slot admitted).overLimit then statusDiskQuotaExceeded
          else statusSuccess,
          Function.update jobs i ((jobs i).takeIn slot admitted)) := by
  unfold psAssignProcessToJob
  cases found : jobInUse? jobs jobId with
  | none =>
    refine .inl ⟨rfl, ?_⟩
    cases process with
    | none => trivial
    | some admitted =>
      intro i other
      rw [found] at other
      cases other
  | some i =>
    cases process with
    | none => exact .inl ⟨rfl, trivial⟩
    | some admitted =>
      dsimp only
      cases search : (jobs i).freeSlot? with
      | none =>
        refine .inl ⟨rfl, ?_⟩
        intro j foundJ room
        rw [found] at foundJ
        cases foundJ
        rw [freeSlot?_eq_none_iff.mp search] at room
        exact absurd room (lt_irrefl _)
      | some slot => exact .inr ⟨i, slot, admitted, rfl, rfl, search, rfl⟩

theorem assign_kept (kept : JobsKept jobs) {jobId : UInt32} {process : Option Process}
    (below : AssignsBelowLimit jobs (.assign jobId process)) :
    JobsKept (psAssignProcessToJob jobs jobId process).2 ∧
      RejectsCleanly jobs (.assign jobId process) := by
  rcases assign_cases jobs jobId process with ⟨refused, _⟩ |
    ⟨i, slot, admitted, found, rfl, free, done⟩
  · rw [refused]
    exact ⟨kept, fun _ => refused⟩
  have here := kept i (jobInUse?_inUse found)
  have unoccupied := freeSlot?_eq_some free
  have room : (jobs i).occupied.card < jobMaxMembers := by
    apply lt_of_le_of_ne (occupied_card_le _)
    intro full
    rw [freeSlot?_eq_none_iff.mpr full] at free
    cases free
  have fits := below i found room
  rw [done]
  refine ⟨kept.update i (here.takeIn unoccupied admitted fits), ?_⟩
  intro failed
  rw [done, (here.admit_overLimit unoccupied admitted).mpr fits] at failed
  have passed : ¬ ntSuccess statusSuccess = false := by decide
  exact absurd failed passed

theorem assign_below (kept : JobsKept jobs) {jobId : UInt32} {process : Option Process}
    (clean : RejectsCleanly jobs (.assign jobId process)) :
    AssignsBelowLimit jobs (.assign jobId process) := by
  rcases assign_cases jobs jobId process with ⟨_, below⟩ |
    ⟨i, slot, admitted, found, rfl, free, done⟩
  · exact below
  intro j foundJ _
  rw [found] at foundJ
  cases foundJ
  have here := kept i (jobInUse?_inUse found)
  have unoccupied := freeSlot?_eq_some free
  rw [← here.admit_overLimit unoccupied admitted]
  by_contra exceeded
  rw [Bool.not_eq_false] at exceeded
  have failed : ntSuccess statusDiskQuotaExceeded = false := by decide
  have unchanged := clean (by rw [done, exceeded]; exact failed)
  rw [done] at unchanged
  have counters := congrArg (fun jobs : Jobs Process => (jobs i).activeProcesses.toNat) unchanged
  dsimp only at counters
  rw [Function.update_self] at counters
  have counted := (here.admit_counted unoccupied admitted).1
  have active : ((jobs i).takeIn slot admitted).activeProcesses =
    (jobs i).activeProcesses + 1 := rfl
  rw [active] at counters
  omega

variable [DecidableEq Process]

theorem JobCall.kept_step (kept : JobsKept jobs) (call : JobCall Process)
    (sets : SetsNoLower jobs call) (below : AssignsBelowLimit jobs call) :
    JobsKept (call.run jobs) ∧ RejectsCleanly jobs call := by
  cases call with
  | create name =>
    refine ⟨?_, trivial⟩
    show JobsKept (psCreateJob jobs name).2
    unfold psCreateJob
    split
    · exact kept.update _ (zeroJob_kept _ _)
    · exact kept
  | delete jobId =>
    refine ⟨?_, trivial⟩
    show JobsKept (psDeleteJob jobs jobId).2
    unfold psDeleteJob
    split
    · exact kept
    · exact kept.update _ (zeroJob_kept _ _)
  | setLimits jobId limits =>
    refine ⟨?_, trivial⟩
    show JobsKept (psSetJobLimits jobs jobId limits).2
    unfold psSetJobLimits
    split
    · exact kept
    · rename_i i found
      have here := kept i (jobInUse?_inUse found)
      exact kept.update i ⟨here.counted, sets i found⟩
  | assign jobId process => exact assign_kept kept below
  | remove jobId process =>
    refine ⟨?_, trivial⟩
    show JobsKept (psRemoveProcessFromJob jobs jobId process).2
    unfold psRemoveProcessFromJob
    split
    · rename_i i process found
      split
      · rename_i slot search
        have here := kept i (jobInUse?_inUse found)
        have member := List.find?_some search
        apply kept.update i
        apply here.dismiss
        rw [mem_occupied, of_decide_eq_true member]
        rfl
      · exact kept
    · exact kept

/-- Along calls that lower no limit, from jobs in order. -/
theorem keepsJobs_iff (calls : List (JobCall Process)) {jobs : Jobs Process}
    (kept : JobsKept jobs) (sets : EveryCall SetsNoLower jobs calls) :
    KeepsJobs jobs calls ↔ EveryCall AssignsBelowLimit jobs calls := by
  induction calls generalizing jobs with
  | nil => exact iff_of_true kept trivial
  | cons call calls ih =>
    constructor
    · intro keeps
      obtain ⟨_, clean, rest⟩ := keeps
      have below : AssignsBelowLimit jobs call := by
        cases call with
        | assign jobId process => exact assign_below kept clean
        | _ => trivial
      have after := (call.kept_step kept sets.1 below).1
      exact ⟨below, (ih after sets.2).mp rest⟩
    · intro below
      obtain ⟨after, clean⟩ := call.kept_step kept sets.1 below.1
      exact ⟨kept, clean, (ih after sets.2).mpr below.2⟩

end Runs

/-- Every sequence of calls from the zeroed table that lowers no limit below the current
count keeps each job's count at its occupied slots and within the limit, with failed
assignments changing nothing, exactly when no assignment that finds a free slot finds
the limit reached. -/
theorem jobs_kept_iff {Process : Type} [DecidableEq Process] (calls : List (JobCall Process))
    (sets : EveryCall SetsNoLower (fun _ => zeroJob) calls) :
    KeepsJobs (fun _ => zeroJob) calls ↔ EveryCall AssignsBelowLimit (fun _ => zeroJob) calls :=
  keepsJobs_iff calls zeroed_kept sets

/-- As many assignments as the limit allows, again after a member has left. -/
theorem withinLimit_kept : KeepsJobs (fun _ => zeroJob) [.create none,
    .setLimits 0 ⟨0, 0, 0, 0, 0, 2⟩, .assign 0 (some 100), .assign 0 (some 200),
    .remove 0 (some 100), .assign 0 (some 300)] :=
  (jobs_kept_iff _ (by decide +kernel)).mpr (by decide +kernel)

/-- One assignment more than the limit is refused with its process left in the job. -/
theorem quotaExceeded_notKept :
    ∃ calls : List (JobCall Nat), EveryCall SetsNoLower (fun _ => zeroJob) calls ∧
      ¬ KeepsJobs (fun _ => zeroJob) calls := by
  have sets : EveryCall SetsNoLower (fun _ => zeroJob) [.create none,
      .setLimits 0 ⟨0, 0, 0, 0, 0, 1⟩, .assign 0 (some 100), .assign 0 (some 200)] := by
    decide +kernel
  refine ⟨_, sets, ?_⟩
  rw [keepsJobs_iff _ zeroed_kept sets]
  decide +kernel

end MinNT.Ps
