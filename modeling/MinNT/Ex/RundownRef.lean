import MinNT.Lib.Transition

namespace MinNT.Ex

open Transition

/-- `RUNDOWN_REF`, its event by what the calls do to it. -/
structure RundownRef where
  count : BitVec 32
  rundownCompleted : Bool
  eventInitialized : Bool
  eventSignaled : Bool
deriving DecidableEq, Repr

/-- Where a thread is between two of its accesses to the reference. Turn `i` of
`ExAcquireRundownProtectionEx` for `n` references adds, reads the flag and takes
back what it added if the flag is set; `first` is `count == 1`. -/
inductive RundownPhase where
  | idle
  | adding (n i : Nat)
  | checking (n i : Nat) (first : Bool)
  | undoing (n i : Nat)
  | answering (n : Nat)
  | released (last : Bool)
  | completing
deriving DecidableEq, Repr

/-- A thread, and how many references of its acquire have passed their check. -/
structure RundownThread where
  phase : RundownPhase
  taken : Nat
deriving DecidableEq, Repr

/-- What an acquire of `n` references has returned, and how many it has left
counted. -/
structure RundownAnswer where
  n : Nat
  acquired : Bool
  taken : Nat
deriving DecidableEq, Repr

/-- The reference and its threads, with the references that callers hold: those of
successful acquires that have not been released. -/
structure RundownSystem where
  ref : RundownRef
  threads : Nat → RundownThread
  held : Nat
  answered : List RundownAnswer

def exInitializeRundownProtection : RundownSystem :=
  ⟨⟨0, false, false, false⟩, fun _ => ⟨.idle, 0⟩, 0, []⟩

/-- The turn behind turn `i`, or the last read of the flag. -/
def nextTurn (n i : Nat) : RundownPhase :=
  if i + 1 < n then .adding n (i + 1) else .answering n

/-- `KeSetEvent(&Ref->RundownEvent)`. -/
def RundownRef.setEvent (ref : RundownRef) : RundownRef := { ref with eventSignaled := true }

/-- `KeInitializeEvent` on first use. -/
def RundownRef.initializeEvent (ref : RundownRef) : RundownRef :=
  if ref.eventInitialized then ref
  else { ref with eventInitialized := true, eventSignaled := false }

namespace RundownSystem

def setThread (system : RundownSystem) (thread : Nat) (contents : RundownThread) :
    RundownSystem :=
  { system with threads := Function.update system.threads thread contents }

def setPhase (system : RundownSystem) (thread : Nat) (phase : RundownPhase) : RundownSystem :=
  system.setThread thread { system.threads thread with phase := phase }

def setRef (system : RundownSystem) (ref : RundownRef) : RundownSystem :=
  { system with ref := ref }

end RundownSystem

/-- The next access of a thread that is in a call. -/
def advanceRundown (system : RundownSystem) (thread : Nat) : Option RundownSystem :=
  let ref := system.ref
  let taken := (system.threads thread).taken
  match (system.threads thread).phase with
  | .idle => none
  | .adding n i =>
      some ((system.setRef { ref with count := ref.count + 1 }).setPhase thread
        (.checking n i (ref.count + 1 = 1)))
  | .checking n i first =>
      if ref.rundownCompleted then
        some ((system.setRef (if first then ref.setEvent else ref)).setPhase thread (.undoing n i))
      else some (system.setThread thread ⟨nextTurn n i, taken + 1⟩)
  | .undoing n i =>
      some ((system.setRef { ref with count := ref.count - 1 }).setPhase thread (nextTurn n i))
  | .answering n =>
      let acquired := !ref.rundownCompleted
      some { system.setThread thread ⟨.idle, 0⟩ with
        held := if acquired then system.held + n else system.held
        answered := ⟨n, acquired, taken⟩ :: system.answered }
  | .released last =>
      some ((system.setRef (if last ∧ ref.rundownCompleted then ref.setEvent else ref)).setPhase
        thread .idle)
  | .completing =>
      some ((system.setRef (if ref.count = 0 then ref.initializeEvent.setEvent else ref)).setPhase
        thread .idle)

/-- A call of an idle thread up to its first access, or the next access of a thread
that is in a call. -/
inductive RundownStep where
  | acquire (thread : Nat) (n : BitVec 32)
  | release (thread : Nat)
  | complete (thread : Nat)
  | advance (thread : Nat)
deriving DecidableEq, Repr

def RundownStep.thread : RundownStep → Nat
  | .acquire thread _ | .release thread | .complete thread | .advance thread => thread

/-- `ExAcquireRundownProtectionEx`, `ExReleaseRundownProtection` by a holder, which
begins with its subtraction, and `ExRundownCompleted`, which begins with its store. -/
def rundownStep (system : RundownSystem) : RundownStep → Option RundownSystem
  | .acquire thread n =>
      if (system.threads thread).phase ≠ .idle then none
      else if n = 0 then some { system with answered := ⟨0, false, 0⟩ :: system.answered }
      else some (system.setPhase thread (.adding n.toNat 0))
  | .release thread =>
      if (system.threads thread).phase ≠ .idle ∨ system.held = 0 then none
      else
        let count := system.ref.count - 1
        some { (system.setRef { system.ref with count := count }).setPhase thread
            (.released (count = 0)) with held := system.held - 1 }
  | .complete thread =>
      if (system.threads thread).phase ≠ .idle then none
      else some ((system.setRef { system.ref with rundownCompleted := true }).setPhase thread
        .completing)
  | .advance thread => advanceRundown system thread

/-- The references that a thread's acquire has counted at the moment. -/
def RundownThread.counted (thread : RundownThread) : Nat :=
  match thread.phase with
  | .checking _ _ _ | .undoing _ _ => thread.taken + 1
  | _ => thread.taken

/-- Every acquire that has returned `TRUE` has counted all of its references, and
every other one none; `Count` is the number of references held, those of the
acquires under way included. -/
structure AllOrNothing (threads : Nat) (system : RundownSystem) : Prop where
  answers : ∀ answer ∈ system.answered, answer.taken = if answer.acquired then answer.n else 0
  count : system.ref.count.toNat =
    system.held + ∑ thread ∈ Finset.range threads, (system.threads thread).counted

/-- The rundown is not completed while an acquire under way has passed one of its
checks, and no addition finds `Count` at its greatest value. -/
def CompletesApart (threads : Nat) (system : RundownSystem) (label : RundownStep) : Prop :=
  label.thread < threads ∧
    match label with
    | .complete _ => ∀ thread < threads, (system.threads thread).taken = 0
    | .advance thread => (∃ n i, (system.threads thread).phase = .adding n i) →
        system.ref.count.toNat + 1 < 2 ^ 32
    | _ => True

/-- How far an acquire is, as long as the rundown is not completed. -/
def RundownThread.Counts (completed : Bool) (thread : RundownThread) : Prop :=
  match thread.phase with
  | .adding n i | .checking n i _ => i < n ∧ thread.taken = if completed then 0 else i
  | .undoing n i => i < n ∧ completed = true ∧ thread.taken = 0
  | .answering n => thread.taken = if completed then 0 else n
  | _ => thread.taken = 0

structure RundownInvariant (threads : Nat) (system : RundownSystem) : Prop where
  sound : AllOrNothing threads system
  counts : ∀ thread < threads,
    (system.threads thread).Counts system.ref.rundownCompleted

theorem count_succ {count : BitVec 32} (fits : count.toNat + 1 < 2 ^ 32) :
    (count + 1).toNat = count.toNat + 1 := by
  rw [BitVec.toNat_add]
  exact Nat.mod_eq_of_lt fits

theorem count_pred {count : BitVec 32} (some : 0 < count.toNat) :
    (count - 1).toNat = count.toNat - 1 := by
  bv_omega

@[simp] theorem nextTurn_counted (n i taken : Nat) :
    (⟨nextTurn n i, taken⟩ : RundownThread).counted = taken := by
  unfold nextTurn
  split <;> rfl

theorem nextTurn_counts {completed : Bool} {n i : Nat} (inside : i < n) :
    (⟨nextTurn n i, if completed then 0 else i + 1⟩ : RundownThread).Counts completed := by
  unfold nextTurn
  split
  · exact ⟨by omega, rfl⟩
  · have last : i + 1 = n := by omega
    rw [last]
    rfl

theorem RundownThread.Counts.complete {completed : Bool} {thread : RundownThread}
    (counts : thread.Counts completed) (nothing : thread.taken = 0) : thread.Counts true := by
  unfold Counts at counts ⊢
  split at counts
  · exact ⟨counts.1, nothing⟩
  · exact ⟨counts.1, nothing⟩
  · exact ⟨counts.1, rfl, nothing⟩
  · exact nothing
  · exact nothing

@[simp] theorem setEvent_count (ref : RundownRef) : ref.setEvent.count = ref.count := rfl

@[simp] theorem setEvent_completed (ref : RundownRef) :
    ref.setEvent.rundownCompleted = ref.rundownCompleted := rfl

@[simp] theorem initializeEvent_count (ref : RundownRef) :
    ref.initializeEvent.count = ref.count := by
  unfold RundownRef.initializeEvent
  split <;> rfl

@[simp] theorem initializeEvent_completed (ref : RundownRef) :
    ref.initializeEvent.rundownCompleted = ref.rundownCompleted := by
  unfold RundownRef.initializeEvent
  split <;> rfl

section Steps

variable {threads : Nat} {system next : RundownSystem}

theorem counted_le {thread : Nat} (known : thread < threads) :
    (system.threads thread).counted ≤
      ∑ other ∈ Finset.range threads, (system.threads other).counted := by
  have sum := sum_update known RundownThread.counted system.threads ⟨.idle, 0⟩
  have none : (⟨.idle, 0⟩ : RundownThread).counted = 0 := rfl
  omega

theorem RundownInvariant.update (invariant : RundownInvariant threads system) {thread : Nat}
    (known : thread < threads) {contents : RundownThread}
    (updated : next.threads = Function.update system.threads thread contents)
    (counts : contents.Counts next.ref.rundownCompleted)
    (others : ∀ other < threads, (system.threads other).Counts system.ref.rundownCompleted →
      (system.threads other).Counts next.ref.rundownCompleted)
    (balance : next.ref.count.toNat + system.held + (system.threads thread).counted =
      system.ref.count.toNat + next.held + contents.counted)
    (answers : ∀ answer ∈ next.answered, answer.taken = if answer.acquired then answer.n else 0) :
    RundownInvariant threads next where
  sound := by
    refine ⟨answers, ?_⟩
    have sum := sum_update known RundownThread.counted system.threads contents
    have count := invariant.sound.count
    rw [updated]
    omega
  counts := by
    intro other inside
    rw [updated]
    by_cases same : other = thread
    · rw [same, Function.update_self]
      exact counts
    · rw [Function.update_of_ne same]
      exact others other inside (invariant.counts other inside)

theorem RundownInvariant.setPhase (invariant : RundownInvariant threads system) {thread : Nat}
    (known : thread < threads) {ref : RundownRef} {contents : RundownThread}
    (flag : ref.rundownCompleted = system.ref.rundownCompleted)
    (counts : contents.Counts system.ref.rundownCompleted)
    (balance : ref.count.toNat + (system.threads thread).counted =
      system.ref.count.toNat + contents.counted) :
    RundownInvariant threads ((system.setRef ref).setThread thread contents) := by
  apply invariant.update known rfl
  · show contents.Counts ref.rundownCompleted
    rw [flag]
    exact counts
  · intro other _ same
    show (system.threads other).Counts ref.rundownCompleted
    rw [flag]
    exact same
  · show ref.count.toNat + system.held + (system.threads thread).counted =
      system.ref.count.toNat + system.held + contents.counted
    omega
  · exact invariant.sound.answers

/-- One step of any thread keeps the account of the references. -/
theorem RundownInvariant.advance (invariant : RundownInvariant threads system) {thread : Nat}
    (known : thread < threads)
    (fits : (∃ n i, (system.threads thread).phase = .adding n i) →
      system.ref.count.toNat + 1 < 2 ^ 32)
    (done : advanceRundown system thread = some next) : RundownInvariant threads next := by
  have here := invariant.counts thread known
  have least := @counted_le threads system thread known
  have count := invariant.sound.count
  have shape : system.threads thread =
      ⟨(system.threads thread).phase, (system.threads thread).taken⟩ := rfl
  unfold advanceRundown at done
  cases phase : (system.threads thread).phase with
  | idle =>
    rw [phase] at done
    cases done
  | adding n i =>
    rw [shape, phase] at here
    rw [phase] at done
    cases done
    have before : (system.threads thread).counted = (system.threads thread).taken := by
      rw [shape, phase]
      rfl
    refine invariant.setPhase known ?_ here ?_
    · rfl
    · rw [before]
      show (system.ref.count + 1).toNat + (system.threads thread).taken =
        system.ref.count.toNat + ((system.threads thread).taken + 1)
      rw [count_succ (fits ⟨n, i, phase⟩)]
      omega
  | checking n i first =>
    rw [shape, phase] at here
    rw [phase] at done
    by_cases completed : system.ref.rundownCompleted = true
    · simp only [completed, if_true] at done here
      cases done
      apply invariant.setPhase known
      · split <;> rfl
      · exact ⟨here.1, completed, here.2⟩
      · rw [shape, phase]
        split <;> rfl
    · simp only [completed] at done here
      cases done
      have turn := @nextTurn_counts false n i here.1
      refine @RundownInvariant.setPhase _ _ invariant thread known system.ref _ rfl ?_ ?_
      · rw [Bool.eq_false_of_not_eq_true completed, here.2]
        exact turn
      · rw [shape, phase, nextTurn_counted]
        rfl
  | undoing n i =>
    rw [shape, phase] at here
    rw [phase] at done
    cases done
    have before : (system.threads thread).counted = (system.threads thread).taken + 1 := by
      rw [shape, phase]
      rfl
    have some : 0 < system.ref.count.toNat := by omega
    obtain ⟨inside, completed, nothing⟩ := here
    have turn := @nextTurn_counts true n i inside
    refine invariant.setPhase known ?_ ?_ ?_
    · rfl
    · rw [completed]
      dsimp only [RundownSystem.setRef] at nothing ⊢
      rw [nothing]
      exact turn
    · rw [nextTurn_counted, before]
      show (system.ref.count - 1).toNat + ((system.threads thread).taken + 1) =
        system.ref.count.toNat + (system.threads thread).taken
      rw [count_pred some]
      omega
  | answering n =>
    rw [shape, phase] at here
    rw [phase] at done
    cases done
    have taken : (system.threads thread).taken =
        if system.ref.rundownCompleted then 0 else n := here
    apply invariant.update known rfl
    · exact rfl
    · exact fun _ _ same => same
    · show system.ref.count.toNat + system.held + (system.threads thread).counted =
        system.ref.count.toNat +
          (if (!system.ref.rundownCompleted) = true then system.held + n else system.held) + 0
      rw [shape, phase]
      simp only [RundownThread.counted]
      rw [taken]
      cases system.ref.rundownCompleted with
      | false =>
        simp only [Bool.not_false, Bool.false_eq_true, ↓reduceIte]
        omega
      | true => simp
    · intro answer member
      rcases List.mem_cons.mp member with rfl | old
      · rw [taken]
        cases system.ref.rundownCompleted <;> rfl
      · exact invariant.sound.answers answer old
  | released last =>
    rw [shape, phase] at here
    rw [phase] at done
    cases done
    apply invariant.setPhase known
    · split <;> rfl
    · exact here
    · rw [shape, phase]
      split <;> rfl
  | completing =>
    rw [shape, phase] at here
    rw [phase] at done
    cases done
    apply invariant.setPhase known
    · split <;> simp
    · exact here
    · rw [shape, phase]
      split
      · rw [setEvent_count, initializeEvent_count]
        rfl
      · rfl

theorem idle_counts {thread : RundownThread} {completed : Bool} (counts : thread.Counts completed)
    (idle : thread.phase = .idle) : thread.taken = 0 ∧ thread.counted = 0 := by
  unfold RundownThread.Counts at counts
  unfold RundownThread.counted
  rw [idle] at counts ⊢
  exact ⟨counts, counts⟩

/-- One step of any thread keeps the count. -/
theorem RundownInvariant.step (invariant : RundownInvariant threads system) {label : RundownStep}
    (meets : CompletesApart threads system label)
    (done : rundownStep system label = some next) : RundownInvariant threads next := by
  have known := meets.1
  have idle := idle_counts (invariant.counts label.thread known)
  cases label with
  | acquire thread n =>
    simp only [rundownStep] at done
    split at done
    · cases done
    rename_i phase
    obtain ⟨nothing, counted⟩ := idle (not_not.mp phase)
    split at done
    · cases done
      refine ⟨⟨?_, invariant.sound.count⟩, invariant.counts⟩
      intro answer member
      rcases List.mem_cons.mp member with rfl | old
      · rfl
      · exact invariant.sound.answers answer old
    · rename_i some
      cases done
      refine @RundownInvariant.setPhase _ _ invariant thread known system.ref _ rfl ?_ ?_
      · refine ⟨?_, ?_⟩
        · have positive : n.toNat ≠ 0 := fun zero => some (BitVec.eq_of_toNat_eq zero)
          omega
        · show (system.threads thread).taken = _
          rw [show (system.threads thread).taken = 0 from nothing]
          split <;> rfl
      · have same : (system.threads thread).counted = (system.threads thread).taken :=
          Eq.trans counted (Eq.symm nothing)
        rw [same]
        rfl
  | release thread =>
    simp only [rundownStep] at done
    split at done
    · cases done
    rename_i phase
    rw [not_or, not_not] at phase
    obtain ⟨nothing, counted⟩ := idle phase.1
    have count := invariant.sound.count
    have some : 0 < system.ref.count.toNat := by omega
    cases done
    apply invariant.update known rfl
    · exact nothing
    · exact fun _ _ same => same
    · show (system.ref.count - 1).toNat + system.held + (system.threads thread).counted =
        system.ref.count.toNat + (system.held - 1) + (system.threads thread).taken
      rw [count_pred some, show (system.threads thread).counted = 0 from counted,
        show (system.threads thread).taken = 0 from nothing]
      omega
    · exact invariant.sound.answers
  | complete thread =>
    simp only [rundownStep] at done
    split at done
    · cases done
    rename_i phase
    obtain ⟨nothing, counted⟩ := idle (not_not.mp phase)
    cases done
    apply invariant.update known rfl
    · exact nothing
    · exact fun other inside counts => counts.complete (meets.2 other inside)
    · have same : (system.threads thread).counted = (system.threads thread).taken :=
        Eq.trans counted (Eq.symm nothing)
      show system.ref.count.toNat + system.held + (system.threads thread).counted =
        system.ref.count.toNat + system.held + (system.threads thread).taken
      rw [same]
    · exact invariant.sound.answers
  | advance thread => exact invariant.advance known meets.2 done

end Steps

/-- `ExAcquireRundownProtectionEx`, `ExReleaseRundownProtection` and `ExRundownCompleted`
in every interleaving in which the rundown is completed apart from the acquires that
have passed a check: an acquire is all or nothing, and `Count` is what is held. -/
theorem rundown_allOrNothing (threads : Nat) (system : RundownSystem)
    (run : Reaches rundownStep (CompletesApart threads) exInitializeRundownProtection system) :
    AllOrNothing threads system := by
  have initial : RundownInvariant threads exInitializeRundownProtection := by
    have none : ∑ thread ∈ Finset.range threads,
        (exInitializeRundownProtection.threads thread).counted = 0 :=
      Finset.sum_eq_zero (fun _ _ => rfl)
    refine ⟨⟨?_, ?_⟩, fun _ _ => rfl⟩
    · intro answer member
      cases member
    · rw [none]
      rfl
  exact (run.invariant initial (fun _ _ _ invariant meets done => invariant.step meets done)).sound

/-- A reference is acquired before the rundown is completed, and none afterwards. -/
theorem oneReference_allOrNothing :
    ∃ system : RundownSystem, system.answered = [⟨1, false, 0⟩, ⟨1, true, 1⟩] ∧
      AllOrNothing 2 system := by
  have started : Reaches rundownStep (CompletesApart 2) exInitializeRundownProtection _ := .start
  have adding := started.step ⟨by decide, trivial⟩ (rfl : rundownStep _ (.acquire 0 1) = some _)
  have added := adding.step ⟨by decide, fun _ => by decide⟩
    (rfl : rundownStep _ (.advance 0) = some _)
  have checked := added.step ⟨by decide, fun _ => by decide⟩
    (rfl : rundownStep _ (.advance 0) = some _)
  have acquired := checked.step ⟨by decide, fun _ => by decide⟩
    (rfl : rundownStep _ (.advance 0) = some _)
  have completed := acquired.step ⟨by decide, by decide⟩
    (rfl : rundownStep _ (.complete 1) = some _)
  have late := completed.step ⟨by decide, trivial⟩ (rfl : rundownStep _ (.acquire 0 1) = some _)
  have lateAdded := late.step ⟨by decide, fun _ => by decide⟩
    (rfl : rundownStep _ (.advance 0) = some _)
  have refused := lateAdded.step ⟨by decide, fun _ => by decide⟩
    (rfl : rundownStep _ (.advance 0) = some _)
  have undone := refused.step ⟨by decide, fun _ => by decide⟩
    (rfl : rundownStep _ (.advance 0) = some _)
  have answered := undone.step ⟨by decide, fun _ => by decide⟩
    (rfl : rundownStep _ (.advance 0) = some _)
  exact ⟨_, rfl, rundown_allOrNothing 2 _ answered⟩

/-- The rundown is completed between the check of an acquire and its last read of the
flag: the acquire returns `FALSE`, and its reference stays counted. -/
theorem completedBetween_notAllOrNothing :
    ∃ system, Reaches rundownStep (fun _ _ => True) exInitializeRundownProtection system ∧
      ¬ AllOrNothing 2 system := by
  have done : ∃ system, runFrom rundownStep exInitializeRundownProtection
      [.acquire 0 1, .advance 0, .advance 0, .complete 1, .advance 0] = some system ∧
        system.answered = [⟨1, false, 1⟩] := ⟨_, rfl, rfl⟩
  obtain ⟨system, runs, answered⟩ := done
  refine ⟨system, reaches_of_runFrom runs, ?_⟩
  intro sound
  have nothing := sound.answers ⟨1, false, 1⟩ (by rw [answered]; exact List.mem_cons_self)
  cases nothing

end MinNT.Ex
