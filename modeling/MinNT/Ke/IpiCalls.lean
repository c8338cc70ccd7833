import MinNT.Ke.IpiInvariant

namespace MinNT.Ipi

open Transition

section Steps

variable {n : Nat} {s s' : State}

theorem setProcessor_same (s : State) (cpu : Nat) : s.setProcessor cpu (s.processors cpu) = s := by
  rw [State.setProcessor, Function.update_eq_self]

theorem isTarget_iff {call : Call} {t : Nat} : isTarget n call t = true ↔
    t < n ∧ call.targetProcessors.getLsbD t = true ∧ t ≠ call.processor := by
  simp only [isTarget, Bool.and_eq_true, decide_eq_true_eq]
  exact and_assoc

section Lives

variable (lives : Lives n s)
include lives

theorem lives_goto {c : Nat} {phase : Phase}
    (insert : ∀ t, isTarget n (s.calls c) t = true →
      phase.inserted t = (s.calls c).phase.inserted t)
    (count : ∀ t, isTarget n (s.calls c) t = true → phase.counted t = (s.calls c).phase.counted t)
    (place : ∀ i, phase.at? = some i → isTarget n (s.calls c) i = true) :
    Lives n (s.goto c phase) := by
  have silent :=
    @silent_call n s 0 c (s.processors 0) phase lives rfl rfl insert count place
  rw [setProcessor_same] at silent
  exact lives.silent silent

theorem lives_within {c cpu : Nat} {processor : Processor} {phase : Phase} (begun : c < s.started)
    (queue : processor.ipiQueue = (s.processors cpu).ipiQueue)
    (handler : processor.handler = (s.processors cpu).handler)
    (same : (phase.inserted, phase.counted, phase.at?) =
      ((s.calls c).phase.inserted, (s.calls c).phase.counted, (s.calls c).phase.at?)) :
    Lives n ((s.setProcessor cpu processor).goto c phase) := by
  simp only [Prod.mk.injEq] at same
  obtain ⟨insert, count, place⟩ := same
  apply lives.silent
  apply silent_call lives queue handler
  · exact fun t _ => congrFun insert t
  · exact fun t _ => congrFun count t
  · exact fun i at' => lives.place c begun i (place.symm.trans at')

/-- Every step of a call keeps the account of the requests. -/
theorem lives_call {c : Nat} (begun : c < s.started)
    (done : callStep n s c = some s') : Lives n s' := by
  unfold callStep at done
  cases phase : (s.calls c).phase with
  | test cpu =>
    simp only [phase] at done
    split at done
    · rename_i inside
      split at done
      · rename_i target
        cases done
        apply lives_goto lives
        · intro t _
          rw [phase]
          rfl
        · intro t _
          rw [phase]
          rfl
        · intro i at'
          cases at'
          exact isTarget_iff.mpr ⟨inside, target⟩
      · rename_i notTarget
        cases done
        have skipped : ∀ t, isTarget n (s.calls c) t = true → (t < cpu + 1 ↔ t < cpu) := by
          intro t target
          have other : t ≠ cpu := by
            rintro rfl
            exact notTarget (isTarget_iff.mp target).2
          omega
        apply lives_goto lives
        · intro t target
          rw [phase]
          exact decide_eq_decide.mpr (skipped t target)
        · intro t target
          rw [phase]
          exact decide_eq_decide.mpr (skipped t target)
        · intro i at'
          cases at'
    · cases done
      have passed : ∀ t, isTarget n (s.calls c) t = true → true = decide (t < cpu) := by
        intro t target
        have inside := (isTarget_iff.mp target).1
        rw [eq_comm, decide_eq_true_eq]
        omega
      apply lives_goto lives
      · intro t target
        rw [phase]
        exact passed t target
      · intro t target
        rw [phase]
        exact passed t target
      · intro i at'
        cases at'
  | acquire cpu =>
    simp only [phase] at done
    split at done
    · cases done
    · cases done
      exact lives_within lives begun rfl rfl (by rw [phase]; rfl)
  | insert cpu =>
    simp only [phase] at done
    cases done
    exact lives_insert lives begun phase
  | increment cpu | release cpu | send cpu =>
    simp only [phase] at done
    cases done
    exact lives_within lives begun rfl rfl (by rw [phase]; rfl)
  | count cpu =>
    simp only [phase] at done
    cases done
    exact lives_count lives begun phase
  | own =>
    simp only [phase] at done
    cases done
    apply lives_goto lives
    · intro t _
      rw [phase]
      rfl
    · intro t _
      rw [phase]
      rfl
    · intro i at'
      cases at'
  | wait =>
    simp only [phase] at done
    split at done
    · cases done
      exact lives
    · cases done
      exact lives_within lives begun rfl rfl (by rw [phase]; rfl)
  | returned =>
    simp only [phase] at done
    cases done

theorem lives_within_handler {cpu : Nat} {processor : Processor}
    (queue : processor.ipiQueue = (s.processors cpu).ipiQueue)
    (same : (processor.handler.holds, processor.handler.owes) =
      ((s.processors cpu).handler.holds, (s.processors cpu).handler.owes))
    (signal : ∀ r, processor.handler ≠ .signal r) : Lives n (s.setProcessor cpu processor) := by
  simp only [Prod.mk.injEq] at same
  exact lives.silent (silent_handler lives queue same.1 same.2 (fun r at' => absurd at' (signal r)))

theorem lives_handler {cpu : Nat} (done : handlerStep s cpu = some s') : Lives n s' := by
  unfold handlerStep at done
  cases handler : (s.processors cpu).handler with
  | inactive =>
    simp only [handler] at done
    cases done
  | exchange =>
    simp only [handler] at done
    cases done
    split
    · exact lives_within_handler lives rfl (by rw [handler]; rfl)
        (fun r signal => by cases signal)
    · exact lives_within_handler lives rfl (by rw [handler]; rfl)
        (fun r signal => by cases signal)
  | acquire =>
    simp only [handler] at done
    split at done
    · cases done
    · cases done
      exact lives_within_handler lives rfl (by rw [handler]; rfl) (fun r signal => by cases signal)
  | check =>
    simp only [handler] at done
    split at done
    · cases done
      exact lives_within_handler lives rfl (by rw [handler]; rfl) (fun r signal => by cases signal)
    · rename_i request rest queue
      cases done
      exact lives_take lives handler queue
  | leave | taken request | free request =>
    simp only [handler] at done
    cases done
    exact lives_within_handler lives rfl (by rw [handler]; rfl) (fun r signal => by cases signal)
  | run request =>
    simp only [handler] at done
    cases done
    exact lives_run lives handler
  | signal request =>
    simp only [handler] at done
    cases done
    exact lives_signal lives handler

theorem lives_interrupt {cpu : Nat} (done : interruptStep s cpu = some s') : Lives n s' := by
  unfold interruptStep at done
  split at done
  · rename_i taken
    cases done
    exact lives_within_handler lives rfl (by rw [taken.2]; rfl) (fun r signal => by cases signal)
  · cases done

theorem lives_start {cpu : Nat} {targets : BitVec 64}
    (done : start n s cpu targets = some s') : Lives n s' := by
  unfold start at done
  split at done
  · cases done
    have begun : Lives n (s.setProcessor cpu { s.processors cpu with calling := true }) :=
      lives.silent (silent_handler lives rfl rfl rfl (fun r at' => at'))
    exact lives_new begun cpu targets
  · cases done

theorem lives_step {label : Label} (done : step n s label = some s') : Lives n s' := by
  cases label with
  | start cpu targets => exact lives_start lives done
  | call c =>
    simp only [step] at done
    split at done
    · rename_i begun
      exact lives_call lives begun done
    · cases done
  | interrupt cpu => exact lives_interrupt lives done
  | handler cpu => exact lives_handler lives done

end Lives

theorem lives_initial (n : Nat) : Lives n initial where
  place := fun c begun => absurd begun (Nat.not_lt_zero c)
  queued := fun _ _ member => absurd member List.not_mem_nil
  owed := fun _ _ owes => by cases owes
  ranAt := fun _ member => absurd member List.not_mem_nil
  finished := fun _ _ signal => by cases signal
  once := fun r => by
    have none : inserted n initial r = false := by simp [inserted, initial]
    rw [none]
    rfl
  completion := fun c begun => absurd begun (Nat.not_lt_zero c)

theorem lives_of_reaches {allowed : State → Label → Prop}
    (run : Reaches (step n) allowed initial s) : Lives n s :=
  run.invariant (lives_initial n) (fun _ _ _ lives _ done => lives_step lives done)

end Steps

/-- A request has been run once at most, and only on the processor that it was made for;
a call that has returned has been run on each of its processors. -/
structure RunsOnce (n : Nat) (s : State) : Prop where
  returned : ∀ c < s.started, (s.calls c).phase = .returned → ∀ t < n,
    (s.calls c).targetProcessors.getLsbD t = true → t ≠ (s.calls c).processor →
    s.ran.count (⟨c, t⟩, t) = 1
  once : ∀ entry, s.ran.count entry ≤ 1
  place : ∀ entry ∈ s.ran, entry.2 = entry.1.target
  running : ∀ t r, (s.processors t).handler = .run r → r.target = t ∧ (r, t) ∉ s.ran

/-- A call returns once its completion count is no longer positive. -/
def Settled (s : State) : Prop :=
  ∀ c < s.started, (s.calls c).phase = .returned → (s.calls c).completionCount ≤ 0

section Runs

variable {n : Nat} {s s' : State}

section Settled

variable (settled : Settled s)
include settled

theorem settled_goto {c : Nat} {phase : Phase} (open' : phase ≠ .returned) :
    Settled (s.goto c phase) := by
  intro d begun returned
  by_cases own : d = c
  · subst own
    rw [State.goto, setCall_self] at returned
    exact absurd returned open'
  · rw [State.goto, setCall_other _ _ own] at returned ⊢
    exact settled d begun returned

/-- A call leaves its wait only when the count is not positive. -/
theorem settled_call {c : Nat} (done : callStep n s c = some s') : Settled s' := by
  have processors : ∀ cpu processor, Settled (s.setProcessor cpu processor) :=
    fun _ _ => settled
  unfold callStep at done
  cases phase : (s.calls c).phase with
  | test cpu =>
    simp only [phase] at done
    split at done
    · split at done
      · cases done
        exact settled_goto settled (fun same => by cases same)
      · cases done
        exact settled_goto settled (fun same => by cases same)
    · cases done
      exact settled_goto settled (fun same => by cases same)
  | acquire cpu =>
    simp only [phase] at done
    split at done
    · cases done
    · cases done
      exact settled_goto (processors _ _) (fun same => by cases same)
  | insert cpu | increment cpu | release cpu | send cpu =>
    simp only [phase] at done
    cases done
    exact settled_goto (processors _ _) (fun same => by cases same)
  | count cpu =>
    simp only [phase] at done
    cases done
    intro d begun returned
    by_cases own : d = c
    · subst own
      rw [setCall_self] at returned
      cases returned
    · rw [setCall_other _ _ own] at returned ⊢
      exact settled d begun returned
  | own =>
    simp only [phase] at done
    cases done
    exact settled_goto settled (fun same => by cases same)
  | wait =>
    simp only [phase] at done
    split at done
    · cases done
      exact settled
    rename_i notPositive
    cases done
    intro d begun returned
    by_cases own : d = c
    · subst own
      rw [State.goto, setCall_self]
      exact Int.not_lt.mp notPositive
    · rw [State.goto, setCall_other _ _ own] at returned ⊢
      exact settled d begun returned
  | returned =>
    simp only [phase] at done
    cases done

theorem settled_handler {cpu : Nat} (done : handlerStep s cpu = some s') : Settled s' := by
  unfold handlerStep at done
  cases handler : (s.processors cpu).handler with
  | signal request =>
    simp only [handler] at done
    cases done
    intro d begun returned
    by_cases own : d = request.call
    · subst own
      rw [setCall_self] at returned ⊢
      have earlier := settled request.call begun returned
      simp only
      omega
    · rw [setCall_other _ _ own] at returned ⊢
      exact settled d begun returned
  | inactive =>
    simp only [handler] at done
    cases done
  | acquire =>
    simp only [handler] at done
    split at done
    · cases done
    · cases done
      exact settled
  | check =>
    simp only [handler] at done
    split at done
    · cases done
      exact settled
    · cases done
      exact settled
  | exchange | leave | taken | run | free =>
    simp only [handler] at done
    cases done
    exact settled

theorem settled_new (cpu : Nat) (targets : BitVec 64) :
    Settled (s.newCall ⟨cpu, targets, 0, .test 0⟩) := by
  intro c begun returned
  by_cases new : c = s.started
  · rw [new]
    exact Int.le_of_eq (congrArg Call.completionCount (newCall_new _ _))
  · have earlier : c < s.started := Nat.lt_of_le_of_ne (Nat.lt_succ_iff.mp begun) new
    rw [newCall_old _ _ new] at returned ⊢
    exact settled c earlier returned

theorem settled_step {label : Label} (done : step n s label = some s') : Settled s' := by
  cases label with
  | start cpu targets =>
    simp only [step, start] at done
    split at done
    · cases done
      exact settled_new (show Settled (s.setProcessor cpu _) from settled) cpu targets
    · cases done
  | call c =>
    simp only [step] at done
    split at done
    · exact settled_call settled done
    · cases done
  | interrupt cpu =>
    simp only [step, interruptStep] at done
    split at done
    · cases done
      exact settled
    · cases done
  | handler cpu => exact settled_handler settled done

end Settled

theorem owes_of_holds {handler : Handler} {r : Request} (holds : handler.holds r = true) :
    handler.owes r = true := by
  cases handler with
  | taken request | run request => exact holds
  | inactive | exchange | acquire | check | leave | signal | free => cases holds

theorem Lives.ran_of_signalled (lives : Lives n s) {r : Request} (done : signalled n s r = true) :
    s.ran.count (r, r.target) = 1 := by
  simp only [signalled, Bool.and_eq_true, Bool.not_eq_true', decide_eq_false_iff_not] at done
  obtain ⟨⟨isInserted, notQueued⟩, notOwed⟩ := done
  have once := lives.once r
  have notHeld : ¬ (s.processors r.target).handler.holds r = true := by
    intro holds
    rw [owes_of_holds holds] at notOwed
    cases notOwed
  rw [places, if_neg notHeld, isInserted, if_pos rfl, List.count_eq_zero_of_not_mem notQueued]
    at once
  omega

theorem Lives.signalled_of_returned (lives : Lives n s) (settled : Settled s) {c : Nat}
    (begun : c < s.started) (returned : (s.calls c).phase = .returned) {t : Nat}
    (target : isTarget n (s.calls c) t = true) : signalled n s ⟨c, t⟩ = true := by
  have completion := lives.completion c begun
  have notPositive := settled c begun returned
  have enough : ((List.range n).countP fun t => counted n s c t) ≤
      (List.range n).countP fun t => signalled n s ⟨c, t⟩ := by omega
  refine countP_all ?_ enough t (isTarget_iff.mp target).1 ?_
  · intro u _ done
    simp only [signalled, inserted, Bool.and_eq_true] at done
    rw [counted, done.1.1.1.2, returned]
    rfl
  · rw [counted, target, returned]
    rfl

/-- The accounts give one run for each request. -/
theorem runsOnce (lives : Lives n s) (settled : Settled s) : RunsOnce n s where
  returned := by
    intro c begun returned t inside target other
    have isTarget' := isTarget_iff.mpr ⟨inside, target, other⟩
    exact lives.ran_of_signalled (lives.signalled_of_returned settled begun returned isTarget')
  once := by
    rintro ⟨r, t⟩
    by_cases own : t = r.target
    · have once := lives.once r
      have atMost : (if inserted n s r then 1 else 0) ≤ 1 := by
        split
        · exact Nat.le_refl 1
        · exact Nat.zero_le 1
      rw [places] at once
      rw [own]
      omega
    · rw [List.count_eq_zero_of_not_mem (fun member => own (lives.ranAt _ member))]
      exact Nat.zero_le 1
  place := lives.ranAt
  running := by
    intro t r run
    have target : r.target = t := lives.owed t r (by rw [run]; simp [Handler.owes])
    refine ⟨target, fun member => ?_⟩
    have once := lives.once r
    have ran := List.count_pos_iff.mpr member
    have holds : (s.processors t).handler.holds r = true := by
      rw [run]
      simp [Handler.holds]
    have atMost : (if inserted n s r then 1 else 0) ≤ 1 := by
      split
      · exact Nat.le_refl 1
      · exact Nat.zero_le 1
    rw [places, target, if_pos holds] at once
    omega

end Runs

end MinNT.Ipi
