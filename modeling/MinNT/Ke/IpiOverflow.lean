import MinNT.Ke.IpiDelivery

namespace MinNT.Ipi

open List State Function Transition

/-- A state with a new call from processor 0 to processor 1. -/
def callWorld (s : State) (call : Call) (p0 p1 : Processor) (ran : List (Request × Nat)) :
    State where
  processors := update (update s.processors 0 p0) 1 p1
  calls := update s.calls s.started call
  started := s.started + 1
  ran := ran

section World

variable (s : State) (call : Call) (p0 p1 : Processor) (ran : List (Request × Nat))

@[simp] theorem callWorld_caller : (callWorld s call p0 p1 ran).processors 0 = p0 := by
  simp [callWorld]

@[simp] theorem callWorld_target : (callWorld s call p0 p1 ran).processors 1 = p1 := by
  simp [callWorld]

@[simp] theorem callWorld_call : (callWorld s call p0 p1 ran).calls s.started = call := by
  simp [callWorld]

@[simp] theorem callWorld_started : (callWorld s call p0 p1 ran).started = s.started + 1 := rfl

@[simp] theorem callWorld_ran : (callWorld s call p0 p1 ran).ran = ran := rfl

@[simp] theorem callWorld_setCaller (p : Processor) :
    (callWorld s call p0 p1 ran).setProcessor 0 p = callWorld s call p p1 ran := by
  simp only [callWorld, setProcessor]
  rw [update_comm (by decide), update_idem]

@[simp] theorem callWorld_setTarget (p : Processor) :
    (callWorld s call p0 p1 ran).setProcessor 1 p = callWorld s call p0 p ran := by
  simp only [callWorld, setProcessor, update_idem]

@[simp] theorem callWorld_setCall (other : Call) :
    (callWorld s call p0 p1 ran).setCall s.started other = callWorld s other p0 p1 ran := by
  simp only [callWorld, setCall, update_idem]

@[simp] theorem callWorld_setRan (more : List (Request × Nat)) :
    (⟨(callWorld s call p0 p1 ran).processors, (callWorld s call p0 p1 ran).calls, s.started + 1,
      more⟩ : State) = callWorld s call p0 p1 more := rfl

end World

/-- Between two requests of one activation: the handler of processor 1 has signalled the
last request of its list, and no call is under way. -/
structure Between (pending : Int) (s : State) : Prop where
  handler : ∃ r, (s.processors 1).handler = .free r
  pending : (s.processors 1).ipiPending = pending
  queue : (s.processors 1).ipiQueue = []
  lock : (s.processors 1).ipiLock = false
  idle : (s.processors 0).calling = false

theorem callWorld_start {s : State} (idle : (s.processors 0).calling = false) :
    step 2 s (.start 0 2#64) =
      some (callWorld s ⟨0, 2#64, 0, .test 0⟩ { s.processors 0 with calling := true }
        (s.processors 1) s.ran) := by
  have same : update (update s.processors 0
      { s.processors 0 with calling := true }) 1 (s.processors 1) =
      update s.processors 0 { s.processors 0 with calling := true } := by
    funext t
    by_cases here : t = 1
    · subst here
      simp
    · rw [update_of_ne here]
  simp only [step, start, idle, callWorld, same]
  rfl

theorem callWorld_increment (s : State) (p0 : Processor) (pending : Int) (interrupt : Bool)
    (handler : Handler) (calling : Bool) (ran : List (Request × Nat)) :
    runFrom (step 2)
      (callWorld s ⟨0, 2#64, 0, .test 0⟩ p0 ⟨pending, [], false, interrupt, handler, calling⟩ ran)
      (replicate 7 (.call s.started)) =
      some (callWorld s ⟨0, 2#64, 0, .count 1⟩ p0
        ⟨wrapLong (pending + 1), [⟨s.started, 1⟩], false, true, handler, calling⟩ ran) := by
  simp [runFrom, replicate, step, callStep, goto]

theorem callWorld_send (s : State) (p0 : Processor) (pending : Int) (interrupt : Bool)
    (handler : Handler) (calling : Bool) (ran : List (Request × Nat)) :
    runFrom (step 2)
      (callWorld s ⟨0, 2#64, 0, .test 0⟩ p0 ⟨pending, [], false, interrupt, handler, calling⟩ ran)
      (replicate 10 (.call s.started)) =
      some (callWorld s ⟨0, 2#64, 1, .wait⟩ p0
        ⟨wrapLong (pending + 1), [⟨s.started, 1⟩], false, true, handler, calling⟩ ran) := by
  rw [show 10 = 7 + 3 from rfl, ← List.replicate_append_replicate, runFrom_append,
    callWorld_increment]
  simp [runFrom, replicate, step, callStep, goto]

theorem callWorld_serve (s : State) (p0 : Processor) (pending : Int) (calling : Bool)
    (ran : List (Request × Nat)) (request : Request) :
    runFrom (step 2)
      (callWorld s ⟨0, 2#64, 1, .wait⟩ p0
        ⟨pending, [⟨s.started, 1⟩], false, true, .free request, calling⟩ ran)
      (replicate 6 (.handler 1) ++ [.call s.started]) =
      some (callWorld s ⟨0, 2#64, 0, .returned⟩ { p0 with calling := false }
        ⟨pending, [], false, true, .free ⟨s.started, 1⟩, calling⟩
        (ran ++ [(⟨s.started, 1⟩, 1)])) := by
  simp [runFrom, replicate, step, callStep, handlerStep, goto, setHandler]

theorem callWorld_leave (s : State) (call : Call) (p0 : Processor) (pending : Int)
    (request : Request) (calling : Bool) (ran : List (Request × Nat)) :
    runFrom (step 2) (callWorld s call p0 ⟨pending, [], false, true, .free request, calling⟩ ran)
      (replicate 4 (.handler 1)) =
      some (callWorld s call p0 ⟨pending, [], false, true, .exchange, calling⟩ ran) := by
  simp [runFrom, replicate, step, handlerStep, setHandler]

/-- With a count that one more request leaves below 1 the handler does not come back for
a request that is queued behind its last test of the list. -/
theorem callWorld_strand (s : State) (p0 : Processor) {pending : Int}
    (low : wrapLong (pending + 1) ≤ 0) (request : Request) (calling : Bool)
    (ran : List (Request × Nat)) :
    runFrom (step 2)
      (callWorld s ⟨0, 2#64, 0, .test 0⟩ p0 ⟨pending, [], false, true, .free request, calling⟩ ran)
      (replicate 4 (Label.handler 1) ++ replicate 7 (Label.call s.started) ++
        [Label.handler 1, Label.interrupt 1, Label.handler 1]) =
      some (callWorld s ⟨0, 2#64, 0, .count 1⟩ p0
        ⟨0, [⟨s.started, 1⟩], false, false, .inactive, calling⟩ ran) := by
  rw [runFrom_append, runFrom_append, callWorld_leave, Option.bind_some, callWorld_increment,
    Option.bind_some]
  simp [runFrom, step, interruptStep, handlerStep, Int.not_lt.mpr low]

/-- One more call moves the pending count on by one, with wrap. -/
theorem between_next {pending : Int} {s : State}
    (run : Reaches (step 2) (fun _ _ => True) initial s) (between : Between pending s) :
    ∃ s', Reaches (step 2) (fun _ _ => True) initial s' ∧ Between (wrapLong (pending + 1)) s' ∧
      (s'.processors 1).interrupt = true := by
  obtain ⟨⟨request, handler⟩, count, queue, lock, idle⟩ := between
  have target : s.processors 1 = ⟨pending, [], false, (s.processors 1).interrupt,
      .free request, (s.processors 1).calling⟩ := by
    rw [← count, ← queue, ← lock, ← handler]
  have begun := callWorld_start idle
  rw [target] at begun
  have sent := callWorld_send s { s.processors 0 with calling := true } pending
    (s.processors 1).interrupt (.free request) (s.processors 1).calling s.ran
  have served := callWorld_serve s { s.processors 0 with calling := true } (wrapLong (pending + 1))
    (s.processors 1).calling s.ran request
  have first := run.step trivial begun
  have second := first.append (fun _ _ _ => trivial) sent
  have third := second.append (fun _ _ _ => trivial) served
  refine ⟨_, third, ⟨⟨⟨s.started, 1⟩, ?_⟩, ?_, ?_, ?_, ?_⟩, ?_⟩
  · rw [callWorld_target]
  · rw [callWorld_target]
  · rw [callWorld_target]
  · rw [callWorld_target]
  · rw [callWorld_caller]
  · rw [callWorld_target]

theorem between_first : ∃ s, Reaches (step 2) (fun _ _ => True) initial s ∧ Between 0 s := by
  have begun : step 2 initial (.start 0 2#64) =
      some (callWorld initial ⟨0, 2#64, 0, .test 0⟩ ⟨0, [], false, false, .inactive, true⟩
        ⟨0, [], false, false, .inactive, false⟩ []) := callWorld_start rfl
  have sent := callWorld_send initial ⟨0, [], false, false, .inactive, true⟩ 0 false .inactive
    false []
  have served : runFrom (step 2)
      (callWorld initial ⟨0, 2#64, 1, .wait⟩ ⟨0, [], false, false, .inactive, true⟩
        ⟨wrapLong (0 + 1), [⟨initial.started, 1⟩], false, true, .inactive, false⟩ [])
      ([.interrupt 1] ++ replicate 6 (.handler 1) ++ [.call initial.started]) =
      some (callWorld initial ⟨0, 2#64, 0, .returned⟩ ⟨0, [], false, false, .inactive, false⟩
        ⟨0, [], false, false, .free ⟨initial.started, 1⟩, false⟩
        [(⟨initial.started, 1⟩, 1)]) := by
    have one : wrapLong 1 = 1 := by decide
    simp [runFrom, replicate, step, callStep, interruptStep, handlerStep, goto, setHandler, one]
  have started : Reaches (step 2) (fun _ _ => True) initial initial := .start
  have first := started.step trivial begun
  have second := first.append (fun _ _ _ => trivial) sent
  have third := second.append (fun _ _ _ => trivial) served
  exact ⟨_, third, ⟨⟨_, rfl⟩, rfl, rfl, rfl, rfl⟩⟩

theorem between_count (m : Nat) (small : m < 2 ^ 31) :
    ∃ s, Reaches (step 2) (fun _ _ => True) initial s ∧ Between m s := by
  induction m with
  | zero => exact between_first
  | succ m ih =>
    obtain ⟨s, run, between⟩ := ih (by omega)
    obtain ⟨s', run', between', _⟩ := between_next run between
    have whole : wrapLong (m + 1) = ((m + 1 : Nat) : Int) := by
      unfold wrapLong
      omega
    rw [whole] at between'
    exact ⟨s', run', between'⟩

/-- After `2 ^ 31` requests in one activation the count is negative: the handler leaves
with a request in its list, and no interrupt will bring it back. -/
theorem keIpiGenericCall_strands :
    ∃ s, Reaches (step 2) (fun _ _ => True) initial s ∧ ¬ NoneStranded s := by
  obtain ⟨s₁, run₁, between₁⟩ := between_count (2 ^ 31 - 1) (by decide)
  obtain ⟨s, run, ⟨⟨request, handler⟩, count, queue, lock, idle⟩, interrupt⟩ :=
    between_next run₁ between₁
  have target : s.processors 1 = ⟨- 2 ^ 31, [], false, true, .free request,
      (s.processors 1).calling⟩ := by
    rw [← queue, ← lock, ← handler, ← interrupt]
    exact congrArg (Processor.mk · _ _ _ _ _) count
  have begun := callWorld_start idle
  rw [target] at begun
  have low : wrapLong (- 2 ^ 31 + 1) ≤ 0 := by decide +kernel
  have stranded := callWorld_strand s { s.processors 0 with calling := true } low request
    (s.processors 1).calling s.ran
  refine ⟨_, (run.step trivial begun).append (fun _ _ _ => trivial) stranded, ?_⟩
  intro none
  have request' := none 1 ⟨s.started, 1⟩ (by rw [callWorld_target]; exact List.mem_cons_self)
  rw [callWorld_target, callWorld_call] at request'
  rcases request' with active | pending | unsent
  · exact active rfl
  · cases pending
  · cases unsent

end MinNT.Ipi
