import MinNT.Ke.IpiCalls

namespace MinNT.Ipi

open List Transition

/-- The call has queued its request for a processor and not yet sent the interrupt. -/
def Phase.unsent : Phase → Nat → Bool
  | .increment i, t | .release i, t | .send i, t => i = t
  | _, _ => false

/-- The handler will test the list again before it looks at the count. -/
def Handler.drains : Handler → Bool
  | .acquire | .check | .taken _ | .run _ | .signal _ | .free _ => true
  | .inactive | .exchange | .leave => false

/-- Each queued request is counted, or being drained, or about to be counted; and once
its interrupt is sent, the handler is active or the interrupt pending. -/
structure Delivery (s : State) : Prop where
  known : ∀ t, ∀ r ∈ (s.processors t).ipiQueue, r.call < s.started
  nonneg : ∀ t, 0 ≤ (s.processors t).ipiPending
  noticed : ∀ t, ∀ r ∈ (s.processors t).ipiQueue,
    0 < (s.processors t).ipiPending ∨ (s.processors t).handler.drains = true ∨
      (s.calls r.call).phase = .increment t
  sent : ∀ t, ∀ r ∈ (s.processors t).ipiQueue,
    (s.calls r.call).phase.unsent t = true ∨ (s.processors t).handler ≠ .inactive ∨
      (s.processors t).interrupt = true

/-- No increment of an `IpiPending` takes it beyond a `LONG`. -/
def NoOverflow (s : State) : Label → Prop
  | .call c => ∀ cpu, (s.calls c).phase = .increment cpu →
      (s.processors cpu).ipiPending < 2 ^ 31 - 1
  | .start _ _ | .interrupt _ | .handler _ => True

theorem noOverflow_call_iff {s : State} {c : Nat} :
    NoOverflow s (.call c) ↔ ∀ cpu ∈ (s.calls c).phase.at?, (s.calls c).phase = .increment cpu →
      (s.processors cpu).ipiPending < 2 ^ 31 - 1 := by
  constructor
  · exact fun fits cpu _ => fits cpu
  · intro fits cpu here
    exact fits cpu (by rw [here]; rfl) here

instance (s : State) : (label : Label) → Decidable (NoOverflow s label)
  | .call _ => decidable_of_iff _ noOverflow_call_iff.symm
  | .start _ _ | .interrupt _ | .handler _ => inferInstanceAs (Decidable True)

/-- A queued request has a handler at work, an interrupt pending or a sender about to
send one. -/
def NoneStranded (s : State) : Prop :=
  ∀ t, ∀ r ∈ (s.processors t).ipiQueue,
    (s.processors t).handler ≠ .inactive ∨ (s.processors t).interrupt = true ∨
      (s.calls r.call).phase.unsent t = true

section Delivery

variable {n : Nat} {s s' : State}

theorem Delivery.noneStranded (delivery : Delivery s) : NoneStranded s := by
  intro t r member
  rcases delivery.sent t r member with unsent | active | pending
  · exact .inr (.inr unsent)
  · exact .inl active
  · exact .inr (.inl pending)

theorem delivery_call {c cpu : Nat} (delivery : Delivery s) (started : s'.started = s.started)
    (others : ∀ d, d ≠ c → s'.calls d = s.calls d)
    (elsewhere : ∀ t, t ≠ cpu → s'.processors t = s.processors t)
    (queue : (s'.processors cpu).ipiQueue = (s.processors cpu).ipiQueue)
    (handler : (s'.processors cpu).handler = (s.processors cpu).handler)
    (more : (s.processors cpu).ipiPending ≤ (s'.processors cpu).ipiPending)
    (kept : (s.processors cpu).interrupt = true → (s'.processors cpu).interrupt = true)
    (increment : ∀ t, (s.calls c).phase = .increment t →
      t = cpu ∧ 0 < (s'.processors cpu).ipiPending)
    (unsent : ∀ t, (s.calls c).phase.unsent t = true →
      (s'.calls c).phase.unsent t = true ∨ t = cpu ∧ (s'.processors cpu).interrupt = true) :
    Delivery s' := by
  have queues : ∀ t, (s'.processors t).ipiQueue = (s.processors t).ipiQueue := by
    intro t
    by_cases here : t = cpu
    · rw [here, queue]
    · rw [elsewhere t here]
  have handlers : ∀ t, (s'.processors t).handler = (s.processors t).handler := by
    intro t
    by_cases here : t = cpu
    · rw [here, handler]
    · rw [elsewhere t here]
  have counts : ∀ t, (s.processors t).ipiPending ≤ (s'.processors t).ipiPending := by
    intro t
    by_cases here : t = cpu
    · rwa [here]
    · exact Int.le_of_eq (congrArg Processor.ipiPending (elsewhere t here)).symm
  have flags : ∀ t, (s.processors t).interrupt = true → (s'.processors t).interrupt = true := by
    intro t
    by_cases here : t = cpu
    · rwa [here]
    · rw [elsewhere t here]
      exact id
  constructor
  · intro t r member
    rw [queues] at member
    rw [started]
    exact delivery.known t r member
  · intro t
    exact Int.le_trans (delivery.nonneg t) (counts t)
  · intro t r member
    rw [queues] at member
    rw [handlers]
    rcases delivery.noticed t r member with counted | drains | about
    · exact .inl (Int.lt_of_lt_of_le counted (counts t))
    · exact .inr (.inl drains)
    · by_cases own : r.call = c
      · rw [own] at about
        obtain ⟨here, positive⟩ := increment t about
        exact .inl (here ▸ positive)
      · rw [others _ own]
        exact .inr (.inr about)
  · intro t r member
    rw [queues] at member
    rw [handlers]
    rcases delivery.sent t r member with waits | active | pending
    · by_cases own : r.call = c
      · rw [own] at waits ⊢
        rcases unsent t waits with still | ⟨here, interrupt⟩
        · exact .inl still
        · exact .inr (.inr (here ▸ interrupt))
      · rw [others _ own]
        exact .inl waits
    · exact .inr (.inl active)
    · exact .inr (.inr (flags t pending))

theorem delivery_goto {c cpu : Nat} {processor : Processor} {phase : Phase} (delivery : Delivery s)
    (queue : processor.ipiQueue = (s.processors cpu).ipiQueue)
    (handler : processor.handler = (s.processors cpu).handler)
    (more : (s.processors cpu).ipiPending ≤ processor.ipiPending)
    (kept : (s.processors cpu).interrupt = true → processor.interrupt = true)
    (increment : ∀ t, (s.calls c).phase = .increment t → t = cpu ∧ 0 < processor.ipiPending)
    (unsent : ∀ t, (s.calls c).phase.unsent t = true →
      phase.unsent t = true ∨ t = cpu ∧ processor.interrupt = true) :
    Delivery ((s.setProcessor cpu processor).goto c phase) := by
  have here : ((s.setProcessor cpu processor).goto c phase).processors cpu = processor :=
    setProcessor_self s _
  have call : ((s.setProcessor cpu processor).goto c phase).calls c =
      { s.calls c with phase := phase } := setCall_self _ _
  refine @delivery_call s _ c cpu delivery rfl ?_ ?_ ?_ ?_ ?_ ?_ ?_ ?_
  · exact fun d other => setCall_other _ _ other
  · exact fun t other => setProcessor_other s _ other
  · rwa [here]
  · rwa [here]
  · rwa [here]
  · rwa [here]
  · rwa [here]
  · rwa [here, call]

theorem delivery_quiet {c cpu : Nat} {processor : Processor} {phase : Phase} (delivery : Delivery s)
    (queue : processor.ipiQueue = (s.processors cpu).ipiQueue)
    (handler : processor.handler = (s.processors cpu).handler)
    (pending : processor.ipiPending = (s.processors cpu).ipiPending)
    (interrupt : processor.interrupt = (s.processors cpu).interrupt)
    (notIncrement : ∀ t, (s.calls c).phase ≠ .increment t)
    (notUnsent : ∀ t, (s.calls c).phase.unsent t = false) :
    Delivery ((s.setProcessor cpu processor).goto c phase) := by
  apply delivery_goto delivery queue handler
  · exact Int.le_of_eq pending.symm
  · rw [interrupt]
    exact id
  · exact fun t at' => absurd at' (notIncrement t)
  · intro t waits
    rw [notUnsent t] at waits
    cases waits

theorem delivery_handler {cpu : Nat} (delivery : Delivery s) (started : s'.started = s.started)
    (phases : ∀ d, (s'.calls d).phase = (s.calls d).phase)
    (elsewhere : ∀ t, t ≠ cpu → s'.processors t = s.processors t)
    (fewer : ∀ r ∈ (s'.processors cpu).ipiQueue, r ∈ (s.processors cpu).ipiQueue)
    (nonneg : 0 ≤ (s'.processors cpu).ipiPending)
    (noticed : ∀ r ∈ (s'.processors cpu).ipiQueue,
      0 < (s'.processors cpu).ipiPending ∨ (s'.processors cpu).handler.drains = true ∨
        (s.calls r.call).phase = .increment cpu)
    (sent : ∀ r ∈ (s'.processors cpu).ipiQueue,
      (s.calls r.call).phase.unsent cpu = true ∨ (s'.processors cpu).handler ≠ .inactive) :
    Delivery s' := by
  constructor
  · intro t r member
    rw [started]
    by_cases here : t = cpu
    · rw [here] at member
      exact delivery.known cpu r (fewer r member)
    · rw [elsewhere t here] at member
      exact delivery.known t r member
  · intro t
    by_cases here : t = cpu
    · rwa [here]
    · rw [elsewhere t here]
      exact delivery.nonneg t
  · intro t r member
    rw [phases]
    by_cases here : t = cpu
    · rw [here] at member ⊢
      exact noticed r member
    · rw [elsewhere t here] at member ⊢
      exact delivery.noticed t r member
  · intro t r member
    rw [phases]
    by_cases here : t = cpu
    · rw [here] at member ⊢
      rcases sent r member with unsent | active
      · exact .inl unsent
      · exact .inr (.inl active)
    · rw [elsewhere t here] at member ⊢
      exact delivery.sent t r member

section Delivery

variable (delivery : Delivery s)
include delivery

/-- A request that is queued is on its way: its call has yet to raise the pending count. -/
theorem delivery_insert {c i : Nat} (begun : c < s.started)
    (phase : (s.calls c).phase = .insert i) :
    Delivery ((s.setProcessor i
      { s.processors i with ipiQueue := (s.processors i).ipiQueue ++ [⟨c, i⟩] }).goto c
        (.increment i)) := by
  generalize shape : (s.setProcessor i
    { s.processors i with ipiQueue := (s.processors i).ipiQueue ++ [⟨c, i⟩] }).goto c
      (.increment i) = s'
  have started : s'.started = s.started := by rw [← shape]; rfl
  have here : s'.processors i =
      { s.processors i with ipiQueue := (s.processors i).ipiQueue ++ [⟨c, i⟩] } := by
    rw [← shape]
    exact setProcessor_self s _
  have elsewhere : ∀ t, t ≠ i → s'.processors t = s.processors t := by
    intro t other
    rw [← shape]
    exact setProcessor_other s _ other
  have call : (s'.calls c).phase = .increment i := by
    rw [← shape]
    exact congrArg Call.phase (setCall_self _ _)
  have others : ∀ d, d ≠ c → s'.calls d = s.calls d := by
    intro d other
    rw [← shape]
    exact setCall_other _ _ other
  -- What was queued before is as it was: its sender is elsewhere, or it is this call.
  have earlier : ∀ t, ∀ r ∈ (s'.processors t).ipiQueue,
      r ∈ (s.processors t).ipiQueue ∨ r = ⟨c, i⟩ ∧ t = i := by
    intro t r member
    by_cases own : t = i
    · rw [own, here, mem_append, mem_singleton] at member
      rw [own]
      rcases member with old | new
      · exact .inl old
      · exact .inr ⟨new, rfl⟩
    · rw [elsewhere t own] at member
      exact .inl member
  have same : ∀ t, (s'.processors t).ipiPending = (s.processors t).ipiPending ∧
      (s'.processors t).handler = (s.processors t).handler ∧
      (s'.processors t).interrupt = (s.processors t).interrupt := by
    intro t
    by_cases own : t = i
    · rw [own, here]
      exact ⟨rfl, rfl, rfl⟩
    · rw [elsewhere t own]
      exact ⟨rfl, rfl, rfl⟩
  constructor
  · intro t r member
    rw [started]
    rcases earlier t r member with old | ⟨new, _⟩
    · exact delivery.known t r old
    · rwa [new]
  · intro t
    rw [(same t).1]
    exact delivery.nonneg t
  · intro t r member
    rw [(same t).1, (same t).2.1]
    rcases earlier t r member with old | ⟨new, own⟩
    · rcases delivery.noticed t r old with counted | drains | about
      · exact .inl counted
      · exact .inr (.inl drains)
      · have different : r.call ≠ c := by
          intro same
          rw [same, phase] at about
          cases about
        rw [others _ different]
        exact .inr (.inr about)
    · rw [new, own]
      exact .inr (.inr call)
  · intro t r member
    rw [(same t).2.1, (same t).2.2]
    rcases earlier t r member with old | ⟨new, own⟩
    · rcases delivery.sent t r old with waits | active | pending
      · have different : r.call ≠ c := by
          intro same
          rw [same, phase] at waits
          cases waits
        rw [others _ different]
        exact .inl waits
      · exact .inr (.inl active)
      · exact .inr (.inr pending)
    · rw [new, own, call]
      simp [Phase.unsent]

/-- So does a call, as long as the pending count does not wrap. -/
theorem delivery_callStep {c : Nat} (begun : c < s.started)
    (fits : NoOverflow s (.call c)) (done : callStep n s c = some s') : Delivery s' := by
  have goto : ∀ phase, (∀ t, (s.calls c).phase ≠ .increment t) →
      (∀ t, (s.calls c).phase.unsent t = false) → Delivery (s.goto c phase) := by
    intro phase notIncrement notUnsent
    have moved := @delivery_quiet s c 0 (s.processors 0) phase delivery rfl rfl rfl rfl
      notIncrement notUnsent
    rwa [setProcessor_same] at moved
  unfold callStep at done
  cases phase : (s.calls c).phase with
  | test cpu =>
    have moves : ∀ next, Delivery (s.goto c next) :=
      fun next => goto next (by simp [phase]) (by simp [phase, Phase.unsent])
    simp only [phase] at done
    split at done
    · split at done
      · cases done
        exact moves _
      · cases done
        exact moves _
    · cases done
      exact moves _
  | acquire cpu =>
    simp only [phase] at done
    split at done
    · cases done
    · cases done
      exact delivery_quiet delivery rfl rfl rfl rfl (by simp [phase])
        (by simp [phase, Phase.unsent])
  | insert cpu =>
    simp only [phase] at done
    cases done
    exact delivery_insert delivery begun phase
  | increment cpu =>
    have below := fits cpu phase
    have nonneg := delivery.nonneg cpu
    have whole : wrapLong ((s.processors cpu).ipiPending + 1) =
        (s.processors cpu).ipiPending + 1 := by
      unfold wrapLong
      omega
    simp only [phase] at done
    cases done
    rw [whole]
    apply delivery_goto delivery
    · rfl
    · rfl
    · simp only
      omega
    · exact id
    · intro t at'
      rw [phase] at at'
      cases at'
      refine ⟨rfl, ?_⟩
      simp only
      omega
    · intro t waits
      rw [phase] at waits
      exact .inl waits
  | release cpu =>
    simp only [phase] at done
    cases done
    refine delivery_goto delivery rfl rfl (Int.le_refl _) id ?_ ?_
    · intro t at'
      rw [phase] at at'
      cases at'
    · intro t waits
      rw [phase] at waits
      exact .inl waits
  | send cpu =>
    simp only [phase] at done
    cases done
    refine delivery_goto delivery rfl rfl (Int.le_refl _) (fun _ => rfl) ?_ ?_
    · intro t at'
      rw [phase] at at'
      cases at'
    · intro t waits
      rw [phase] at waits
      simp only [Phase.unsent, decide_eq_true_eq] at waits
      exact .inr ⟨waits.symm, rfl⟩
  | count cpu =>
    simp only [phase] at done
    cases done
    refine @delivery_call s _ c 0 delivery rfl ?_ ?_ ?_ ?_ ?_ ?_ ?_ ?_
    · exact fun d other => setCall_other _ _ other
    · exact fun _ _ => rfl
    · rfl
    · rfl
    · exact Int.le_refl _
    · exact id
    · intro t at'
      rw [phase] at at'
      cases at'
    · intro t waits
      rw [phase] at waits
      cases waits
  | own =>
    simp only [phase] at done
    cases done
    exact goto _ (by simp [phase]) (by simp [phase, Phase.unsent])
  | wait =>
    simp only [phase] at done
    split at done
    · cases done
      exact delivery
    · cases done
      exact delivery_quiet delivery rfl rfl rfl rfl (by simp [phase])
        (by simp [phase, Phase.unsent])
  | returned =>
    simp only [phase] at done
    cases done

theorem delivery_same (started : s.started ≤ s'.started)
    (processors : ∀ t, (s'.processors t).ipiQueue = (s.processors t).ipiQueue ∧
      (s'.processors t).ipiPending = (s.processors t).ipiPending ∧
      (s'.processors t).handler = (s.processors t).handler ∧
      (s'.processors t).interrupt = (s.processors t).interrupt)
    (phases : ∀ d < s.started, (s'.calls d).phase = (s.calls d).phase) : Delivery s' := by
  constructor
  · intro t r member
    rw [(processors t).1] at member
    exact Nat.lt_of_lt_of_le (delivery.known t r member) started
  · intro t
    rw [(processors t).2.1]
    exact delivery.nonneg t
  · intro t r member
    rw [(processors t).1] at member
    rw [(processors t).2.1, (processors t).2.2.1, phases _ (delivery.known t r member)]
    exact delivery.noticed t r member
  · intro t r member
    rw [(processors t).1] at member
    rw [(processors t).2.2.1, (processors t).2.2.2, phases _ (delivery.known t r member)]
    exact delivery.sent t r member

/-- Every step of a handler leaves queued requests on their way. -/
theorem delivery_handlerStep {cpu : Nat} (done : handlerStep s cpu = some s') : Delivery s' := by
  -- A step that leaves the list and the count alone and ends in a handler at work.
  have active : ∀ processor : Processor, processor.ipiQueue = (s.processors cpu).ipiQueue →
      processor.ipiPending = (s.processors cpu).ipiPending → processor.handler ≠ .inactive →
      ((s.processors cpu).handler.drains = true → processor.handler.drains = true) →
      Delivery (s.setProcessor cpu processor) := by
    intro processor queue pending working drains
    have here := @setProcessor_self s cpu processor
    refine @delivery_handler s _ cpu delivery rfl (fun _ => rfl)
      (fun t other => setProcessor_other s _ other) ?_ ?_ ?_ ?_
    · rw [here, queue]
      exact fun _ member => member
    · rw [here, pending]
      exact delivery.nonneg cpu
    · rw [here, queue, pending]
      intro r member
      rcases delivery.noticed cpu r member with counted | draining | about
      · exact .inl counted
      · exact .inr (.inl (drains draining))
      · exact .inr (.inr about)
    · rw [here]
      exact fun _ _ => .inr working
  unfold handlerStep at done
  cases handler : (s.processors cpu).handler with
  | inactive =>
    simp only [handler] at done
    cases done
  | exchange =>
    simp only [handler] at done
    cases done
    have here := @setProcessor_self s cpu
      { s.processors cpu with
        ipiPending := 0
        handler := if 0 < (s.processors cpu).ipiPending then .acquire else .inactive }
    refine @delivery_handler s _ cpu delivery rfl (fun _ => rfl)
      (fun t other => setProcessor_other s _ other) ?_ ?_ ?_ ?_
    · rw [here]
      exact fun _ member => member
    · exact Int.le_of_eq (congrArg Processor.ipiPending here).symm
    · rw [here]
      intro r member
      rcases delivery.noticed cpu r member with counted | draining | about
      · exact .inr (.inl (by rw [if_pos counted]; rfl))
      · rw [handler] at draining
        cases draining
      · exact .inr (.inr about)
    · rw [here]
      intro r member
      rcases delivery.noticed cpu r member with counted | draining | about
      · exact .inr (by rw [if_pos counted]; exact fun same => by cases same)
      · rw [handler] at draining
        cases draining
      · exact .inl (by rw [about]; simp [Phase.unsent])
  | acquire =>
    simp only [handler] at done
    split at done
    · cases done
    · cases done
      exact active _ rfl rfl (fun same => by cases same) (fun _ => rfl)
  | check =>
    simp only [handler] at done
    split at done
    · rename_i empty
      cases done
      have here := @setProcessor_self s cpu { s.processors cpu with handler := .leave }
      have none : ∀ r, r ∉ (s.processors cpu).ipiQueue := by
        intro r
        rw [empty]
        exact not_mem_nil
      refine @delivery_handler s _ cpu delivery rfl (fun _ => rfl)
        (fun t other => setProcessor_other s _ other) ?_ ?_ ?_ ?_
      · exact fun _ member => by rwa [State.setHandler, here] at member
      · rw [State.setHandler, here]
        exact delivery.nonneg cpu
      · rw [State.setHandler, here]
        exact fun r member => absurd member (none r)
      · rw [State.setHandler, here]
        exact fun r member => absurd member (none r)
    · rename_i request rest queue
      cases done
      have here := @setProcessor_self s cpu
        { s.processors cpu with ipiQueue := rest, handler := .taken request }
      refine @delivery_handler s _ cpu delivery rfl (fun _ => rfl)
        (fun t other => setProcessor_other s _ other) ?_ ?_ ?_ ?_
      · rw [here, queue]
        exact fun _ member => mem_cons_of_mem _ member
      · rw [here]
        exact delivery.nonneg cpu
      · rw [here]
        exact fun _ _ => .inr (.inl rfl)
      · rw [here]
        exact fun _ _ => .inr (fun same => by cases same)
  | leave =>
    simp only [handler] at done
    cases done
    refine active _ rfl rfl (fun same => by cases same) (fun draining => ?_)
    rw [handler] at draining
    cases draining
  | taken request | free request =>
    simp only [handler] at done
    cases done
    exact active _ rfl rfl (fun same => by cases same) (fun _ => rfl)
  | run request =>
    simp only [handler] at done
    cases done
    have moved := active { s.processors cpu with handler := .signal request } rfl rfl
      (fun same => by cases same) (fun _ => rfl)
    exact delivery_same moved (Nat.le_refl _) (fun _ => ⟨rfl, rfl, rfl, rfl⟩) (fun _ _ => rfl)
  | signal request =>
    simp only [handler] at done
    cases done
    have freed := active { s.processors cpu with handler := .free request } rfl rfl
      (fun same => by cases same) (fun _ => rfl)
    refine delivery_same freed (Nat.le_refl _) (fun _ => ⟨rfl, rfl, rfl, rfl⟩) (fun d _ => ?_)
    by_cases own : d = request.call
    · subst own
      rw [setCall_self]
      rfl
    · rw [setCall_other _ _ own]
      rfl

theorem delivery_interrupt {cpu : Nat} (done : interruptStep s cpu = some s') : Delivery s' := by
  unfold interruptStep at done
  split at done
  · rename_i taken
    cases done
    have here := @setProcessor_self s cpu
      { s.processors cpu with interrupt := false, handler := .exchange }
    refine @delivery_handler s _ cpu delivery rfl (fun _ => rfl)
      (fun t other => setProcessor_other s _ other) ?_ ?_ ?_ ?_
    · rw [here]
      exact fun _ member => member
    · rw [here]
      exact delivery.nonneg cpu
    · rw [here]
      intro r member
      rcases delivery.noticed cpu r member with counted | draining | about
      · exact .inl counted
      · rw [taken.2] at draining
        cases draining
      · exact .inr (.inr about)
    · rw [here]
      exact fun _ _ => .inr (fun same => by cases same)
  · cases done

theorem delivery_start {cpu : Nat} {targets : BitVec 64}
    (done : start n s cpu targets = some s') : Delivery s' := by
  unfold start at done
  split at done
  · cases done
    apply delivery_same delivery (Nat.le_succ _)
    · intro t
      have fields := @setProcessor_field s _
        (fun p => (p.ipiQueue, p.ipiPending, p.handler, p.interrupt)) cpu
        { s.processors cpu with calling := true } rfl t
      simp only [Prod.mk.injEq] at fields
      exact fields
    · intro d earlier
      exact congrArg Call.phase (newCall_old _ _ (Nat.ne_of_lt earlier))
  · cases done

theorem delivery_step {label : Label} (fits : NoOverflow s label)
    (done : step n s label = some s') : Delivery s' := by
  cases label with
  | start cpu targets => exact delivery_start delivery done
  | call c =>
    simp only [step] at done
    split at done
    · rename_i begun
      exact delivery_callStep delivery begun fits done
    · cases done
  | interrupt cpu => exact delivery_interrupt delivery done
  | handler cpu => exact delivery_handlerStep delivery done

end Delivery

theorem delivery_initial : Delivery initial where
  known := fun _ _ member => absurd member not_mem_nil
  nonneg := fun _ => Int.le_refl 0
  noticed := fun _ _ member => absurd member not_mem_nil
  sent := fun _ _ member => absurd member not_mem_nil

end Delivery

/-- In every run the functions are run as they should, once each. In every run in which
no `IpiPending` overflows no request is left behind. -/
theorem keIpiGenericCall_runs (n : Nat) :
    (∀ s, Reaches (step n) (fun _ _ => True) initial s → RunsOnce n s) ∧
    ∀ s, Reaches (step n) NoOverflow initial s → NoneStranded s := by
  constructor
  · intro s run
    have settled : Settled s := run.invariant (fun c begun => absurd begun (Nat.not_lt_zero c))
      (fun _ _ _ settled _ done => settled_step settled done)
    exact runsOnce (lives_of_reaches run) settled
  · intro s run
    have delivery : Delivery s := run.invariant delivery_initial
      (fun _ _ _ delivery fits done => delivery_step delivery fits done)
    exact delivery.noneStranded

/-- A call from processor 0 to processor 1, up to the interrupt: its request waits in the queue. -/
def sending : List Label :=
  [.start 0 2#64, .call 0, .call 0, .call 0, .call 0, .call 0, .call 0, .call 0]

/-- The rest of it. The handler is done before the call has counted the request. -/
def receiving : List Label :=
  [.interrupt 1, .handler 1, .handler 1, .handler 1, .handler 1, .handler 1, .handler 1,
    .call 0, .call 0, .call 0, .call 0]

theorem keIpiGenericCall_runs_early :
    (∃ s : State, (s.processors 1).ipiQueue = [⟨0, 1⟩] ∧ RunsOnce 2 s ∧ NoneStranded s) ∧
      ∃ s : State, (s.calls 0).phase = .returned ∧ s.ran = [(⟨0, 1⟩, 1)] ∧ RunsOnce 2 s ∧
        NoneStranded s := by
  have sent : checkedRun (step 2) NoOverflow initial sending = some _ := rfl
  have received : checkedRun (step 2) NoOverflow initial (sending ++ receiving) = some _ := rfl
  have queued := Reaches.start.checked sent
  have returned := Reaches.start.checked received
  obtain ⟨runs, none⟩ := keIpiGenericCall_runs 2
  exact ⟨⟨_, rfl, runs _ (queued.mono fun _ _ _ => trivial), none _ queued⟩,
    ⟨_, rfl, rfl, runs _ (returned.mono fun _ _ _ => trivial), none _ returned⟩⟩

end MinNT.Ipi
