import MinNT.Ke.TimerFiring

namespace MinNT.Timer

open List ListEntry Transition

/-- The lists behind a timer table. -/
structure Follows (table : TimerTable) (model : Model) : Prop where
  related : Related table model
  inPlace : InPlace model

def Model.start (tickCount : BitVec 64) : Model :=
  ⟨fun _ => [], fun _ => keInitializeTimer, tickCount, .waiting, []⟩

theorem follows_start (tickCount : BitVec 64) :
    Follows (keTimerInitSystem tickCount) (Model.start tickCount) := by
  constructor
  · refine ⟨?_, rfl, rfl, rfl, rfl⟩
    have selfLinked : ∀ node, Ring (keTimerInitSystem tickCount).links node [] :=
      fun node => ⟨⟨rfl, rfl⟩, nodup_singleton node⟩
    exact ⟨fun list => selfLinked list.head, fun _ _ _ _ _ => not_mem_nil,
      fun item _ => selfLinked (.timer item)⟩
  · exact
      { once := fun _ => nodup_nil
        apart := fun _ _ _ _ _ => not_mem_nil
        live := fun _ _ member => absurd member not_mem_nil
        quiet := fun _ => rfl
        position := fun _ scanning => by cases scanning
        popped := fun _ _ _ => not_mem_nil }

section Follows

variable {dpcs : Nat → KDpc} {table next : TimerTable} {model : Model}

theorem Follows.step {label : Label} (follows : Follows table model)
    (done : step dpcs table label = some next) :
    ∃ following, model.step dpcs label = some following ∧ Follows next following := by
  have both := follows.related.step dpcs follows.inPlace label
  rw [done] at both
  cases both' : model.step dpcs label with
  | none =>
    rw [both'] at both
    cases both
  | some following =>
    rw [both'] at both
    cases both with
    | some related => exact ⟨following, rfl, related, follows.inPlace.step both'⟩

theorem Follows.lift {label : Label} {following : Model} (follows : Follows table model)
    (done : model.step dpcs label = some following) :
    ∃ next, MinNT.Timer.step dpcs table label = some next ∧ Follows next following := by
  have both := follows.related.step dpcs follows.inPlace label
  rw [done] at both
  cases both' : MinNT.Timer.step dpcs table label with
  | none =>
    rw [both'] at both
    cases both
  | some next =>
    rw [both'] at both
    cases both with
    | some related => exact ⟨next, rfl, related, follows.inPlace.step done⟩

theorem Follows.run {labels : List Label} (follows : Follows table model)
    (done : runFrom (MinNT.Timer.step dpcs) table labels = some next) :
    ∃ following, runFrom (Model.step dpcs) model labels = some following ∧
      Follows next following := by
  have simulates : ∀ table model label next, Follows table model →
      MinNT.Timer.step dpcs table label = some next →
      ∃ following, Model.step dpcs model label = some following ∧ Follows next following :=
    fun _ _ _ _ follows done => follows.step done
  exact runFrom_simulates simulates follows done

theorem Follows.liftRun {labels : List Label} {following : Model} (follows : Follows table model)
    (done : runFrom (Model.step dpcs) model labels = some following) :
    ∃ next, runFrom (MinNT.Timer.step dpcs) table labels = some next ∧ Follows next following := by
  have simulates : ∀ model table label following, Follows table model →
      Model.step dpcs model label = some following →
      ∃ next, MinNT.Timer.step dpcs table label = some next ∧ Follows next following :=
    fun _ _ _ _ follows done => follows.lift done
  exact runFrom_simulates simulates follows done

theorem follows_of_reaches {tickCount : BitVec 64}
    (run : Reaches (MinNT.Timer.step dpcs) (fun _ _ => True) (keTimerInitSystem tickCount) table) :
    ∃ model, Follows table model := by
  induction run with
  | start => exact ⟨_, follows_start tickCount⟩
  | step _ _ done ih =>
    obtain ⟨model, follows⟩ := ih
    obtain ⟨following, _, next⟩ := follows.step done
    exact ⟨following, next⟩

theorem Follows.active (follows : Follows table model) (waiting : model.phase = .waiting)
    {timer : Nat} (linked : isListEmpty table.links (.timer timer) = false) :
    timer ∈ model.lists .active := by
  have notEmpty : ¬ isListEmpty table.links (.timer timer) = true := by simp [linked]
  rw [follows.related.family.isListEmpty_entry names] at notEmpty
  simp only [not_forall, not_not] at notEmpty
  obtain ⟨list, member⟩ := notEmpty
  cases list with
  | active => exact member
  | fired =>
    rw [follows.inPlace.quiet waiting] at member
    exact absurd member not_mem_nil

end Follows

section Progress

variable {dpcs : Nat → KDpc} {model : Model}

/-- The thread's own steps lead to the end of the pass. -/
def Ends (dpcs : Nat → KDpc) (model : Model) : Prop :=
  ∃ labels ended, (∀ label ∈ labels, label.touches = none) ∧
    runFrom (Model.step dpcs) model labels = some ended ∧ ended.phase = .waiting

theorem Ends.before {next : Model} {label : Label} (ends : Ends dpcs next)
    (own : label.touches = none) (done : model.step dpcs label = some next) : Ends dpcs model := by
  obtain ⟨labels, ended, untouched, run, waiting⟩ := ends
  refine ⟨label :: labels, ended, ?_, ?_, waiting⟩
  · intro other member
    rcases mem_cons.mp member with same | later
    · rw [same, own]
    · exact untouched other later
  · rw [runFrom_cons, done]
    exact run

theorem routine_ends (inPlace : InPlace model) {timer : Nat} {dpc : Option Nat}
    (inside : model.phase = .inRoutine timer dpc)
    (loop : ∀ next, InPlace next → next.phase = .firing →
      next.lists .fired = model.lists .fired → Ends dpcs next) : Ends dpcs model := by
  have done : model.step dpcs .routineReturns =
      some ((model.rearmOrFree dpcs timer dpc).withPhase .firing) := by
    simp only [Model.step, inside]
  apply Ends.before _ rfl done
  apply loop _ (inPlace.step done) rfl
  exact rearmOrFree_fired (inPlace.popped timer dpc inside)

theorem firing_ends (inPlace : InPlace model) (firing : model.phase = .firing) {rest : List Nat}
    (shape : model.lists .fired = rest) : Ends dpcs model := by
  induction rest generalizing model with
  | nil =>
    have done : model.step dpcs .endPass = some (model.withPhase .waiting) := by
      simp only [Model.step, firing, shape]
    exact ⟨[.endPass], _, by simp [Label.touches], by rw [runFrom_cons, done]; rfl, rfl⟩
  | cons timer rest ih =>
    have done : model.step dpcs .fire = some (model.fireFirst dpcs timer) := by
      simp only [Model.step, firing, shape]
    have next := inPlace.step done
    have smaller := fireFirst_fired dpcs inPlace.toSound shape
    apply Ends.before _ rfl done
    rcases fireFirst_phase dpcs firing timer with ⟨dpc, inside⟩ | still
    · apply routine_ends next inside
      intro later inPlace firing same
      exact ih inPlace firing (same.trans smaller)
    · exact ih next still smaller

theorem scan_ends {rest : List Nat} (inPlace : InPlace model)
    (scanning : model.phase = .scanning rest) : Ends dpcs model := by
  induction rest generalizing model with
  | nil =>
    have done : model.step dpcs .scan = some (model.withPhase .firing) := by
      simp only [Model.step, scanning]
    exact (firing_ends (inPlace.step done) rfl rfl).before rfl done
  | cons timer rest ih =>
    have done : model.step dpcs .scan = some (model.scanFirst timer rest) := by
      simp only [Model.step, scanning]
    exact (ih (inPlace.step done) rfl).before rfl done

variable (dpcs) in
theorem pass_ends (inPlace : InPlace model) : Ends dpcs model := by
  cases phase : model.phase with
  | waiting => exact ⟨[], model, by simp, rfl, phase⟩
  | scanning rest => exact scan_ends inPlace phase
  | firing => exact firing_ends inPlace phase rfl
  | inRoutine timer dpc =>
    exact routine_ends inPlace phase (fun _ next firing _ => firing_ends next firing rfl)

end Progress

section Runs

variable {dpcs : Nat → KDpc} {model last : Model} {index : Nat} {call : DpcCall}
  {before : List DpcCall} {labels : List Label}

theorem untouched_run {holds : Model → Prop} (inPlace : InPlace model)
    (initial : holds model) (untouched : Untouched index labels)
    (preserved : ∀ model next, InPlace model → holds model → Change dpcs index model next →
      holds next)
    (done : runFrom (Model.step dpcs) model labels = some last) : InPlace last ∧ holds last := by
  have steps : ∀ model label next, InPlace model ∧ holds model → label.touches ≠ some index →
      Model.step dpcs model label = some next → InPlace next ∧ holds next := by
    intro model label next both untouched done
    exact ⟨both.1.step done, preserved model next both.1 both.2
      (change_of_step both.1 untouched done)⟩
  exact runFrom_keeps steps ⟨inPlace, initial⟩ untouched done

variable {dueTime : BitVec 64}

theorem OnceArmed.run (armed : OnceArmed dpcs index call dueTime before model)
    (inPlace : InPlace model) (untouched : Untouched index labels)
    (done : runFrom (Model.step dpcs) model labels = some last) :
    OnceArmed dpcs index call dueTime before last :=
  (untouched_run inPlace armed untouched (fun _ _ inPlace armed change =>
    armed.change inPlace change) done).2

theorem InPass.run (inPass : InPass dpcs index call before model) (inPlace : InPlace model)
    (untouched : Untouched index labels)
    (done : runFrom (Model.step dpcs) model labels = some last) :
    InPass dpcs index call before last :=
  (untouched_run inPlace inPass untouched (fun _ _ inPlace inPass change =>
    inPass.change inPlace change) done).2

theorem InPass.called (inPass : InPass dpcs index call before model)
    (waiting : model.phase = .waiting) :
    ∃ more, callsOf model.calls index = before ++ call :: more := by
  rcases inPass with called | ⟨phase, _⟩
  · exact called
  · exact absurd waiting phase

theorem inPass_of_begin {scan : Model} (begun : model.step dpcs .beginPass = some scan)
    (active : index ∈ model.lists .active) (due : (model.timers index).dueTime ≤ model.tickCount)
    (found : (model.timers index).dpcCall dpcs index = some call) :
    InPass dpcs index call (callsOf model.calls index) scan := by
  cases Model.steps begun with
  | beginPass =>
    exact .inr ⟨by simp [Model.withPhase], found, rfl, .inl ⟨active, due⟩⟩

theorem OnceArmed.begin {scan : Model} (armed : OnceArmed dpcs index call dueTime before model)
    (inPlace : InPlace model) (begun : model.step dpcs .beginPass = some scan)
    (due : dueTime ≤ model.tickCount) : InPass dpcs index call before scan := by
  have waiting : model.phase = .waiting := by
    cases Model.steps begun with
    | beginPass waiting => exact waiting
  rcases armed.state with ⟨⟨list, linked⟩, found, calls⟩ | ⟨_, called⟩
  · have active : index ∈ model.lists .active := by
      cases list with
      | active => exact linked
      | fired =>
        rw [inPlace.quiet waiting] at linked
        exact absurd linked not_mem_nil
    have reached : (model.timers index).dueTime ≤ model.tickCount := by
      rw [armed.due]
      exact due
    rw [← calls]
    exact inPass_of_begin begun active reached found
  · simp only [Model.step, waiting] at begun
    cases begun
    exact .inl ⟨[], called⟩

theorem OnceArmed.exactlyOnce (armed : OnceArmed dpcs index call dueTime before model)
    (inPass : InPass dpcs index call before model) (waiting : model.phase = .waiting) :
    callsOf model.calls index = before ++ [call] := by
  obtain ⟨more, called⟩ := inPass.called waiting
  rcases armed.state with ⟨_, _, calls⟩ | ⟨_, calls⟩
  · rw [calls] at called
    simp at called
  · exact calls

theorem dueSince_of_begin {scan : Model} (inPlace : InPlace model)
    (begun : model.step dpcs .beginPass = some scan) : DueSince model.tickCount scan := by
  cases Model.steps begun with
  | beginPass waiting =>
    refine ⟨?_, fun _ _ => rfl⟩
    intro timer fired
    simp only [Model.withPhase, inPlace.quiet waiting] at fired
    exact absurd fired not_mem_nil

theorem DueSince.run {tickCount : BitVec 64} (due : DueSince tickCount model)
    (inPlace : InPlace model) (noBegin : .beginPass ∉ labels)
    (done : runFrom (Model.step dpcs) model labels = some last) : DueSince tickCount last := by
  have steps : ∀ model label next, InPlace model ∧ DueSince tickCount model →
      label ≠ .beginPass → Model.step dpcs model label = some next →
      InPlace next ∧ DueSince tickCount next := by
    intro model label next both notBegin done
    exact ⟨both.1.step done, both.2.step both.1 notBegin done⟩
  have others : ∀ label ∈ labels, label ≠ .beginPass :=
    fun label member same => noBegin (same ▸ member)
  exact (runFrom_keeps steps ⟨inPlace, due⟩ others done).2

theorem untouched_prefix (index : Nat) (labels : List Label) :
    ∃ front rest, labels = front ++ rest ∧ Untouched index front ∧
      (rest = [] ∨ ∃ label others, rest = label :: others ∧ label.touches = some index) := by
  induction labels with
  | nil => exact ⟨[], [], rfl, by simp [Untouched], .inl rfl⟩
  | cons label labels ih =>
    by_cases touches : label.touches = some index
    · exact ⟨[], label :: labels, rfl, by simp [Untouched], .inr ⟨label, labels, rfl, touches⟩⟩
    · obtain ⟨front, rest, shape, untouched, ends⟩ := ih
      refine ⟨label :: front, rest, by rw [shape, cons_append], ?_, ends⟩
      intro other member
      rcases mem_cons.mp member with same | later
      · rw [same]
        exact touches
      · exact untouched other later

theorem onceArmed_of_set {dpc routine : Nat}
    (routineOf : (dpcs dpc).deferredRoutine = some routine) :
    OnceArmed dpcs index ⟨index, routine, dpc, (dpcs dpc).deferredContext,
        (dpcs dpc).systemArgument1, (dpcs dpc).systemArgument2⟩
      (dueTimeToTicks model.tickCount dueTime) (callsOf model.calls index)
      (model.set dpcs index dueTime 0 (some dpc)) := by
  have record : (model.set dpcs index dueTime 0 (some dpc)).timers index =
      (model.timers index).arm dpcs model.tickCount dueTime 0 (some dpc) :=
    Function.update_self _ _ _
  refine ⟨?_, ?_, .inl ⟨⟨.active, ?_⟩, ?_, rfl⟩⟩
  · rw [record]
    rfl
  · rw [record]
    rfl
  · simp [Model.set, Model.insert]
  · rw [record]
    simp [KTimer.dpcCall, KTimer.arm, routineOf]

theorem call_of_step {next : Model} {label : Label} (done : model.step dpcs label = some next)
    (calls : next.calls = model.calls ++ [call]) :
    model.phase = .firing ∧ call.timer ∈ model.lists .fired := by
  have silent : next.calls ≠ model.calls := by
    rw [calls]
    simp
  cases Model.steps done with
  | fire firing shape =>
    refine ⟨firing, ?_⟩
    rw [Model.fireFirst] at calls silent
    split at calls
    · rename_i other found
      have isCall : other = call := singleton_inj.mp (append_cancel_left calls)
      rw [← isCall, dpcCall_timer found, shape]
      exact mem_cons_self
    · rename_i none
      simp only [none, rearmOrFree_calls] at silent
      exact absurd rfl silent
  | scan =>
    rw [Model.scanFirst] at silent
    split at silent
    · exact absurd rfl silent
    · exact absurd rfl silent
  | @routineReturns timer dpc => exact absurd (rearmOrFree_calls timer dpc) silent
  | tick | setTimer | cancelTimer | beginPass | scanned | endPass => exact absurd rfl silent

end Runs

section Passes

variable {dpcs : Nat → KDpc} {table : TimerTable} {start : TimerTable}

/-- The steps of a run since its last pass began. -/
structure PassSince (dpcs : Nat → KDpc) (start began table : TimerTable) : Prop where
  run : Reaches (step dpcs) (fun _ _ => True) start began
  pass : ∃ scan labels, step dpcs began .beginPass = some scan ∧
    runFrom (step dpcs) scan labels = some table ∧ .beginPass ∉ labels ∧ .endPass ∉ labels

theorem waiting_step {next : TimerTable} {label : Label} (waiting : table.phase = .waiting)
    (notBegin : label ≠ .beginPass) (done : step dpcs table label = some next) :
    next.phase = .waiting := by
  cases label with
  | beginPass => exact absurd rfl notBegin
  | tick | setTimer | cancelTimer =>
    simp only [step, waiting] at done
    cases done
    first | rfl | exact waiting
  | scan | fire | routineReturns | endPass =>
    simp only [step, waiting] at done
    cases done

/-- A table is outside a pass or in one that began. -/
theorem passSince (run : Reaches (step dpcs) (fun _ _ => True) start table)
    (initial : start.phase = .waiting) :
    table.phase = .waiting ∨ ∃ began, PassSince dpcs start began table := by
  induction run with
  | start => exact .inl initial
  | @step state next label run _ done ih =>
    by_cases isBegin : label = .beginPass
    · subst label
      exact .inr ⟨state, run, next, [], done, rfl, not_mem_nil, not_mem_nil⟩
    by_cases isEnd : label = .endPass
    · subst label
      left
      simp only [step] at done
      split at done
      · split at done
        · cases done
          rfl
        · cases done
      · cases done
    rcases ih with waiting | ⟨began, first, scan, labels, begun, inside, noBegin, noEnd⟩
    · exact .inl (waiting_step waiting isBegin done)
    · refine .inr ⟨began, first, scan, labels ++ [label], begun, ?_, ?_, ?_⟩
      · rw [runFrom_append, inside]
        simp only [Option.bind_some, runFrom_cons, done]
        rfl
      · simp [noBegin, Ne.symm isBegin]
      · simp [noEnd, Ne.symm isEnd]

end Passes

/-- The lists stay well formed in every run; a routine is called only in a pass
that began when its timer was due; a timer armed once is called at most once and,
unless a request comes first, in a pass that begins when it is due; a pass calls
every linked timer that is due, up to the first request about it; and a pass can
always come to its end. -/
theorem timer_passes (dpcs : Nat → KDpc) (tickCount : BitVec 64) {table : TimerTable}
    (run : Reaches (step dpcs) (fun _ _ => True) (keTimerInitSystem tickCount) table) :
    (∃ lists, Family table.links TimerList.head Node.timer lists) ∧
    (∀ label next call, step dpcs table label = some next → next.calls = table.calls ++ [call] →
      ∃ began, PassSince dpcs (keTimerInitSystem tickCount) began table ∧
        (table.timers call.timer).dueTime ≤ began.tickCount) ∧
    (∀ timer dueTime dpc routine armed, (dpcs dpc).deferredRoutine = some routine →
      step dpcs table (.setTimer timer dueTime 0 (some dpc)) = some armed →
      ∀ labels later, Untouched timer labels → runFrom (step dpcs) armed labels = some later →
        (callsOf later.calls timer = callsOf armed.calls timer ∨
          callsOf later.calls timer = callsOf armed.calls timer ++
            [⟨timer, routine, dpc, (dpcs dpc).deferredContext, (dpcs dpc).systemArgument1,
              (dpcs dpc).systemArgument2⟩]) ∧
        (∀ first pass began, labels = first ++ .beginPass :: pass →
          runFrom (step dpcs) armed first = some began →
          (armed.timers timer).dueTime ≤ began.tickCount → later.phase = .waiting →
          callsOf later.calls timer = callsOf armed.calls timer ++
            [⟨timer, routine, dpc, (dpcs dpc).deferredContext, (dpcs dpc).systemArgument1,
              (dpcs dpc).systemArgument2⟩])) ∧
    (∀ timer call scan pass last ended, step dpcs table .beginPass = some scan →
      isListEmpty table.links (.timer timer) = false →
      (table.timers timer).dueTime ≤ table.tickCount →
      (table.timers timer).dpcCall dpcs timer = some call →
      runFrom (step dpcs) scan pass = some last → step dpcs last .endPass = some ended →
      ∃ front rest middle, pass = front ++ rest ∧ Untouched timer front ∧
        runFrom (step dpcs) scan front = some middle ∧
        ((∃ more, callsOf middle.calls timer = callsOf table.calls timer ++ call :: more) ∨
          callsOf middle.calls timer = callsOf table.calls timer ∧
            ∃ label others, rest = label :: others ∧ label.touches = some timer)) ∧
    (∃ labels ended, (∀ label ∈ labels, label.touches = none) ∧
      runFrom (step dpcs) table labels = some ended ∧ ended.phase = .waiting) := by
  obtain ⟨model, follows⟩ := follows_of_reaches run
  refine ⟨⟨_, follows.related.family⟩, ?_, ?_, ?_, ?_⟩
  · intro label next call done calls
    have phase : table.phase = .firing := by
      obtain ⟨following, modelDone, after⟩ := follows.step done
      rw [after.related.calls, follows.related.calls] at calls
      rw [follows.related.phase, (call_of_step modelDone calls).1]
      rfl
    rcases passSince run rfl with waiting | ⟨began, pass⟩
    · cases phase.symm.trans waiting
    refine ⟨began, pass, ?_⟩
    obtain ⟨scan, labels, begun, inside, noBegin, _⟩ := pass.pass
    obtain ⟨beganModel, atBegin⟩ := follows_of_reaches pass.run
    obtain ⟨scanModel, modelBegun, atScan⟩ := atBegin.step begun
    obtain ⟨now, modelInside, atNow⟩ := atScan.run inside
    have due :=
      (dueSince_of_begin atBegin.inPlace modelBegun).run atScan.inPlace noBegin modelInside
    obtain ⟨following, modelDone, after⟩ := atNow.step done
    rw [after.related.calls, atNow.related.calls] at calls
    rw [atNow.related.timers, atBegin.related.tickCount]
    exact due.fired _ (call_of_step modelDone calls).2
  · intro timer dueTime dpc routine armed routineOf done labels later untouched running
    obtain ⟨armedModel, modelDone, atArmed⟩ := follows.step done
    have once : OnceArmed dpcs timer ⟨timer, routine, dpc, (dpcs dpc).deferredContext,
        (dpcs dpc).systemArgument1, (dpcs dpc).systemArgument2⟩
        (dueTimeToTicks model.tickCount dueTime) (callsOf armed.calls timer) armedModel := by
      rw [atArmed.related.calls]
      simp only [Model.step] at modelDone
      split at modelDone
      · cases modelDone
      · cases modelDone
        exact onceArmed_of_set routineOf
    obtain ⟨laterModel, modelRunning, atLater⟩ := atArmed.run running
    have onceLater := once.run atArmed.inPlace untouched modelRunning
    rw [atLater.related.calls]
    constructor
    · rcases onceLater.state with ⟨_, _, calls⟩ | ⟨_, calls⟩
      · exact .inl calls
      · exact .inr calls
    · intro first pass began shape toBegan due waiting
      have modelWaiting : laterModel.phase = .waiting := by
        have phase := atLater.related.phase
        rw [waiting] at phase
        cases here : laterModel.phase with
        | waiting => rfl
        | _ =>
          rw [here] at phase
          cases phase
      obtain ⟨beganModel, modelToBegan, atBegan⟩ := atArmed.run toBegan
      have untouchedFirst : Untouched timer first :=
        fun label member => untouched label (by simp [shape, member])
      have untouchedPass : Untouched timer pass :=
        fun label member => untouched label (by simp [shape, member])
      have onceBegan := once.run atArmed.inPlace untouchedFirst modelToBegan
      rw [shape, runFrom_append, modelToBegan] at modelRunning
      simp only [Option.bind_some, runFrom_cons, Option.bind_eq_some_iff] at modelRunning
      obtain ⟨scan, begun, inside⟩ := modelRunning
      have reached : dueTimeToTicks model.tickCount dueTime ≤ beganModel.tickCount := by
        rw [← once.due, ← atArmed.related.timers, ← atBegan.related.tickCount]
        exact due
      have inPass := onceBegan.begin atBegan.inPlace begun reached
      exact onceLater.exactlyOnce (inPass.run (atBegan.inPlace.step begun) untouchedPass inside)
        modelWaiting
  · intro timer call scan pass last ended begun linked due found running ending
    obtain ⟨scanModel, modelBegun, atScan⟩ := follows.step begun
    have waiting : model.phase = .waiting := by
      simp only [Model.step] at modelBegun
      split at modelBegun
      · rename_i waiting
        exact waiting
      · cases modelBegun
    rw [follows.related.timers] at due found
    rw [follows.related.tickCount] at due
    have inPass := inPass_of_begin modelBegun (follows.active waiting linked) due found
    rw [← follows.related.calls] at inPass
    obtain ⟨front, rest, shape, untouched, ends⟩ := untouched_prefix timer pass
    rw [shape, runFrom_append, Option.bind_eq_some_iff] at running
    obtain ⟨middle, toMiddle, onwards⟩ := running
    refine ⟨front, rest, middle, shape, untouched, toMiddle, ?_⟩
    obtain ⟨middleModel, modelToMiddle, atMiddle⟩ := atScan.run toMiddle
    have there := inPass.run atScan.inPlace untouched modelToMiddle
    rw [atMiddle.related.calls]
    rcases ends with whole | stopped
    · rw [whole] at onwards
      cases onwards
      obtain ⟨endedModel, modelEnding, atEnd⟩ := atMiddle.step ending
      have own : Label.endPass.touches ≠ some timer := by simp [Label.touches]
      have change := change_of_step atMiddle.inPlace own modelEnding
      simp only [Model.step] at modelEnding
      split at modelEnding
      · cases modelEnding
        exact .inl ((there.change atMiddle.inPlace change).called rfl)
      · cases modelEnding
    · rcases there with called | ⟨_, _, calls, _⟩
      · exact .inl called
      · exact .inr ⟨calls, stopped⟩
  · obtain ⟨labels, ended, own, modelRun, waiting⟩ := pass_ends dpcs follows.inPlace
    obtain ⟨last, running, atEnd⟩ := follows.liftRun modelRun
    refine ⟨labels, last, own, running, ?_⟩
    rw [atEnd.related.phase, waiting]
    rfl

/-- One timer, armed at tick 10 for tick 0, and one pass. -/
theorem timer_passes_fires_once :
    ∃ armed later,
      step (fun _ => ⟨some 7, 5, 0, 0⟩) (keTimerInitSystem 10) (.setTimer 0 0 0 (some 0)) =
        some armed ∧
      runFrom (step fun _ => ⟨some 7, 5, 0, 0⟩) armed
        [.beginPass, .scan, .scan, .fire, .routineReturns, .endPass] = some later ∧
      callsOf later.calls 0 = callsOf armed.calls 0 ++ [⟨0, 7, 0, 5, 0, 0⟩] := by
  refine ⟨_, _, rfl, rfl, ?_⟩
  have passes := (timer_passes (fun _ => ⟨some 7, 5, 0, 0⟩) 10 .start).2.2.1 0 0 0 7 _ rfl rfl
    [.beginPass, .scan, .scan, .fire, .routineReturns, .endPass] _
    (by simp [Untouched, Label.touches]) rfl
  exact passes.2 [] [.scan, .scan, .fire, .routineReturns, .endPass] _ rfl rfl (by decide) rfl

end MinNT.Timer
