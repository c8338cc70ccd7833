import MinNT.Ke.TimerLists

namespace MinNT.Timer

open List ListEntry Transition

/-- The timer a request is about. -/
def Label.touches : Label → Option Nat
  | .setTimer timer _ _ _ => some timer
  | .cancelTimer timer => some timer
  | _ => none

/-- No request of a run is about a timer. -/
def Untouched (timer : Nat) (labels : List Label) : Prop :=
  ∀ label ∈ labels, label.touches ≠ some timer

def callsOf (calls : List DpcCall) (timer : Nat) : List DpcCall :=
  calls.filter fun call => call.timer = timer

theorem callsOf_append_other {calls : List DpcCall} {call : DpcCall} {index : Nat}
    (different : call.timer ≠ index) : callsOf (calls ++ [call]) index = callsOf calls index := by
  simp [callsOf, different]

theorem callsOf_append_self (calls : List DpcCall) (call : DpcCall) :
    callsOf (calls ++ [call]) call.timer = callsOf calls call.timer ++ [call] := by
  simp [callsOf]

section Records

variable {dpcs : Nat → KDpc} {timer : KTimer} {index : Nat} {call : DpcCall}

theorem dpcCall_timer (found : timer.dpcCall dpcs index = some call) : call.timer = index := by
  rw [KTimer.dpcCall] at found
  split at found
  · cases found
  · split at found
    · cases found
    · split at found
      · cases found
      · cases found
        rfl

theorem dpcCall_live (found : timer.dpcCall dpcs index = some call) : timer.cancelled = false := by
  cases same : timer.cancelled with
  | false => rfl
  | true =>
    rw [KTimer.dpcCall] at found
    split at found
    · cases found
    · split at found
      · cases found
      · rw [if_pos same] at found
        cases found

theorem dpcCall_free (live : timer.cancelled = false) :
    timer.free.dpcCall dpcs index = timer.dpcCall dpcs index := by
  have same : timer.free.cancelled = timer.cancelled := live.symm
  rw [KTimer.dpcCall, KTimer.dpcCall, same]
  rfl

end Records

/-- What a step leaves of a timer it is not about. -/
structure Leaves (index : Nat) (model next : Model) : Prop where
  members : ∀ list, index ∈ next.lists list ↔ index ∈ model.lists list
  record : next.timers index = model.timers index
  calls : callsOf next.calls index = callsOf model.calls index

section Leaves

variable {dpcs : Nat → KDpc} {model : Model} {index : Nat}

variable {next : Model} {timer : Nat}

theorem Leaves.withPhase (leaves : Leaves index model next)
    (phase : Phase (List Nat)) : Leaves index model (next.withPhase phase) :=
  ⟨leaves.members, leaves.record, leaves.calls⟩

theorem leaves_self (model : Model) : Leaves index model model :=
  ⟨fun _ => Iff.rfl, rfl, rfl⟩

section Leaves

variable (leaves : Leaves index model next)
include leaves

theorem Leaves.remove (different : index ≠ timer) : Leaves index model (next.remove timer) := by
  refine ⟨?_, leaves.record, leaves.calls⟩
  intro list
  rw [← leaves.members list]
  exact mem_erase_of_ne different

theorem Leaves.setTimer (different : index ≠ timer) (contents : KTimer) :
    Leaves index model (next.setTimer timer contents) := by
  refine ⟨leaves.members, ?_, leaves.calls⟩
  simp only [Model.setTimer, Function.update_of_ne different, leaves.record]

theorem Leaves.insert (different : index ≠ timer) (list : TimerList) :
    Leaves index model (next.insert list timer) := by
  refine ⟨?_, leaves.record, leaves.calls⟩
  intro place
  rw [← leaves.members place]
  simp only [Model.insert]
  by_cases same : place = list
  · subst place
    simp [different]
  · rw [Function.update_of_ne same]

end Leaves

theorem leaves_set (different : index ≠ timer) (dueTime : BitVec 64) (period : BitVec 32)
    (dpc : Option Nat) : Leaves index model (model.set dpcs timer dueTime period dpc) :=
  (((leaves_self model).remove different).setTimer different _).insert different _

theorem leaves_cancel (different : index ≠ timer) : Leaves index model (model.cancel timer) :=
  ((leaves_self model).remove different).setTimer different _

theorem Leaves.rearmOrFree (leaves : Leaves index model next) (different : index ≠ timer)
    (dpc : Option Nat) : Leaves index model (next.rearmOrFree dpcs timer dpc) := by
  rw [Model.rearmOrFree]
  split
  · exact ((leaves.remove different).setTimer different _).insert different _
  · exact leaves.setTimer different _

theorem leaves_fireFirst (different : index ≠ timer) :
    Leaves index model (model.fireFirst dpcs timer) := by
  have popped := (leaves_self model).remove different
  rw [Model.fireFirst]
  split
  · rename_i call found
    refine ⟨popped.members, popped.record, ?_⟩
    apply callsOf_append_other
    rw [dpcCall_timer found]
    exact Ne.symm different
  · exact popped.rearmOrFree different _

theorem leaves_scanFirst (different : index ≠ timer) (rest : List Nat) :
    Leaves index model (model.scanFirst timer rest) := by
  apply Leaves.withPhase
  split
  · exact ((leaves_self model).remove different).insert different _
  · exact leaves_self model

end Leaves

/-- The timers the running scan has not come to. -/
def Model.toCome (model : Model) : List Nat :=
  match model.phase with
  | .scanning rest => rest
  | _ => []

/-- What a step that is no request about a timer does with it. -/
inductive Change (dpcs : Nat → KDpc) (index : Nat) (model next : Model) : Prop
  | leaves (leaves : Leaves index model next)
      (toCome : index ∈ model.toCome → index ∈ next.toCome ∧ next.tickCount = model.tickCount)
      (waiting : next.phase = .waiting → model.phase = .waiting ∨
        model.phase = .firing ∧ model.lists .fired = [])
  | passed (scanning : index ∈ model.toCome)
      (undue : ¬ (model.timers index).dueTime ≤ model.tickCount)
      (leaves : Leaves index model next)
  | collected (scanning : index ∈ model.toCome)
      (due : (model.timers index).dueTime ≤ model.tickCount)
      (fired : index ∈ next.lists .fired) (record : next.timers index = model.timers index)
      (calls : callsOf next.calls index = callsOf model.calls index)
      (phase : next.phase ≠ .waiting)
  | called (call : DpcCall) (phase : model.phase = .firing) (fired : index ∈ model.lists .fired)
      (found : (model.timers index).dpcCall dpcs index = some call)
      (gone : ∀ list, index ∉ next.lists list) (record : next.timers index = model.timers index)
      (calls : callsOf next.calls index = callsOf model.calls index ++ [call])
  | skipped (phase : model.phase = .firing) (fired : index ∈ model.lists .fired)
      (unfit : (model.timers index).dpcCall dpcs index = none)
      (gone : index ∉ next.lists .fired)
      (calls : callsOf next.calls index = callsOf model.calls index)
  | ended (dpc : Option Nat) (phase : model.phase = .inRoutine index dpc)
      (done : next = (model.rearmOrFree dpcs index dpc).withPhase .firing)

section Change

variable {dpcs : Nat → KDpc} {model next : Model} {index : Nat}

theorem toCome_scanning {rest : List Nat} (phase : model.phase = .scanning rest) :
    model.toCome = rest := by
  rw [Model.toCome, phase]

theorem toCome_unlocked (unlocked : ∀ rest, model.phase ≠ .scanning rest) : model.toCome = [] := by
  rw [Model.toCome]
  split
  · rename_i rest scanning
    exact absurd scanning (unlocked rest)
  · rfl

theorem Leaves.unlocked (leaves : Leaves index model next)
    (unlocked : ∀ rest, model.phase ≠ .scanning rest) (phase : next.phase = model.phase) :
    Change dpcs index model next := by
  refine .leaves leaves ?_ ?_
  · intro scanning
    rw [toCome_unlocked unlocked] at scanning
    exact absurd scanning not_mem_nil
  · intro waiting
    exact .inl (phase.symm.trans waiting)

theorem Leaves.entered (leaves : Leaves index model next)
    (unlocked : ∀ rest, model.phase ≠ .scanning rest) (phase : next.phase ≠ .waiting) :
    Change dpcs index model next := by
  refine .leaves leaves ?_ (fun waiting => absurd waiting phase)
  intro scanning
  rw [toCome_unlocked unlocked] at scanning
  exact absurd scanning not_mem_nil

theorem change_scanFirst (inPlace : InPlace model) {timer : Nat} {rest : List Nat}
    (phase : model.phase = .scanning (timer :: rest)) :
    Change dpcs index model (model.scanFirst timer rest) := by
  have toCome := toCome_scanning phase
  by_cases same : index = timer
  · subst timer
    have scanning : index ∈ model.toCome := by
      rw [toCome]
      exact mem_cons_self
    obtain ⟨seen, shape⟩ := inPlace.position _ phase
    have live := inPlace.live .active index (by simp [shape])
    by_cases due : (model.timers index).dueTime ≤ model.tickCount
    · have moved : model.scanFirst index rest =
          ((model.remove index).insert .fired index).withPhase (.scanning rest) := by
        rw [Model.scanFirst, if_pos ⟨due, live⟩]
      rw [moved]
      refine .collected scanning due ?_ rfl rfl ?_
      · simp [Model.withPhase, Model.insert]
      · simp [Model.withPhase]
    · have kept : model.scanFirst index rest = model.withPhase (.scanning rest) := by
        rw [Model.scanFirst, if_neg (fun test => due test.1)]
      rw [kept]
      exact .passed scanning due ((leaves_self model).withPhase _)
  · refine .leaves (leaves_scanFirst same rest) ?_ ?_
    · intro scanning
      rw [toCome] at scanning
      refine ⟨(mem_cons.mp scanning).resolve_left same, ?_⟩
      rw [Model.scanFirst]
      split <;> rfl
    · intro waiting
      cases waiting

theorem rearmOrFree_calls (timer : Nat) (dpc : Option Nat) :
    (model.rearmOrFree dpcs timer dpc).calls = model.calls := by
  rw [Model.rearmOrFree]
  split
  · rfl
  · rfl

variable (dpcs) in
theorem fireFirst_phase (firing : model.phase = .firing) (timer : Nat) :
    (∃ dpc, (model.fireFirst dpcs timer).phase = .inRoutine timer dpc) ∨
      (model.fireFirst dpcs timer).phase = .firing := by
  rw [Model.fireFirst]
  split
  · exact .inl ⟨_, rfl⟩
  · exact .inr ((rearmOrFree_phase timer _).trans firing)

theorem change_fireFirst (inPlace : InPlace model) (phase : model.phase = .firing) {timer : Nat}
    {rest : List Nat} (shape : model.lists .fired = timer :: rest) :
    Change dpcs index model (model.fireFirst dpcs timer) := by
  have sound := inPlace.toSound
  by_cases same : index = timer
  · subst timer
    have fired : index ∈ model.lists .fired := by
      rw [shape]
      exact mem_cons_self
    cases found : (model.timers index).dpcCall dpcs index with
    | none =>
      refine .skipped phase fired found ?_ ?_
      · have once := sound.once .fired
        rw [shape] at once
        rw [fireFirst_fired dpcs sound shape]
        exact (nodup_cons.mp once).1
      · rw [Model.fireFirst]
        simp only [found]
        rw [rearmOrFree_calls]
        rfl
    | some call =>
      have isTimer := dpcCall_timer found
      have calls : callsOf (model.calls ++ [call]) index = callsOf model.calls index ++ [call] := by
        rw [← isTimer]
        exact callsOf_append_self _ _
      rw [Model.fireFirst]
      simp only [found]
      exact .called call phase fired found (sound.absent index) rfl calls
  · apply (leaves_fireFirst same).entered
    · intro others scanning
      cases phase.symm.trans scanning
    · intro waiting
      rcases fireFirst_phase dpcs phase timer with ⟨dpc, inside⟩ | firing
      · cases inside.symm.trans waiting
      · cases firing.symm.trans waiting

/-- What a step does to a timer that its label does not touch. -/
theorem change_of_step {label : Label} (inPlace : InPlace model)
    (untouched : label.touches ≠ some index) (done : model.step dpcs label = some next) :
    Change dpcs index model next := by
  cases Model.steps done with
  | tick unlocked => exact Leaves.unlocked ⟨fun _ => Iff.rfl, rfl, rfl⟩ unlocked rfl
  | @setTimer timer dueTime period dpc unlocked =>
    have different : index ≠ timer := fun same => untouched (congrArg some same.symm)
    exact (leaves_set different dueTime period dpc).unlocked unlocked rfl
  | @cancelTimer timer unlocked =>
    have different : index ≠ timer := fun same => untouched (congrArg some same.symm)
    exact (leaves_cancel different).unlocked unlocked rfl
  | beginPass waiting =>
    apply ((leaves_self model).withPhase _).entered
    · intro rest scanning
      cases waiting.symm.trans scanning
    · simp [Model.withPhase]
  | scanned scanning =>
    refine .leaves ((leaves_self model).withPhase _) ?_ ?_
    · intro member
      rw [toCome_scanning scanning] at member
      exact absurd member not_mem_nil
    · intro waiting
      cases waiting
  | scan scanning => exact change_scanFirst inPlace scanning
  | fire firing shape => exact change_fireFirst inPlace firing shape
  | @routineReturns timer dpc inside =>
    by_cases same : index = timer
    · subst timer
      exact .ended dpc inside rfl
    · apply (((leaves_self model).rearmOrFree same dpc).withPhase _).entered
      · intro rest scanning
        cases inside.symm.trans scanning
      · simp [Model.withPhase]
  | endPass firing empty =>
    refine .leaves ((leaves_self model).withPhase _) ?_ (fun _ => .inr ⟨firing, empty⟩)
    intro member
    rw [Model.toCome, firing] at member
    exact absurd member not_mem_nil

theorem active_of_toCome (inPlace : InPlace model) (scanning : index ∈ model.toCome) :
    index ∈ model.lists .active := by
  rw [Model.toCome] at scanning
  split at scanning
  · rename_i rest phase
    obtain ⟨seen, shape⟩ := inPlace.position rest phase
    rw [shape]
    exact mem_append_right seen scanning
  · exact absurd scanning not_mem_nil

theorem callsOf_of_change (change : Change dpcs index model next) :
    ∃ more, callsOf next.calls index = callsOf model.calls index ++ more := by
  cases change with
  | leaves leaves | passed _ _ leaves => exact ⟨[], by rw [leaves.calls, append_nil]⟩
  | collected _ _ _ _ calls => exact ⟨[], by rw [calls, append_nil]⟩
  | called call _ _ _ _ _ calls => exact ⟨[call], calls⟩
  | skipped _ _ _ _ calls => exact ⟨[], by rw [calls, append_nil]⟩
  | ended dpc _ done =>
    refine ⟨[], ?_⟩
    rw [done, append_nil]
    exact congrArg (callsOf · index) (rearmOrFree_calls index dpc)

end Change

section Armed

variable {dpcs : Nat → KDpc} {model next : Model} {index : Nat} {call : DpcCall}
  {before : List DpcCall}

/-- It waits for its turn, or it has had the one call. -/
structure OnceArmed (dpcs : Nat → KDpc) (index : Nat) (call : DpcCall) (dueTime : BitVec 64)
    (before : List DpcCall) (model : Model) : Prop where
  once : (model.timers index).period = 0
  due : (model.timers index).dueTime = dueTime
  state :
    ((∃ list, index ∈ model.lists list) ∧ (model.timers index).dpcCall dpcs index = some call ∧
      callsOf model.calls index = before) ∨
    ((∀ list, index ∉ model.lists list) ∧ callsOf model.calls index = before ++ [call])

variable {dueTime : BitVec 64}

theorem OnceArmed.leaves (armed : OnceArmed dpcs index call dueTime before model)
    (leaves : Leaves index model next) : OnceArmed dpcs index call dueTime before next := by
  refine ⟨?_, ?_, ?_⟩
  · rw [leaves.record, armed.once]
  · rw [leaves.record, armed.due]
  · rcases armed.state with ⟨⟨list, linked⟩, found, calls⟩ | ⟨unlinked, calls⟩
    · refine .inl ⟨⟨list, (leaves.members list).mpr linked⟩, ?_, ?_⟩
      · rw [leaves.record, found]
      · rw [leaves.calls, calls]
    · refine .inr ⟨?_, ?_⟩
      · exact fun list linked => unlinked list ((leaves.members list).mp linked)
      · rw [leaves.calls, calls]

/-- Steps that do not touch the timer keep it so. -/
theorem OnceArmed.change (armed : OnceArmed dpcs index call dueTime before model)
    (inPlace : InPlace model) (change : Change dpcs index model next) :
    OnceArmed dpcs index call dueTime before next := by
  cases change with
  | leaves leaves => exact armed.leaves leaves
  | passed _ _ leaves => exact armed.leaves leaves
  | collected scanning _ fired record calls =>
    have linked := active_of_toCome inPlace scanning
    refine ⟨by rw [record, armed.once], by rw [record, armed.due], ?_⟩
    rcases armed.state with ⟨_, found, same⟩ | ⟨unlinked, _⟩
    · exact .inl ⟨⟨.fired, fired⟩, by rw [record, found], by rw [calls, same]⟩
    · exact absurd linked (unlinked .active)
  | called other _ fired found gone record calls =>
    refine ⟨by rw [record, armed.once], by rw [record, armed.due], ?_⟩
    rcases armed.state with ⟨_, expected, same⟩ | ⟨unlinked, _⟩
    · have isCall : other = call := Option.some.inj (found.symm.trans expected)
      exact .inr ⟨gone, by rw [calls, same, isCall]⟩
    · exact absurd fired (unlinked .fired)
  | skipped _ fired unfit =>
    rcases armed.state with ⟨_, found, _⟩ | ⟨unlinked, _⟩
    · cases unfit.symm.trans found
    · exact absurd fired (unlinked .fired)
  | ended dpc _ done =>
    have freed : model.rearmOrFree dpcs index dpc =
        model.setTimer index (model.timers index).free := by
      rw [Model.rearmOrFree, if_neg]
      rw [armed.once]
      exact fun periodic => absurd periodic.1 (by decide)
    rw [done, freed]
    have record : (model.setTimer index (model.timers index).free).timers index =
        (model.timers index).free := Function.update_self _ _ _
    refine ⟨?_, ?_, ?_⟩
    · simp only [Model.withPhase, record]
      exact armed.once
    · simp only [Model.withPhase, record]
      exact armed.due
    · rcases armed.state with ⟨linked, found, calls⟩ | called
      · refine .inl ⟨linked, ?_, calls⟩
        simp only [Model.withPhase, record]
        rw [dpcCall_free (dpcCall_live found), found]
      · exact .inr called

/-- The pass will come to the timer, or it has called its routine. -/
def InPass (dpcs : Nat → KDpc) (index : Nat) (call : DpcCall) (before : List DpcCall)
    (model : Model) : Prop :=
  (∃ more, callsOf model.calls index = before ++ call :: more) ∨
    (model.phase ≠ .waiting ∧ (model.timers index).dpcCall dpcs index = some call ∧
      callsOf model.calls index = before ∧
      (index ∈ model.toCome ∧ (model.timers index).dueTime ≤ model.tickCount ∨
        index ∈ model.lists .fired))

theorem InPass.change (inPass : InPass dpcs index call before model) (inPlace : InPlace model)
    (change : Change dpcs index model next) : InPass dpcs index call before next := by
  rcases inPass with ⟨more, called⟩ | ⟨phase, found, calls, place⟩
  · obtain ⟨others, grown⟩ := callsOf_of_change change
    exact .inl ⟨more ++ others, by rw [grown, called, append_assoc, cons_append]⟩
  cases change with
  | leaves leaves toCome waiting =>
    refine .inr ⟨?_, by rw [leaves.record, found], by rw [leaves.calls, calls], ?_⟩
    · intro ended
      rcases waiting ended with same | ⟨firing, empty⟩
      · exact phase same
      · rcases place with ⟨scanning, _⟩ | fired
        · rw [Model.toCome, firing] at scanning
          exact absurd scanning not_mem_nil
        · rw [empty] at fired
          exact absurd fired not_mem_nil
    · rcases place with ⟨scanning, due⟩ | fired
      · obtain ⟨still, tick⟩ := toCome scanning
        exact .inl ⟨still, by rw [leaves.record, tick]; exact due⟩
      · exact .inr ((leaves.members .fired).mpr fired)
  | passed scanning undue =>
    rcases place with ⟨_, due⟩ | fired
    · exact absurd due undue
    · have active := active_of_toCome inPlace scanning
      exact absurd fired (inPlace.apart .active .fired (by decide) index active)
  | collected _ _ fired record grown phase =>
    exact .inr ⟨phase, by rw [record, found], by rw [grown, calls], .inr fired⟩
  | called other _ _ same _ _ grown =>
    have isCall : other = call := Option.some.inj (same.symm.trans found)
    exact .inl ⟨[], by rw [grown, calls, isCall]⟩
  | skipped _ _ unfit => cases unfit.symm.trans found
  | ended dpc inside =>
    rcases place with ⟨scanning, _⟩ | fired
    · rw [Model.toCome, inside] at scanning
      exact absurd scanning not_mem_nil
    · exact absurd fired (inPlace.popped index dpc inside)

/-- Everything a pass has collected was due when the pass began. -/
structure DueSince (tickCount : BitVec 64) (model : Model) : Prop where
  fired : ∀ index ∈ model.lists .fired, (model.timers index).dueTime ≤ tickCount
  tick : ∀ rest, model.phase = .scanning rest → model.tickCount = tickCount

theorem touched_fired {label : Label} (sound : Sound model) (touches : label.touches = some index)
    (done : model.step dpcs label = some next) : index ∉ next.lists .fired := by
  cases Model.steps done with
  | setTimer =>
    cases touches
    rw [set_fired]
    exact sound.absent index .fired
  | cancelTimer =>
    cases touches
    exact sound.absent index .fired
  | _ => cases touches

theorem scanning_of_step {label : Label} {rest : List Nat} (notBegin : label ≠ .beginPass)
    (done : model.step dpcs label = some next) (scanning : next.phase = .scanning rest) :
    next.tickCount = model.tickCount ∧ ∃ others, model.phase = .scanning others := by
  cases Model.steps done with
  | beginPass => exact absurd rfl notBegin
  | scanned | routineReturns | endPass => cases scanning
  | scan phase =>
    refine ⟨?_, _, phase⟩
    rw [Model.scanFirst]
    split <;> rfl
  | @fire timer _ firing shape =>
    rcases fireFirst_phase dpcs firing timer with ⟨dpc, inside⟩ | still
    · cases inside.symm.trans scanning
    · cases still.symm.trans scanning
  | tick unlocked | setTimer unlocked | cancelTimer unlocked =>
    exact absurd scanning (unlocked rest)

/-- Within a pass, what it has collected was due at its start. -/
theorem DueSince.step {tickCount : BitVec 64} {label : Label} (due : DueSince tickCount model)
    (inPlace : InPlace model) (notBegin : label ≠ .beginPass)
    (done : model.step dpcs label = some next) : DueSince tickCount next := by
  constructor
  · intro index fired
    by_cases touches : label.touches = some index
    · exact absurd fired (touched_fired inPlace.toSound touches done)
    cases change_of_step inPlace touches done with
    | leaves leaves | passed _ _ leaves =>
      rw [leaves.record]
      exact due.fired index ((leaves.members .fired).mp fired)
    | collected scanning reached _ record =>
      rw [Model.toCome] at scanning
      split at scanning
      · rename_i rest phase
        rw [record, ← due.tick rest phase]
        exact reached
      · exact absurd scanning not_mem_nil
    | called _ _ _ _ gone => exact absurd fired (gone .fired)
    | skipped _ _ _ gone => exact absurd fired gone
    | ended dpc inside rearmed =>
      have popped := inPlace.popped index dpc inside
      rw [rearmed] at fired
      simp only [Model.withPhase, rearmOrFree_fired popped] at fired
      exact absurd fired popped
  · intro rest scanning
    obtain ⟨tick, others, phase⟩ := scanning_of_step notBegin done scanning
    rw [tick, due.tick others phase]

end Armed

end MinNT.Timer
