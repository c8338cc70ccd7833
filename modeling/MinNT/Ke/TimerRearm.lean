import MinNT.Ke.TimerRun

namespace MinNT.Timer

open ListEntry Transition

/-- What a linked timer will fire with. -/
structure Firing where
  dueTime : BitVec 64
  period : BitVec 64
  dpc : Option Nat
  dpcContext : BitVec 64
deriving DecidableEq, Repr

def KTimer.firing (timer : KTimer) : Firing :=
  ⟨timer.dueTime, timer.period, timer.dpc, timer.dpcContext⟩

/-- The next firing of a timer, if it is linked. -/
def nextFiring (table : TimerTable) (timer : Nat) : Option Firing :=
  if isListEmpty table.links (.timer timer) then none else some (table.timers timer).firing

def Model.nextFiring (model : Model) (timer : Nat) : Option Firing :=
  if timer ∈ model.lists .active ∨ timer ∈ model.lists .fired
  then some (model.timers timer).firing else none

/-- The automatic re-arm changes nothing: the timer is cancelled or has no period,
or it already has the DPC that fired and the due time of the re-arm. -/
def RequestStands (table : TimerTable) (timer : Nat) (dpc : Option Nat) : Prop :=
  (table.timers timer).cancelled = true ∨ (table.timers timer).period = 0 ∨
    (table.timers timer).dpc = dpc ∧
      (table.timers timer).dueTime =
        dueTimeToTicks table.tickCount (-(table.timers timer).period * 10000)

section NextFiring

variable {dpcs : Nat → KDpc} {table : TimerTable} {model next : Model} {timer : Nat}

theorem Follows.nextFiring (follows : Follows table model) :
    nextFiring table timer = model.nextFiring timer := by
  have empty := follows.related.family.isListEmpty_entry names timer
  rw [MinNT.Timer.nextFiring, Model.nextFiring, follows.related.timers]
  by_cases linked : timer ∈ model.lists .active ∨ timer ∈ model.lists .fired
  · have filled : ¬ isListEmpty table.links (.timer timer) = true := by
      intro selfLinked
      rcases linked with active | fired
      · exact empty.mp selfLinked .active active
      · exact empty.mp selfLinked .fired fired
    rw [if_pos linked, if_neg filled]
  · rw [not_or] at linked
    have selfLinked : isListEmpty table.links (.timer timer) = true := by
      apply empty.mpr
      intro list
      cases list with
      | active => exact linked.1
      | fired => exact linked.2
    rw [if_pos selfLinked, if_neg (not_or.mpr linked)]

theorem Leaves.nextFiring (leaves : Leaves timer model next) :
    next.nextFiring timer = model.nextFiring timer := by
  simp only [Model.nextFiring, leaves.members, leaves.record]

theorem inRoutine_step {label : Label} {other : Nat} {dpc : Option Nat}
    (inside : model.phase = .inRoutine other dpc) (stays : label ≠ .routineReturns)
    (done : model.step dpcs label = some next) : next.phase = .inRoutine other dpc := by
  cases label with
  | routineReturns => exact absurd rfl stays
  | tick | setTimer | cancelTimer =>
    simp only [Model.step, inside] at done
    cases done
    first | rfl | exact inside
  | beginPass | scan | fire | endPass =>
    simp only [Model.step, inside] at done
    cases done

theorem leaves_inRoutine {label : Label} {dpc : Option Nat} (inPlace : InPlace model)
    (inside : model.phase = .inRoutine timer dpc) (untouched : label.touches ≠ some timer)
    (stays : label ≠ .routineReturns) (done : model.step dpcs label = some next) :
    Leaves timer model next := by
  have still := inRoutine_step inside stays done
  have unlocked : timer ∉ model.toCome := by
    rw [Model.toCome, inside]
    exact List.not_mem_nil
  cases change_of_step inPlace untouched done with
  | leaves leaves => exact leaves
  | passed scanning => exact absurd scanning unlocked
  | collected scanning => exact absurd scanning unlocked
  | called _ firing => cases inside.symm.trans firing
  | skipped firing => cases inside.symm.trans firing
  | ended _ _ rearmed =>
    rw [rearmed] at still
    cases still

end NextFiring

section Return

variable {dpcs : Nat → KDpc} {model next : Model} {timer : Nat}

/-- What the last request about a timer left. -/
inductive Requested (dpcs : Nat → KDpc) (model : Model) (timer : Nat) : Prop
  | armed (old : KTimer) (tickCount dueTime : BitVec 64) (period : BitVec 32) (dpc : Option Nat)
      (linked : timer ∈ model.lists .active)
      (record : model.timers timer = old.arm dpcs tickCount dueTime period dpc)
  | cancelled (unlinked : ∀ list, timer ∉ model.lists list)
      (record : (model.timers timer).cancelled = true)

theorem requested_of_step {label : Label} (sound : Sound model)
    (touches : label.touches = some timer) (done : model.step dpcs label = some next) :
    Requested dpcs next timer := by
  cases Model.steps done with
  | @setTimer _ dueTime period dpc =>
    cases touches
    refine .armed (model.timers timer) model.tickCount dueTime period dpc ?_ ?_
    · simp [Model.set, Model.insert]
    · exact Function.update_self _ _ _
  | cancelTimer =>
    cases touches
    refine .cancelled (sound.absent timer) ?_
    simp [Model.cancel, Model.setTimer]
  | _ => cases touches

theorem Requested.leaves (requested : Requested dpcs model timer)
    (leaves : Leaves timer model next) : Requested dpcs next timer := by
  cases requested with
  | armed old tickCount dueTime period dpc linked record =>
    refine .armed old tickCount dueTime period dpc ((leaves.members .active).mpr linked) ?_
    rw [leaves.record, record]
  | cancelled unlinked record =>
    refine .cancelled (fun list member => unlinked list ((leaves.members list).mp member)) ?_
    rw [leaves.record, record]

theorem signExtend_setWidth (period : BitVec 32) : (period.signExtend 64).setWidth 32 = period := by
  ext i inside
  simp [inside, BitVec.getLsbD_signExtend]
  omega

theorem firing_free (record : KTimer) : record.free.firing = record.firing := rfl

theorem nextFiring_active (linked : timer ∈ model.lists .active) :
    model.nextFiring timer = some (model.timers timer).firing := by
  rw [Model.nextFiring, if_pos (.inl linked)]

theorem nextFiring_free (model : Model) (timer : Nat) :
    (model.setTimer timer (model.timers timer).free).nextFiring timer = model.nextFiring timer := by
  simp only [Model.nextFiring, Model.setTimer, Function.update_self, firing_free]

/-- When the re-arm behind the routine keeps the next firing. -/
theorem nextFiring_rearmOrFree (requested : Requested dpcs model timer) (dpc : Option Nat) :
    (model.rearmOrFree dpcs timer dpc).nextFiring timer = model.nextFiring timer ↔
      (model.timers timer).cancelled = true ∨ (model.timers timer).period = 0 ∨
        (model.timers timer).dpc = dpc ∧
          (model.timers timer).dueTime =
            dueTimeToTicks model.tickCount (-(model.timers timer).period * 10000) := by
  rw [Model.rearmOrFree]
  cases requested with
  | cancelled unlinked record =>
    rw [if_neg (fun periodic => by simp [record] at periodic), nextFiring_free]
    exact iff_of_true rfl (.inl record)
  | armed old tickCount dueTime period askedDpc linked record =>
    have live : (model.timers timer).cancelled = false := by rw [record]; rfl
    by_cases once : (model.timers timer).period = 0
    · rw [if_neg (fun periodic => by simp [once] at periodic), nextFiring_free]
      exact iff_of_true rfl (.inr (.inl once))
    have positive : 0 < (model.timers timer).period := by bv_omega
    rw [if_pos ⟨positive, live⟩, nextFiring_active linked]
    have rearmed : timer ∈ (model.set dpcs timer (-(model.timers timer).period * 10000)
        ((model.timers timer).period.setWidth 32) dpc).lists .active := by
      simp [Model.set, Model.insert]
    rw [nextFiring_active rearmed]
    have contents : (model.set dpcs timer (-(model.timers timer).period * 10000)
        ((model.timers timer).period.setWidth 32) dpc).timers timer =
        (model.timers timer).arm dpcs model.tickCount (-(model.timers timer).period * 10000)
          ((model.timers timer).period.setWidth 32) dpc := Function.update_self _ _ _
    have width : ((model.timers timer).period.setWidth 32).signExtend 64 =
        (model.timers timer).period := by
      rw [record]
      simp only [KTimer.arm]
      rw [signExtend_setWidth]
    rw [contents, Option.some.injEq]
    simp only [KTimer.firing, KTimer.arm, width, Firing.mk.injEq, live, once, false_or,
      true_and, Bool.false_eq_true]
    constructor
    · rintro ⟨due, same, _⟩
      exact ⟨same.symm, due.symm⟩
    · rintro ⟨same, due⟩
      refine ⟨due.symm, same.symm, ?_⟩
      rw [← same, record]
      rfl

end Return

/-- In every run: behind the routine of a timer, the timer's next firing is the one
its last own request left exactly when that request was a cancel or asked for no
period, or asked for the DPC that fired at the very tick of the re-arm. -/
theorem last_request_wins_iff (dpcs : Nat → KDpc) (tickCount : BitVec 64)
    {table asked last returned : TimerTable} {timer : Nat} {dpc : Option Nat} {request : Label}
    {labels : List Label}
    (run : Reaches (step dpcs) (fun _ _ => True) (keTimerInitSystem tickCount) table)
    (inside : table.phase = .inRoutine timer dpc) (own : request.touches = some timer)
    (made : step dpcs table request = some asked) (lastOwn : Untouched timer labels)
    (stays : .routineReturns ∉ labels) (later : runFrom (step dpcs) asked labels = some last)
    (returns : step dpcs last .routineReturns = some returned) :
    nextFiring returned timer = nextFiring asked timer ↔ RequestStands last timer dpc := by
  obtain ⟨model, follows⟩ := follows_of_reaches run
  obtain ⟨askedModel, modelMade, atAsked⟩ := follows.step made
  obtain ⟨lastModel, modelLater, atLast⟩ := atAsked.run later
  obtain ⟨returnedModel, modelReturns, atReturned⟩ := atLast.step returns
  have modelInside : model.phase = .inRoutine timer dpc := by
    have phase := follows.related.phase
    rw [inside] at phase
    cases here : model.phase with
    | inRoutine =>
      rw [here] at phase
      cases phase
      rfl
    | _ =>
      rw [here] at phase
      cases phase
  have notReturn : request ≠ .routineReturns := by
    intro same
    rw [same] at own
    cases own
  have askedInside := inRoutine_step modelInside notReturn modelMade
  have requested := requested_of_step follows.inPlace.toSound own modelMade
  have steps : ∀ (state : Model) (label : Label) (next : Model),
      (InPlace state ∧ state.phase = .inRoutine timer dpc ∧ Requested dpcs state timer ∧
        state.nextFiring timer = askedModel.nextFiring timer) →
      (label.touches ≠ some timer ∧ label ≠ .routineReturns) →
      Model.step dpcs state label = some next →
      InPlace next ∧ next.phase = .inRoutine timer dpc ∧ Requested dpcs next timer ∧
        next.nextFiring timer = askedModel.nextFiring timer := by
    intro state label next holds meets done
    obtain ⟨inPlace, inside, requested, same⟩ := holds
    have leaves := leaves_inRoutine inPlace inside meets.1 meets.2 done
    exact ⟨inPlace.step done, inRoutine_step inside meets.2 done, requested.leaves leaves,
      leaves.nextFiring.trans same⟩
  have allowed : ∀ label ∈ labels, label.touches ≠ some timer ∧ label ≠ .routineReturns :=
    fun label member => ⟨lastOwn label member, fun same => stays (same ▸ member)⟩
  obtain ⟨_, lastInside, lastRequested, same⟩ := runFrom_keeps steps
    ⟨atAsked.inPlace, askedInside, requested, rfl⟩ allowed modelLater
  have isReturn : returnedModel = (lastModel.rearmOrFree dpcs timer dpc).withPhase .firing := by
    simp only [Model.step, lastInside] at modelReturns
    exact (Option.some.inj modelReturns).symm
  have behind : returnedModel.nextFiring timer =
      (lastModel.rearmOrFree dpcs timer dpc).nextFiring timer := by
    rw [isReturn]
    rfl
  rw [atReturned.nextFiring, atAsked.nextFiring, ← same, behind, RequestStands,
    atLast.related.timers, atLast.related.tickCount]
  exact nextFiring_rearmOrFree lastRequested dpc

/-- A one-shot request of the routine of a periodic timer stands. -/
theorem last_request_wins_iff_oneShot :
    ∃ fired asked returned,
      runFrom (step fun _ => ⟨some 7, 5, 0, 0⟩) (keTimerInitSystem 10)
        [.setTimer 0 0 1 (some 0), .beginPass, .scan, .scan, .fire] = some fired ∧
      step (fun _ => ⟨some 7, 5, 0, 0⟩) fired (.setTimer 0 500000 0 (some 1)) = some asked ∧
      step (fun _ => ⟨some 7, 5, 0, 0⟩) asked .routineReturns = some returned ∧
      nextFiring returned 0 = nextFiring asked 0 := by
  refine ⟨_, _, _, rfl, rfl, rfl, ?_⟩
  have reached := reaches_of_runFrom
    (show runFrom (step fun _ => ⟨some 7, 5, 0, 0⟩) (keTimerInitSystem 10)
      [.setTimer 0 0 1 (some 0), .beginPass, .scan, .scan, .fire] = some _ from rfl)
  have own : (Label.setTimer 0 500000 0 (some 1)).touches = some 0 := rfl
  have none : Untouched 0 [] := by simp [Untouched]
  exact (last_request_wins_iff (fun _ => ⟨some 7, 5, 0, 0⟩) 10 reached rfl own rfl none
    List.not_mem_nil rfl rfl).mpr (.inr (.inl rfl))

/-- A periodic timer with period 1 whose routine asks for tick 1000, period 5 and
another DPC fires again at the next tick, with period 5 and the old DPC. -/
theorem last_request_overwritten :
    ∃ asked returned,
      runFrom (step fun _ => ⟨some 7, 5, 0, 0⟩) (keTimerInitSystem 10)
        [.setTimer 0 0 1 (some 0), .beginPass, .scan, .scan, .fire,
          .setTimer 0 10000000 5 (some 1)] = some asked ∧
      step (fun _ => ⟨some 7, 5, 0, 0⟩) asked .routineReturns = some returned ∧
      nextFiring asked 0 = some ⟨1000, 5, some 1, 5⟩ ∧
      nextFiring returned 0 = some ⟨15, 5, some 0, 5⟩ := by
  refine ⟨_, _, rfl, rfl, ?_, ?_⟩
  · decide
  · decide

end MinNT.Timer
