import MinNT.Ke.Timer

namespace MinNT.Timer

open List Function ListEntry Transition

inductive TimerList where
  | active
  | fired
deriving DecidableEq, Repr

def TimerList.head : TimerList → Node
  | .active => .timerListHead
  | .fired => .firedList

/-- The timer table with the lists themselves; a scan holds the timers it has not
come to. -/
structure Model where
  lists : TimerList → List Nat
  timers : Nat → KTimer
  tickCount : BitVec 64
  phase : Phase (List Nat)
  calls : List DpcCall

namespace Model

variable (dpcs : Nat → KDpc)

def remove (model : Model) (timer : Nat) : Model :=
  { model with lists := fun list => (model.lists list).erase timer }

def insert (model : Model) (list : TimerList) (timer : Nat) : Model :=
  { model with lists := update model.lists list (model.lists list ++ [timer]) }

def setTimer (model : Model) (index : Nat) (timer : KTimer) : Model :=
  { model with timers := update model.timers index timer }

def withPhase (model : Model) (phase : Phase (List Nat)) : Model := { model with phase := phase }

def set (model : Model) (timer : Nat) (dueTime : BitVec 64) (period : BitVec 32)
    (dpc : Option Nat) : Model :=
  ((model.remove timer).setTimer timer
    ((model.timers timer).arm dpcs model.tickCount dueTime period dpc)).insert .active timer

def cancel (model : Model) (timer : Nat) : Model :=
  (model.remove timer).setTimer timer { model.timers timer with cancelled := true }

def scanFirst (model : Model) (timer : Nat) (rest : List Nat) : Model :=
  let collected :=
    if (model.timers timer).dueTime ≤ model.tickCount ∧ (model.timers timer).cancelled = false
    then (model.remove timer).insert .fired timer else model
  collected.withPhase (.scanning rest)

def rearmOrFree (model : Model) (timer : Nat) (dpc : Option Nat) : Model :=
  let period := (model.timers timer).period
  if 0 < period ∧ (model.timers timer).cancelled = false then
    model.set dpcs timer (-period * 10000) (period.setWidth 32) dpc
  else model.setTimer timer (model.timers timer).free

def fireFirst (model : Model) (timer : Nat) : Model :=
  let dpc := (model.timers timer).dpc
  let popped := model.remove timer
  match (model.timers timer).dpcCall dpcs timer with
  | some call =>
      { popped with calls := model.calls ++ [call] }.withPhase (.inRoutine timer dpc)
  | none => popped.rearmOrFree dpcs timer dpc

def step (model : Model) : Label → Option Model
  | .tick =>
      match model.phase with
      | .scanning _ => none
      | _ => some { model with tickCount := model.tickCount + 1 }
  | .setTimer timer dueTime period dpc =>
      match model.phase with
      | .scanning _ => none
      | _ => some (model.set dpcs timer dueTime period dpc)
  | .cancelTimer timer =>
      match model.phase with
      | .scanning _ => none
      | _ => some (model.cancel timer)
  | .beginPass =>
      match model.phase with
      | .waiting => some (model.withPhase (.scanning (model.lists .active)))
      | _ => none
  | .scan =>
      match model.phase with
      | .scanning [] => some (model.withPhase .firing)
      | .scanning (timer :: rest) => some (model.scanFirst timer rest)
      | _ => none
  | .fire =>
      match model.phase, model.lists .fired with
      | .firing, timer :: _ => some (model.fireFirst dpcs timer)
      | _, _ => none
  | .routineReturns =>
      match model.phase with
      | .inRoutine timer dpc => some ((model.rearmOrFree dpcs timer dpc).withPhase .firing)
      | _ => none
  | .endPass =>
      match model.phase, model.lists .fired with
      | .firing, [] => some (model.withPhase .waiting)
      | _, _ => none

/-- The steps, with what allows each of them. -/
inductive Steps (model : Model) : Label → Model → Prop
  | tick (unlocked : ∀ rest, model.phase ≠ .scanning rest) :
      Steps model .tick { model with tickCount := model.tickCount + 1 }
  | setTimer {timer : Nat} {dueTime : BitVec 64} {period : BitVec 32} {dpc : Option Nat}
      (unlocked : ∀ rest, model.phase ≠ .scanning rest) :
      Steps model (.setTimer timer dueTime period dpc) (model.set dpcs timer dueTime period dpc)
  | cancelTimer {timer : Nat} (unlocked : ∀ rest, model.phase ≠ .scanning rest) :
      Steps model (.cancelTimer timer) (model.cancel timer)
  | beginPass (waiting : model.phase = .waiting) :
      Steps model .beginPass (model.withPhase (.scanning (model.lists .active)))
  | scanned (scanning : model.phase = .scanning []) : Steps model .scan (model.withPhase .firing)
  | scan {timer : Nat} {rest : List Nat} (scanning : model.phase = .scanning (timer :: rest)) :
      Steps model .scan (model.scanFirst timer rest)
  | fire {timer : Nat} {rest : List Nat} (firing : model.phase = .firing)
      (shape : model.lists .fired = timer :: rest) :
      Steps model .fire (model.fireFirst dpcs timer)
  | routineReturns {timer : Nat} {dpc : Option Nat} (inside : model.phase = .inRoutine timer dpc) :
      Steps model .routineReturns ((model.rearmOrFree dpcs timer dpc).withPhase .firing)
  | endPass (firing : model.phase = .firing) (empty : model.lists .fired = []) :
      Steps model .endPass (model.withPhase .waiting)

variable {dpcs}

theorem steps {model next : Model} {label : Label} (done : model.step dpcs label = some next) :
    Steps dpcs model label next := by
  cases label with
  | tick | setTimer | cancelTimer =>
    simp only [step] at done
    split at done
    · cases done
    · rename_i unlocked
      cases done
      first | exact .tick unlocked | exact .setTimer unlocked | exact .cancelTimer unlocked
  | beginPass =>
    simp only [step] at done
    split at done
    · rename_i waiting
      cases done
      exact .beginPass waiting
    · cases done
  | scan =>
    simp only [step] at done
    split at done
    · rename_i scanning
      cases done
      exact .scanned scanning
    · rename_i scanning
      cases done
      exact .scan scanning
    · cases done
  | fire =>
    simp only [step] at done
    split at done
    · rename_i firing shape
      cases done
      exact .fire firing shape
    · cases done
  | routineReturns =>
    simp only [step] at done
    split at done
    · rename_i inside
      cases done
      exact .routineReturns inside
    · cases done
  | endPass =>
    simp only [step] at done
    split at done
    · rename_i firing empty
      cases done
      exact .endPass firing empty
    · cases done

end Model

/-- A timer is in one list at most, and no timer in a list is cancelled. -/
structure Sound (model : Model) : Prop where
  once : ∀ list, (model.lists list).Nodup
  apart : ∀ list other, list ≠ other → ∀ timer ∈ model.lists list, timer ∉ model.lists other
  live : ∀ list, ∀ timer ∈ model.lists list, (model.timers timer).cancelled = false

/-- What the phase says of the lists. -/
structure InPlace (model : Model) : Prop extends Sound model where
  quiet : model.phase = .waiting → model.lists .fired = []
  position : ∀ rest, model.phase = .scanning rest → ∃ seen, model.lists .active = seen ++ rest
  popped : ∀ timer dpc, model.phase = .inRoutine timer dpc → timer ∉ model.lists .fired

section Sound

variable {model : Model} {dpcs : Nat → KDpc}

theorem Sound.withPhase (sound : Sound model) (phase : Phase (List Nat)) :
    Sound (model.withPhase phase) := ⟨sound.once, sound.apart, sound.live⟩

theorem Sound.remove (sound : Sound model) (timer : Nat) : Sound (model.remove timer) := by
  refine ⟨?_, ?_, ?_⟩
  · intro list
    exact (sound.once list).erase timer
  · intro list other different candidate member inside
    exact sound.apart list other different candidate (mem_of_mem_erase member)
      (mem_of_mem_erase inside)
  · intro list candidate member
    exact sound.live list candidate (mem_of_mem_erase member)

theorem Sound.absent (sound : Sound model) (timer : Nat) (list : TimerList) :
    timer ∉ (model.remove timer).lists list :=
  (sound.once list).not_mem_erase

variable {timer : Nat}

section Sound

variable (sound : Sound model)
include sound

theorem Sound.setTimer {contents : KTimer}
    (allowed : contents.cancelled = false ∨ ∀ list, timer ∉ model.lists list) :
    Sound (model.setTimer timer contents) := by
  refine ⟨sound.once, sound.apart, ?_⟩
  intro list candidate member
  simp only [Model.setTimer]
  by_cases same : candidate = timer
  · subst candidate
    rw [update_self]
    exact allowed.resolve_right (fun absent => absent list member)
  · rw [update_of_ne same]
    exact sound.live list candidate member

/-- A timer that is in no list may go into any. -/
theorem Sound.insert (list : TimerList) (absent : ∀ list, timer ∉ model.lists list)
    (uncancelled : (model.timers timer).cancelled = false) : Sound (model.insert list timer) := by
  have cases_of : ∀ place, ∀ candidate ∈ (model.insert list timer).lists place,
      candidate ∈ model.lists place ∨ (place = list ∧ candidate = timer) := by
    intro place candidate member
    simp only [Model.insert] at member
    by_cases same : place = list
    · subst place
      rw [update_self] at member
      rcases mem_append.mp member with old | new
      · exact .inl old
      · exact .inr ⟨rfl, mem_singleton.mp new⟩
    · rw [update_of_ne same] at member
      exact .inl member
  refine ⟨?_, ?_, ?_⟩
  · intro place
    simp only [Model.insert]
    by_cases same : place = list
    · subst place
      rw [update_self]
      apply (sound.once list).append (nodup_singleton timer)
      intro candidate member new
      rw [mem_singleton.mp new] at member
      exact absent list member
    · rw [update_of_ne same]
      exact sound.once place
  · intro place other different candidate member inside
    rcases cases_of place candidate member with old | ⟨here, isTimer⟩
    · rcases cases_of other candidate inside with there | ⟨_, isTimer⟩
      · exact sound.apart place other different candidate old there
      · exact absent place (isTimer ▸ old)
    · rcases cases_of other candidate inside with there | ⟨there, _⟩
      · exact absent other (isTimer ▸ there)
      · exact different (here.trans there.symm)
  · intro place candidate member
    rcases cases_of place candidate member with old | ⟨_, isTimer⟩
    · exact sound.live place candidate old
    · rw [isTimer]
      exact uncancelled

theorem Sound.set (timer : Nat) (dueTime : BitVec 64) (period : BitVec 32)
    (dpc : Option Nat) : Sound (model.set dpcs timer dueTime period dpc) := by
  apply Sound.insert
  · exact (sound.remove timer).setTimer (.inl rfl)
  · exact sound.absent timer
  · simp only [Model.setTimer, update_self, KTimer.arm]

theorem Sound.cancel (timer : Nat) : Sound (model.cancel timer) :=
  (sound.remove timer).setTimer (.inr (sound.absent timer))

theorem Sound.scanFirst {rest : List Nat} : Sound (model.scanFirst timer rest) := by
  apply Sound.withPhase
  split
  · rename_i due
    exact (sound.remove timer).insert .fired (sound.absent timer) due.2
  · exact sound

theorem Sound.rearmOrFree (timer : Nat) (dpc : Option Nat) :
    Sound (model.rearmOrFree dpcs timer dpc) := by
  rw [Model.rearmOrFree]
  split
  · exact sound.set timer _ _ _
  · exact sound.setTimer (.inl rfl)

theorem Sound.fireFirst (timer : Nat) : Sound (model.fireFirst dpcs timer) := by
  have popped := sound.remove timer
  rw [Model.fireFirst]
  split
  · exact ⟨popped.once, popped.apart, popped.live⟩
  · exact popped.rearmOrFree timer _

end Sound

theorem rearmOrFree_phase (timer : Nat) (dpc : Option Nat) :
    (model.rearmOrFree dpcs timer dpc).phase = model.phase := by
  rw [Model.rearmOrFree]
  split
  · rfl
  · rfl

theorem set_fired (timer : Nat) (dueTime : BitVec 64) (period : BitVec 32) (dpc : Option Nat) :
    (model.set dpcs timer dueTime period dpc).lists .fired = (model.lists .fired).erase timer := rfl

theorem rearmOrFree_fired {dpc : Option Nat} (absent : timer ∉ model.lists .fired) :
    (model.rearmOrFree dpcs timer dpc).lists .fired = model.lists .fired := by
  rw [Model.rearmOrFree]
  split
  · rw [set_fired, erase_of_not_mem absent]
  · rfl

variable (dpcs) in
theorem fireFirst_fired (sound : Sound model) {rest : List Nat}
    (shape : model.lists .fired = timer :: rest) :
    (model.fireFirst dpcs timer).lists .fired = rest := by
  have popped : (model.remove timer).lists .fired = rest := by
    simp only [Model.remove, shape, erase_cons_head]
  rw [Model.fireFirst]
  split
  · exact popped
  · rw [rearmOrFree_fired (sound.absent timer .fired), popped]

theorem scanFirst_active (sound : Sound model) {rest seen : List Nat}
    (shape : model.lists .active = seen ++ timer :: rest) :
    ∃ kept, (model.scanFirst timer rest).lists .active = kept ++ rest := by
  rw [Model.scanFirst]
  split
  · have once := sound.once .active
    rw [shape] at once
    have fresh : timer ∉ seen := by
      intro before
      exact (nodup_append.mp once).2.2 timer before timer mem_cons_self rfl
    refine ⟨seen, ?_⟩
    show (model.lists .active).erase timer = seen ++ rest
    rw [shape, erase_append_right _ fresh, erase_cons_head]
  · exact ⟨seen ++ [timer], by simp [Model.withPhase, shape]⟩

theorem InPlace.quietly {next : Model} (inPlace : InPlace model) (sound : Sound next)
    (unlocked : ∀ rest, model.phase ≠ .scanning rest) (phase : next.phase = model.phase)
    (fired : ∀ timer ∈ next.lists .fired, timer ∈ model.lists .fired) : InPlace next := by
  refine { sound with quiet := ?_, position := ?_, popped := ?_ }
  · intro waiting
    rw [phase] at waiting
    apply eq_nil_iff_forall_not_mem.mpr
    intro timer member
    have old := fired timer member
    rw [inPlace.quiet waiting] at old
    exact absurd old not_mem_nil
  · intro rest scanning
    rw [phase] at scanning
    exact absurd scanning (unlocked rest)
  · intro timer dpc inside member
    rw [phase] at inside
    exact inPlace.popped timer dpc inside (fired timer member)

/-- Every step keeps each timer in its place. -/
theorem InPlace.step {label : Label} {next : Model} (inPlace : InPlace model)
    (done : model.step dpcs label = some next) : InPlace next := by
  have sound := inPlace.toSound
  cases Model.steps done with
  | tick unlocked =>
    exact inPlace.quietly ⟨sound.once, sound.apart, sound.live⟩ unlocked rfl (fun _ => id)
  | @setTimer timer dueTime period dpc unlocked =>
    exact inPlace.quietly (sound.set timer dueTime period dpc) unlocked rfl
      (fun _ => mem_of_mem_erase)
  | @cancelTimer timer unlocked =>
    exact inPlace.quietly (sound.cancel timer) unlocked rfl (fun _ => mem_of_mem_erase)
  | beginPass waiting =>
    refine { sound.withPhase _ with quiet := ?_, position := ?_, popped := ?_ }
    · intro waiting
      cases waiting
    · intro rest scanning
      cases scanning
      exact ⟨[], rfl⟩
    · intro timer dpc inside
      cases inside
  | scanned scanning =>
    refine { sound.withPhase _ with quiet := ?_, position := ?_, popped := ?_ }
    · intro waiting
      cases waiting
    · intro rest scanning
      cases scanning
    · intro timer dpc inside
      cases inside
  | scan scanning =>
    obtain ⟨seen, shape⟩ := inPlace.position _ scanning
    refine { sound.scanFirst with quiet := ?_, position := ?_, popped := ?_ }
    · intro waiting
      cases waiting
    · intro others scanning
      cases scanning
      exact scanFirst_active sound shape
    · intro timer dpc inside
      cases inside
  | @fire timer rest firing shape =>
    have phases : (model.fireFirst dpcs timer).phase = .firing ∨
        (model.fireFirst dpcs timer).phase = .inRoutine timer (model.timers timer).dpc := by
      rw [Model.fireFirst]
      split
      · exact .inr rfl
      · exact .inl ((rearmOrFree_phase timer _).trans firing)
    refine { sound.fireFirst timer with quiet := ?_, position := ?_, popped := ?_ }
    · intro waiting
      rcases phases with phase | phase
      · cases phase.symm.trans waiting
      · cases phase.symm.trans waiting
    · intro others scanning
      rcases phases with phase | phase
      · cases phase.symm.trans scanning
      · cases phase.symm.trans scanning
    · intro other dpc inside
      have once := sound.once .fired
      rw [shape] at once
      rw [fireFirst_fired dpcs sound shape]
      rcases phases with phase | phase
      · cases phase.symm.trans inside
      · cases phase.symm.trans inside
        exact (nodup_cons.mp once).1
  | @routineReturns timer dpc inside =>
    refine { (sound.rearmOrFree timer dpc).withPhase _ with
      quiet := ?_, position := ?_, popped := ?_ }
    · intro waiting
      cases waiting
    · intro others scanning
      cases scanning
    · intro other dpc inside
      cases inside
  | endPass firing empty =>
    refine { sound.withPhase _ with quiet := fun _ => empty, position := ?_, popped := ?_ }
    · intro others scanning
      cases scanning
    · intro timer dpc inside
      cases inside

end Sound

/-- Where a scan that has these timers left stands. -/
def entryOf : List Nat → Node
  | [] => .timerListHead
  | timer :: _ => .timer timer

def Phase.map {α β : Type} (f : α → β) : Phase α → Phase β
  | .waiting => .waiting
  | .scanning entry => .scanning (f entry)
  | .firing => .firing
  | .inRoutine timer dpc => .inRoutine timer dpc

structure Related (table : TimerTable) (model : Model) : Prop where
  family : Family table.links TimerList.head Node.timer model.lists
  timers : table.timers = model.timers
  tickCount : table.tickCount = model.tickCount
  calls : table.calls = model.calls
  phase : table.phase = model.phase.map entryOf

theorem names : Names TimerList.head Node.timer := by
  refine ⟨?_, ?_, ?_⟩
  · intro first second same
    cases first <;> cases second <;> first | rfl | cases same
  · intro first second same
    cases same
    rfl
  · intro list index same
    cases list <;> cases same

section Related

variable {table : TimerTable} {model : Model} {dpcs : Nat → KDpc}

theorem Related.withPhase (related : Related table model) (phase : Phase (List Nat)) :
    Related (table.withPhase (phase.map entryOf)) (model.withPhase phase) :=
  ⟨related.family, related.timers, related.tickCount, related.calls, rfl⟩

theorem Related.remove (related : Related table model) (timer : Nat) :
    Related (table.withLinks (removeTimer table.links timer)) (model.remove timer) :=
  ⟨related.family.release names timer, related.timers, related.tickCount, related.calls,
    related.phase⟩

theorem Related.setTimer (related : Related table model) (timer : Nat) (contents : KTimer) :
    Related (table.setTimer timer contents) (model.setTimer timer contents) := by
  refine ⟨related.family, ?_, related.tickCount, related.calls, related.phase⟩
  simp only [TimerTable.setTimer, Model.setTimer, related.timers]

variable {timer : Nat}

section Related

variable (related : Related table model)
include related

theorem Related.insert (list : TimerList) (absent : ∀ list, timer ∉ model.lists list) :
    Related (table.withLinks (insertTailList table.links list.head (.timer timer)))
      (model.insert list timer) :=
  ⟨related.family.insertTail names list absent, related.timers, related.tickCount, related.calls,
    related.phase⟩

theorem Related.set (sound : Sound model) (timer : Nat)
    (dueTime : BitVec 64) (period : BitVec 32) (dpc : Option Nat) :
    Related (keSetTimerEx dpcs table timer dueTime period dpc).2
      (model.set dpcs timer dueTime period dpc) := by
  have inserted := ((related.remove timer).setTimer timer
    ((model.timers timer).arm dpcs model.tickCount dueTime period dpc)).insert .active
      (sound.absent timer)
  simp only [keSetTimerEx, related.timers, related.tickCount]
  exact inserted

theorem Related.cancel (timer : Nat) :
    Related (keCancelTimer table timer).2 (model.cancel timer) := by
  have cancelled := (related.remove timer).setTimer timer
    { model.timers timer with cancelled := true }
  simp only [keCancelTimer, related.timers]
  exact cancelled

theorem Related.rearmOrFree (sound : Sound model) (timer : Nat) (dpc : Option Nat) :
    Related (rearmOrFree dpcs table timer dpc) (model.rearmOrFree dpcs timer dpc) := by
  simp only [MinNT.Timer.rearmOrFree, Model.rearmOrFree, related.timers]
  split
  · exact related.set sound timer _ _ _
  · exact related.setTimer timer _

theorem Related.empty_fired :
    isListEmpty table.links .firedList = true ↔ model.lists .fired = [] := by
  have empty := (related.family.ring .fired).isListEmpty_iff
  rwa [map_eq_nil_iff] at empty

theorem Related.next_entry {seen rest : List Nat}
    (shape : model.lists .active = seen ++ timer :: rest) :
    table.links.flink (.timer timer) = entryOf rest := by
  have ring := related.family.ring .active
  rw [shape, map_append, map_cons] at ring
  have behind := (arc_append.mp ring.arc).2
  cases rest with
  | nil => exact behind.1
  | cons other rest => exact behind.1

theorem Related.first_entry (list : TimerList) :
    table.links.flink list.head =
      match model.lists list with
      | [] => list.head
      | timer :: _ => .timer timer := by
  have ring := related.family.ring list
  cases shape : model.lists list with
  | nil =>
    rw [shape] at ring
    exact ring.arc.1
  | cons timer rest =>
    rw [shape] at ring
    exact ring.arc.1

theorem removeTimer_of_mem {list : TimerList} (member : timer ∈ model.lists list) :
    removeTimer table.links timer = unlink table.links (.timer timer) := by
  rw [removeTimer, if_neg]
  intro empty
  exact (related.family.isListEmpty_entry names timer).mp empty list member

theorem Related.scanFirst (sound : Sound model)
    {seen rest : List Nat} (shape : model.lists .active = seen ++ timer :: rest) :
    ∃ next, scanEntry table (.timer timer) = some next ∧
      Related next (model.scanFirst timer rest) := by
  have member : timer ∈ model.lists .active := by
    rw [shape]
    simp
  refine ⟨_, rfl, ?_⟩
  rw [related.next_entry shape, Model.scanFirst]
  suffices collected : Related (table.withLinks _) _ from collected.withPhase (.scanning rest)
  simp only [related.timers, related.tickCount]
  split
  · have collected := (related.remove timer).insert .fired (sound.absent timer)
    rw [← removeTimer_of_mem related member]
    exact collected
  · exact related

end Related

variable (dpcs) in
theorem Related.fireFirst (related : Related table model) (sound : Sound model)
    {rest : List Nat} (shape : model.lists .fired = timer :: rest) :
    ∃ next, fireFirst dpcs table = some next ∧ Related next (model.fireFirst dpcs timer) := by
  have member : timer ∈ model.lists .fired := by
    rw [shape]
    exact mem_cons_self
  have first := related.first_entry .fired
  rw [shape] at first
  have popped := related.remove timer
  rw [removeTimer_of_mem related member] at popped
  simp only [TimerList.head] at first
  simp only [MinNT.Timer.fireFirst, first, related.timers, Model.fireFirst]
  cases KTimer.dpcCall dpcs (model.timers timer) timer with
  | some call =>
    refine ⟨_, rfl, popped.family, popped.timers, popped.tickCount, ?_, rfl⟩
    simp only [TimerTable.withPhase, Model.withPhase, related.calls]
  | none => exact ⟨_, rfl, popped.rearmOrFree (sound.remove timer) timer _⟩

variable (dpcs) in
/-- The table and its model take each step together. -/
theorem Related.step (related : Related table model) (inPlace : InPlace model) (label : Label) :
    Option.Rel Related (step dpcs table label) (model.step dpcs label) := by
  have sound := inPlace.toSound
  have phase := related.phase
  cases label with
  | tick =>
    simp only [MinNT.Timer.step, Model.step, phase]
    cases model.phase with
    | scanning rest => exact .none
    | _ =>
      exact .some ⟨related.family, related.timers,
        congrArg (· + 1) related.tickCount, related.calls, rfl⟩
  | setTimer timer dueTime period dpc =>
    simp only [MinNT.Timer.step, Model.step, phase]
    cases model.phase with
    | scanning rest => exact .none
    | _ => exact .some (related.set sound timer dueTime period dpc)
  | cancelTimer timer =>
    simp only [MinNT.Timer.step, Model.step, phase]
    cases model.phase with
    | scanning rest => exact .none
    | _ => exact .some (related.cancel timer)
  | beginPass =>
    simp only [MinNT.Timer.step, Model.step, phase]
    cases here : model.phase with
    | waiting =>
      have emptied : Related (table.withLinks (initializeListHead table.links .firedList))
          model :=
        ⟨related.family.emptied names (inPlace.quiet here), related.timers,
          related.tickCount, related.calls, related.phase⟩
      have first := emptied.first_entry .active
      have entry : (initializeListHead table.links .firedList).flink .timerListHead =
          entryOf (model.lists .active) := by
        simp only [TimerList.head, TimerTable.withLinks] at first
        rw [first]
        cases model.lists .active <;> rfl
      have begun := emptied.withPhase (.scanning (model.lists .active))
      simp only [Phase.map, ← entry] at begun
      exact .some begun
    | _ => exact .none
  | scan =>
    simp only [MinNT.Timer.step, Model.step, phase]
    cases here : model.phase with
    | scanning rest =>
      cases rest with
      | nil => exact .some (related.withPhase .firing)
      | cons timer rest =>
        obtain ⟨seen, shape⟩ := inPlace.position _ here
        obtain ⟨next, done, follows⟩ := related.scanFirst sound shape
        simp only [Phase.map, entryOf, done]
        exact .some follows
    | _ => exact .none
  | fire =>
    simp only [MinNT.Timer.step, Model.step, phase]
    cases here : model.phase with
    | firing =>
      cases shape : model.lists .fired with
      | nil =>
        simp only [Phase.map, related.empty_fired.mpr shape, if_true]
        exact .none
      | cons timer rest =>
        have filled : ¬ isListEmpty table.links .firedList = true := by
          rw [related.empty_fired, shape]
          exact cons_ne_nil timer rest
        obtain ⟨next, done, follows⟩ := related.fireFirst dpcs sound shape
        simp only [Phase.map, if_neg filled, done]
        exact .some follows
    | _ => exact .none
  | routineReturns =>
    simp only [MinNT.Timer.step, Model.step, phase]
    cases model.phase with
    | inRoutine timer dpc =>
      exact .some ((related.rearmOrFree sound timer dpc).withPhase .firing)
    | _ => exact .none
  | endPass =>
    simp only [MinNT.Timer.step, Model.step, phase]
    cases here : model.phase with
    | firing =>
      cases shape : model.lists .fired with
      | nil =>
        simp only [Phase.map, related.empty_fired.mpr shape, if_true]
        exact .some (related.withPhase .waiting)
      | cons timer rest =>
        have filled : ¬ isListEmpty table.links .firedList = true := by
          rw [related.empty_fired, shape]
          exact cons_ne_nil timer rest
        simp only [Phase.map, if_neg filled]
        exact .none
    | _ => exact .none

end Related

end MinNT.Timer
