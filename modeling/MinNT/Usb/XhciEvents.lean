import MinNT.Usb.Xhci

namespace MinNT.Xhci

open List Transition

/-- The type of a transfer event, for which the source has no name. -/
def trbTypeTransferEvent : BitVec 32 := 32

/-- One of the events is a transfer event for a TRB of the call. -/
def Transfer.Owns (transfer : Transfer) (events : List Trb) : Prop :=
  ∃ e ∈ events, e.type = trbTypeTransferEvent ∧ e.data ∈ transfer.queued

instance (transfer : Transfer) (events : List Trb) : Decidable (transfer.Owns events) :=
  inferInstanceAs (Decidable (∃ e ∈ events, _))

/-- The driver is in step with the controller, and no transfer has succeeded on the
event of another. -/
structure InStep (s : State) : Prop where
  inOrder : s.consumed <+: s.written
  index : s.eventDequeueIdx = s.consumed.length % xhciTrbRingSize
  cycle : s.eventRingCycle = lapMark xhciTrbRingSize s.consumed.length
  own : ∀ result ∈ s.results, ∀ transfer, result.transfer = some transfer →
    result.status = statusSuccess → transfer.Owns result.events

/-- A transfer call that looks at an event without a completion code is not one before
the last slot, and one that looks at an event of success has one of its own. -/
def OwnEvents (s : State) : Label → Prop
  | .turn => ∀ transfer timeout events, s.driver = .waiting transfer (timeout + 1) events →
      s.event.cycle = s.eventRingCycle →
      (s.event.compCode = 0 → s.eventDequeueIdx ≠ xhciTrbRingSize - 2) ∧
      (transfer.completes s.event.compCode → transfer.actual = true →
        transfer.Owns (events ++ [s.event]))
  | .controller _ | .poll _ | .control _ _ _ _ _ _ | .bulk _ _ _ _ _ => True

section Steps

variable {s s' : State}

/-- The invariant: what the slots hold beside what the claim is about. -/
structure Followed (s : State) : Prop where
  ring : CycleRing xhciTrbRingSize Trb.cycle s.eventRing s.written s.consumed.length
  inStep : InStep s

theorem followed_setupEventRing (devices : Nat → Device) (maxSlots : Nat) :
    Followed (setupEventRing devices maxSlots) where
  ring := CycleRing.empty rfl
  inStep := ⟨prefix_refl _, rfl, (lapMark_of_lt (Nat.succ_pos 255)).symm,
    fun _ member => absurd member not_mem_nil⟩

theorem Followed.setDriver (followed : Followed s) (driver : Driver) :
    Followed { s with driver := driver } :=
  ⟨followed.ring, followed.inStep.inOrder, followed.inStep.index, followed.inStep.cycle,
    followed.inStep.own⟩

theorem Followed.returns (followed : Followed s) {result : Result}
    (own : ∀ transfer, result.transfer = some transfer → result.status = statusSuccess →
      transfer.Owns result.events) : Followed (s.returns result) := by
  refine ⟨followed.ring, followed.inStep.inOrder, followed.inStep.index, followed.inStep.cycle, ?_⟩
  intro other member
  rcases mem_append.mp member with old | new
  · exact followed.inStep.own other old
  · rw [mem_singleton.mp new]
    exact own

variable {events : List Trb} {transfer : Transfer}

theorem Followed.fails (followed : Followed s) {transfer : Option Transfer} {status : NtStatus}
    (failed : status ≠ statusSuccess) : Followed (s.returns ⟨transfer, status, events, none⟩) :=
  followed.returns fun _ _ success => absurd success failed

theorem Followed.controller (followed : Followed s) {trb : Trb}
    (done : Xhci.controller s trb = some s') : Followed s' := by
  unfold Xhci.controller at done
  split at done
  case isTrue free =>
    cases done
    exact ⟨followed.ring.write free (cycle_withCycle _ _),
      followed.inStep.inOrder.trans (prefix_append _ _), followed.inStep.index,
      followed.inStep.cycle, followed.inStep.own⟩
  case isFalse => cases done

theorem index_next (count : Nat) :
    (if 256 ≤ count % 256 + 1 then 0 else count % 256 + 1) = (count + 1) % 256 := by
  split <;> omega

theorem wraps_iff (count : Nat) : 256 ≤ count % 256 + 1 ↔ (count + 1) % 256 = 0 := by
  omega

theorem Followed.ready_iff (followed : Followed s) :
    s.event.cycle = s.eventRingCycle ↔ s.consumed.length < s.written.length := by
  rw [followed.inStep.cycle, State.event, followed.inStep.index]
  exact followed.ring.ready_iff (by decide)

/-- A consumed event moves the ring on. -/
theorem Followed.advance (followed : Followed s) (ready : s.event.cycle = s.eventRingCycle) :
    Followed s.advance := by
  have ring := followed.ring
  rw [followed.ready_iff] at ready
  obtain ⟨inOrder, index, cycle, own⟩ := followed.inStep
  have next := ring.next ready
  have length : (s.consumed ++ [s.event]).length = s.consumed.length + 1 := length_append
  refine ⟨?_, ?_, ?_, ?_, own⟩
  · show CycleRing _ _ s.eventRing s.written (s.consumed ++ [s.event]).length
    rw [length]
    exact ring.take ready
  · apply List.prefix_concat_of_getElem? inOrder
    rw [next, State.event, index]
  · show (if 256 ≤ s.eventDequeueIdx + 1 then 0 else s.eventDequeueIdx + 1) =
      (s.consumed ++ [s.event]).length % 256
    rw [length, index]
    exact index_next _
  · show (if 256 ≤ s.eventDequeueIdx + 1 then !s.eventRingCycle else s.eventRingCycle) =
      lapMark 256 (s.consumed ++ [s.event]).length
    rw [length, lapMark_succ, index, cycle]
    simp only [xhciTrbRingSize, wraps_iff]

theorem advanceCompleted_eq (inside : s.eventDequeueIdx < xhciTrbRingSize) :
    s.advanceCompleted = s.advance := by
  unfold xhciTrbRingSize at inside
  unfold State.advanceCompleted State.advance State.advanceAt xhciTrbRingSize
  by_cases last : s.eventDequeueIdx = 255
  · rw [last]
    rfl
  · have whole : (s.eventDequeueIdx + 1) % 256 = s.eventDequeueIdx + 1 :=
      Nat.mod_eq_of_lt (by omega)
    dsimp only
    rw [whole, if_neg (by omega), if_neg (by omega), if_neg (by omega)]

theorem advanceSkipped_eq (other : s.eventDequeueIdx ≠ xhciTrbRingSize - 2) :
    s.advanceSkipped = s.advance := by
  have same : xhciTrbRingSize - 1 ≤ s.eventDequeueIdx + 1 ↔
      xhciTrbRingSize ≤ s.eventDequeueIdx + 1 := by
    unfold xhciTrbRingSize at other ⊢
    omega
  unfold State.advanceSkipped State.advance State.advanceAt
  simp only [same]

section Followed

variable (followed : Followed s)
include followed

theorem Followed.inside : s.eventDequeueIdx < xhciTrbRingSize := by
  rw [followed.inStep.index]
  exact Nat.mod_lt _ (by decide)

theorem Followed.submit (devAddr : BitVec 8) (kind : Kind) (len : BitVec 32) (actual : Bool)
    (trbs : List Trb) : Followed (s.submit devAddr kind len actual trbs) := by
  unfold State.submit
  split
  · split
    · exact followed.setDriver .lost
    · exact followed.fails (by decide)
  · split
    · exact followed.fails (by decide)
    · exact ⟨followed.ring, followed.inStep.inOrder, followed.inStep.index,
        followed.inStep.cycle, followed.inStep.own⟩

theorem Followed.controlTransfer (devAddr : BitVec 8)
    (setup data : Option (BitVec 64)) (len : BitVec 16) (isIn actual : Bool) :
    Followed (Xhci.controlTransfer s devAddr setup data len isIn actual) := by
  cases setup with
  | none => exact followed.fails (by decide)
  | some packet => exact followed.submit _ _ _ _ _

theorem Followed.bulkTransfer (devAddr : BitVec 8) (data : Option (BitVec 64)) (len : BitVec 32)
    (isIn actual : Bool) : Followed (Xhci.bulkTransfer s devAddr data len isIn actual) := by
  cases data with
  | none => exact followed.fails (by decide)
  | some phys =>
    simp only [Xhci.bulkTransfer]
    split
    · exact followed.fails (by decide)
    · exact followed.submit _ _ _ _ _

theorem Followed.pollTurn (timeout : Nat) : Followed (s.pollTurn timeout) := by
  unfold State.pollTurn
  split
  case isTrue ready =>
    apply (followed.advance ready).returns
    intro transfer none
    cases none
  case isFalse => exact followed.setDriver _

theorem Followed.transferTurn {timeout : Nat}
    (before : s.event.cycle = s.eventRingCycle → s.event.compCode = 0 →
      s.eventDequeueIdx ≠ xhciTrbRingSize - 2)
    (own : s.event.cycle = s.eventRingCycle → transfer.completes s.event.compCode →
      transfer.actual = true → transfer.Owns (events ++ [s.event])) :
    Followed (s.transferTurn transfer timeout events) := by
  unfold State.transferTurn
  rw [advanceCompleted_eq followed.inside]
  by_cases ready : s.event.cycle = s.eventRingCycle
  · rw [if_pos ready]
    have advanced := followed.advance ready
    by_cases completes : transfer.completes s.event.compCode
    · rw [if_pos completes]
      by_cases actual : transfer.actual = true
      · rw [if_pos actual]
        apply advanced.returns
        intro other same _
        cases same
        exact own ready completes actual
      · rw [if_neg actual]
        exact followed.setDriver .lost
    · rw [if_neg completes]
      by_cases skipped : s.event.compCode = 0
      · rw [if_neg (not_not.mpr skipped), advanceSkipped_eq (before ready skipped)]
        exact advanced.setDriver _
      · rw [if_pos skipped]
        exact advanced.fails (by decide)
  · rw [if_neg ready]
    exact followed.setDriver _

theorem followed_turn (own : OwnEvents s .turn) (done : turn s = some s') : Followed s' := by
  unfold turn at done
  cases driver : s.driver with
  | idle =>
    rw [driver] at done
    cases done
  | lost =>
    rw [driver] at done
    cases done
  | polling timeout =>
    rw [driver] at done
    cases timeout with
    | zero =>
      cases done
      exact followed.fails (by decide)
    | succ timeout =>
      cases done
      exact followed.pollTurn timeout
  | waiting transfer timeout events =>
    rw [driver] at done
    cases timeout with
    | zero =>
      cases done
      exact followed.fails (by decide)
    | succ timeout =>
      cases done
      exact followed.transferTurn (fun ready => (own _ _ _ driver ready).1)
        (fun ready => (own _ _ _ driver ready).2)

theorem followed_step {label : Label} (own : OwnEvents s label)
    (done : step s label = some s') : Followed s' := by
  cases label with
  | controller trb => exact followed.controller done
  | poll timeoutMs =>
    simp only [step] at done
    split at done
    · cases done
      exact followed.setDriver _
    · cases done
  | control devAddr setup data len isIn actual =>
    simp only [step] at done
    split at done
    · cases done
      exact followed.controlTransfer _ _ _ _ _ _
    · cases done
  | bulk devAddr data len isIn actual =>
    simp only [step] at done
    split at done
    · cases done
      exact followed.bulkTransfer _ _ _ _ _
    · cases done
  | turn => exact followed_turn followed own done

end Followed

theorem transferTurn_skips {timeout : Nat}
    (ready : s.event.cycle = s.eventRingCycle) (skipped : s.event.compCode = 0) :
    s.transferTurn transfer timeout events =
      { s.advanceSkipped with driver := .waiting transfer timeout (events ++ [s.event]) } := by
  have none : ¬ transfer.completes s.event.compCode := by
    rintro (success | ⟨_, short⟩)
    · rw [skipped] at success
      exact absurd success (by decide)
    · rw [skipped] at short
      exact absurd short (by decide)
  rw [State.transferTurn, if_pos ready, if_neg none, if_neg (not_not.mpr skipped)]

theorem Followed.skipped (followed : Followed s) (last : s.eventDequeueIdx = xhciTrbRingSize - 2)
    (driver : Driver) : ¬ InStep { s.advanceSkipped with driver := driver } := by
  intro inStep
  have index := inStep.index
  rw [followed.inStep.index] at last
  change (if 255 ≤ s.eventDequeueIdx + 1 then 0 else s.eventDequeueIdx + 1) =
    (s.consumed ++ [s.event]).length % 256 at index
  rw [length_append, length_singleton, followed.inStep.index] at index
  unfold xhciTrbRingSize at last index
  rw [last, if_pos (by decide)] at index
  omega

theorem not_inStep_returns {result : Result}
    (same : result.transfer = some transfer) (success : result.status = statusSuccess)
    (foreign : ¬ transfer.Owns result.events) : ¬ InStep (s.returns result) := by
  intro inStep
  exact foreign (inStep.own result (mem_append_right _ mem_cons_self) transfer same success)

/-- A step that does not meet the condition leaves the two out of step, or a success on
the event of another. -/
theorem ownEvents_of_inStep (followed : Followed s) {label : Label}
    (done : step s label = some s') (inStep : InStep s') : OwnEvents s label := by
  cases label with
  | turn =>
    intro transfer timeout events driver ready
    have turned : s.transferTurn transfer timeout events = s' := by
      simp only [step, turn, driver] at done
      exact Option.some.inj done
    rw [← turned] at inStep
    constructor
    · intro skipped last
      rw [transferTurn_skips ready skipped] at inStep
      exact followed.skipped last _ inStep
    · intro completes actual
      by_contra foreign
      rw [State.transferTurn, if_pos ready, if_pos completes, if_pos actual] at inStep
      exact not_inStep_returns rfl rfl foreign inStep
  | controller trb => trivial
  | poll timeoutMs => trivial
  | control devAddr setup data len isIn actual => trivial
  | bulk devAddr data len isIn actual => trivial

end Steps

/-- As long as the transfer calls look at their own events only, driver and controller
stay in step; the first step in which a call does not is the one that ends this. -/
theorem xhciEvents_inStep (devices : Nat → Device) (maxSlots : Nat) {s : State}
    (run : Reaches step OwnEvents (setupEventRing devices maxSlots) s) :
    InStep s ∧ ∀ label s', step s label = some s' → (InStep s' ↔ OwnEvents s label) := by
  have followed : Followed s := run.invariant (followed_setupEventRing devices maxSlots)
    (fun _ _ _ followed own done => followed_step followed own done)
  refine ⟨followed.inStep, ?_⟩
  intro label s' done
  exact ⟨ownEvents_of_inStep followed done, fun own => (followed_step followed own done).inStep⟩

/-- A device with address 5 in slot 1, whose ring is at `0x1000`. -/
def oneDevice (i : Nat) : Device :=
  ⟨i == 1, 5, some fun _ => ⟨0, 0, 0⟩, 0x1000, 0, true⟩

/-- The transfer event of success for the TRB at an address. -/
def successEvent (trb : BitVec 64) : Trb := ⟨trb, trbCtrlType 32 ||| (trbSuccess <<< 24), 0⟩

theorem controller_free {s : State} (free : s.written.length < s.consumed.length + 256)
    (trb : Trb) :
    step s (.controller trb) = some { s with
      eventRing := Function.update s.eventRing (s.written.length % 256)
        (trb.withCycle (lapMark 256 s.written.length))
      written := s.written ++ [trb.withCycle (lapMark 256 s.written.length)] } :=
  if_pos free

/-- A bulk transfer and its event. -/
theorem xhciEvents_inStep_bulk :
    ∃ s : State, s.consumed.length = 1 ∧ s.eventDequeueIdx = 1 ∧ InStep s := by
  have started : Reaches step OwnEvents (setupEventRing oneDevice 1) _ := .start
  have queued : step (setupEventRing oneDevice 1) (.bulk 5 (some 0x2000) 512 true true) = some _ :=
    rfl
  have waiting := started.step (by trivial) queued
  have written := waiting.step (by trivial) (controller_free (by decide) (successEvent 0x1000))
  have last := written.step (by
    intro transfer timeout events driver _
    cases driver
    exact ⟨fun none => absurd none (by decide), fun _ _ => by decide⟩)
    (rfl : step _ .turn = some _)
  exact ⟨_, rfl, rfl, (xhciEvents_inStep oneDevice 1 last).1⟩

/-- Each stage of a control transfer asks for an event, and the next transfer takes what
is left. -/
theorem xhciControlTransfer_foreign :
    ∃ s, Reaches step (fun _ _ => True) (setupEventRing oneDevice 1) s ∧ ¬ InStep s := by
  have started : Reaches step (fun _ _ => True) (setupEventRing oneDevice 1) _ := .start
  have queued : step (setupEventRing oneDevice 1)
      (.control 5 (some 0x0001000000010900) none 0 false true) = some _ := rfl
  have setup := (started.step trivial queued).step trivial
    (controller_free (by decide) (successEvent 0x1000))
  have both := setup.step trivial (controller_free (by decide) (successEvent 0x1010))
  have first := both.step trivial (rfl : step _ .turn = some _)
  have second := first.step trivial
    (rfl : step _ (.control 5 (some 0x0001000000010900) none 0 false true) = some _)
  have last := second.step trivial (rfl : step _ .turn = some _)
  refine ⟨_, last, ?_⟩
  intro inStep
  have own := inStep.own ⟨some ⟨.control, 0, true, [0x1020, 0x1030]⟩, statusSuccess,
    [(successEvent 0x1010).withCycle true], some 0⟩ mem_concat_self _ rfl rfl
  exact absurd own (by decide)

end MinNT.Xhci
