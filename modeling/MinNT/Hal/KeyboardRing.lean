import MinNT.Hal.Keyboard

namespace MinNT.Keyboard

open List Transition

theorem nextIndex_eq (index : Nat) : nextIndex index = (index + 1) % 256 :=
  Nat.and_two_pow_sub_one_eq_mod (index + 1) 8

theorem nextIndex_mod (count : Nat) : nextIndex (count % 256) = (count + 1) % 256 := by
  rw [nextIndex_eq, Nat.mod_add_mod]

/-- What the handler knows at each place of a ring with so many characters shown and so
many taken. -/
def Handler.Holds (slots : Nat → UInt8) (shown taken : Nat) : Handler → Prop
  | .idle => True
  | .next c => c ≠ 0
  | .tail c after => c ≠ 0 ∧ after = (shown + 1) % 256
  | .slot c after => c ≠ 0 ∧ after = (shown + 1) % 256 ∧ shown + 1 < taken + 256
  | .store c after index =>
      c ≠ 0 ∧ after = (shown + 1) % 256 ∧ shown + 1 < taken + 256 ∧ index = shown % 256
  | .publish c after =>
      c ≠ 0 ∧ after = (shown + 1) % 256 ∧ shown + 1 < taken + 256 ∧ slots (shown % 256) = c

/-- What the consumer knows at each place. -/
def Consumer.Holds (shown : List UInt8) (taken : Nat) : Consumer → Prop
  | .idle => True
  | .test _ _ => True
  | .headRead _ head empty =>
      (head = taken % 256 → empty = true) ∧ (head ≠ taken % 256 → taken < shown.length)
  | .tailRead _ tail _ => tail = taken % 256
  | .slot => taken < shown.length
  | .read index => taken < shown.length ∧ index = taken % 256
  | .next c => taken < shown.length ∧ shown[taken]? = some c
  | .release c after => taken < shown.length ∧ shown[taken]? = some c ∧ after = (taken + 1) % 256

/-- The ring between its two sides. -/
structure Ring (s : State) : Prop where
  head : s.kbdHead = s.accepted.length % 256
  tail : s.kbdTail = s.characters.length % 256
  window : RingWindow 256 s.kbdBuffer s.characters.length s.accepted
  inOrder : s.characters <+: s.accepted
  nonzero : ∀ c ∈ s.accepted, c ≠ 0
  handler : s.handler.Holds s.kbdBuffer s.accepted.length s.characters.length
  consumer : s.consumer.Holds s.accepted s.characters.length
  full : ∀ drop ∈ s.dropped, drop.2 = 255
  empty : ∀ answer ∈ s.returned, answer.1 = 0 → answer.2 = true

section Steps

variable {s s' : State}

theorem Consumer.Holds.grow {consumer : Consumer} {shown : List UInt8} {taken : Nat}
    (holds : consumer.Holds shown taken) (c : UInt8) : consumer.Holds (shown ++ [c]) taken := by
  have more : taken < shown.length → taken < (shown ++ [c]).length := by
    intro inside
    rw [length_append]
    omega
  have same : taken < shown.length → (shown ++ [c])[taken]? = shown[taken]? :=
    getElem?_append_left
  cases consumer with
  | idle => trivial
  | test call headFirst => trivial
  | headRead call head empty => exact ⟨holds.1, fun other => more (holds.2 other)⟩
  | tailRead call tail empty => exact holds
  | slot => exact more holds
  | read index => exact ⟨more holds.1, holds.2⟩
  | next d => exact ⟨more holds.1, (same holds.1).trans holds.2⟩
  | release d next => exact ⟨more holds.1, (same holds.1).trans holds.2.1, holds.2.2⟩

theorem ring_interrupt (ring : Ring s) {status scancode : UInt8}
    (done : interrupt s status scancode = some s') : Ring s' := by
  unfold interrupt at done
  split at done
  · cases scanned : scan s.keys status scancode with
    | mk keys found =>
      rw [scanned] at done
      cases found with
      | none =>
        cases done
        exact ⟨ring.head, ring.tail, ring.window, ring.inOrder, ring.nonzero, ring.handler,
          ring.consumer, ring.full, ring.empty⟩
      | some c =>
        cases done
        have nonzero : c ≠ 0 := scan_ne_zero (congrArg Prod.snd scanned)
        exact ⟨ring.head, ring.tail, ring.window, ring.inOrder, ring.nonzero, nonzero,
          ring.consumer, ring.full, ring.empty⟩
  · cases done

theorem Ring.handle (ring : Ring s) {handler : Handler}
    (holds : handler.Holds s.kbdBuffer s.accepted.length s.characters.length) :
    Ring { s with handler := handler } :=
  ⟨ring.head, ring.tail, ring.window, ring.inOrder, ring.nonzero, holds, ring.consumer,
    ring.full, ring.empty⟩

/-- The handler keeps the ring. -/
theorem ring_handlerStep (ring : Ring s) (done : handlerStep s = some s') : Ring s' := by
  have holds := ring.handler
  unfold handlerStep at done
  cases place : s.handler with
  | idle =>
    rw [place] at done
    cases done
  | next c =>
    rw [place] at done holds
    cases done
    apply ring.handle
    exact ⟨holds, by rw [ring.head, nextIndex_mod]⟩
  | tail c next =>
    rw [place] at done holds
    obtain ⟨nonzero, behind⟩ := holds
    have full := ring.window.full_iff
    rw [← behind, ← ring.tail] at full
    dsimp only at done
    split at done
    case isTrue free =>
      cases done
      have room := ring.window.room
      exact ring.handle ⟨nonzero, behind, by omega⟩
    case isFalse none =>
      cases done
      refine ⟨ring.head, ring.tail, ring.window, ring.inOrder, ring.nonzero, trivial,
        ring.consumer, ?_, ring.empty⟩
      intro drop member
      rcases mem_append.mp member with old | new
      · exact ring.full drop old
      · rw [mem_singleton.mp new]
        show s.accepted.length - s.characters.length = 255
        omega
  | slot c next =>
    rw [place] at done holds
    cases done
    exact ring.handle ⟨holds.1, holds.2.1, holds.2.2, ring.head⟩
  | store c next index =>
    rw [place] at done holds
    cases done
    obtain ⟨nonzero, behind, free, rfl⟩ := holds
    exact ⟨ring.head, ring.tail, ring.window.write c, ring.inOrder, ring.nonzero,
      ⟨nonzero, behind, free, Function.update_self _ _ _⟩, ring.consumer, ring.full, ring.empty⟩
  | publish c next =>
    rw [place] at done holds
    cases done
    obtain ⟨nonzero, behind, free, stored⟩ := holds
    have window := ring.window.append free
    rw [stored] at window
    refine ⟨?_, ring.tail, window, ring.inOrder.trans (prefix_append _ _), ?_, trivial,
      ring.consumer.grow c, ring.full, ring.empty⟩
    · rw [length_append]
      exact behind
    · intro d member
      rcases mem_append.mp member with old | new
      · exact ring.nonzero d old
      · rw [mem_singleton.mp new]
        exact nonzero

theorem Handler.Holds.shrink {handler : Handler} {slots : Nat → UInt8} {shown taken : Nat}
    (holds : handler.Holds slots shown taken) : handler.Holds slots shown (taken + 1) := by
  cases handler with
  | idle => trivial
  | next c => exact holds
  | tail c next => exact holds
  | slot c next => exact ⟨holds.1, holds.2.1, by have := holds.2.2; omega⟩
  | store c next index | publish c next =>
    exact ⟨holds.1, holds.2.1, by have := holds.2.2.1; omega, holds.2.2.2⟩

theorem Ring.consume (ring : Ring s) {consumer : Consumer}
    (holds : consumer.Holds s.accepted s.characters.length) :
    Ring { s with consumer := consumer } :=
  ⟨ring.head, ring.tail, ring.window, ring.inOrder, ring.nonzero, ring.handler, holds,
    ring.full, ring.empty⟩

theorem characters_append (s : State) (c : UInt8) (empty : Bool) :
    ((s.returned ++ [(c, empty)]).map Prod.fst).filter (· ≠ 0) =
      s.characters ++ [c].filter (· ≠ 0) := by
  rw [map_append, filter_append]
  rfl

section Ring

variable (ring : Ring s)
include ring

/-- The test decides: an answer of zero comes from an empty ring, and otherwise there
is a character to take. -/
theorem Ring.tested (call : Call) {same empty : Bool} (none : same = true → empty = true)
    (more : same = false → s.characters.length < s.accepted.length) :
    Ring (s.tested call same empty) := by
  cases call with
  | hasKey => exact ring.consume trivial
  | getChar =>
    cases same with
    | false => exact ring.consume (more rfl)
    | true =>
      have kept : State.characters (s.tested .getChar true empty) = s.characters := by
        have appended := characters_append s 0 empty
        rw [show [(0 : UInt8)].filter (· ≠ 0) = [] from rfl, append_nil] at appended
        exact appended
      refine ⟨ring.head, ?_, ?_, ?_, ring.nonzero, ?_, trivial, ring.full, ?_⟩
      · rw [kept]
        exact ring.tail
      · rw [kept]
        exact ring.window
      · rw [kept]
        exact ring.inOrder
      · rw [kept]
        exact ring.handler
      · intro answer member
        rcases mem_append.mp member with old | new
        · exact ring.empty answer old
        · rw [mem_singleton.mp new]
          exact fun _ => none rfl

theorem Ring.release {c : UInt8} (more : s.characters.length < s.accepted.length)
    (oldest : s.accepted[s.characters.length]? = some c) :
    Ring { s with
      kbdTail := (s.characters.length + 1) % 256
      consumer := .idle
      returned := s.returned ++ [(c, false)] } := by
  have nonzero : c ≠ 0 := ring.nonzero c (mem_of_getElem? oldest)
  have taken : ((s.returned ++ [(c, false)]).map Prod.fst).filter (· ≠ 0) =
      s.characters ++ [c] := by
    rw [characters_append, filter_cons_of_pos (by simpa using nonzero), filter_nil]
  have length : (s.characters ++ [c]).length = s.characters.length + 1 := length_append
  have ordered : s.characters ++ [c] <+: s.accepted := by
    obtain ⟨rest, split⟩ := ring.inOrder
    cases rest with
    | nil =>
      rw [← split, append_nil] at more
      exact absurd more (Nat.lt_irrefl _)
    | cons d rest =>
      rw [← split, getElem?_append_right (Nat.le_refl _), Nat.sub_self] at oldest
      cases oldest
      exact ⟨rest, by rw [← split, append_assoc]; rfl⟩
  refine ⟨ring.head, ?_, ?_, ?_, ring.nonzero, ?_, trivial, ring.full, ?_⟩
  · show (s.characters.length + 1) % 256 = (List.filter _ _).length % 256
    rw [taken, length]
  · unfold State.characters
    rw [taken, length]
    exact ring.window.release more
  · unfold State.characters
    rw [taken]
    exact ordered
  · unfold State.characters
    rw [taken, length]
    exact ring.handler.shrink
  · intro answer member
    rcases mem_append.mp member with old | new
    · exact ring.empty answer old
    · rw [mem_singleton.mp new]
      exact fun zero => absurd zero nonzero

theorem Ring.some_of_ne (different : s.kbdHead ≠ s.kbdTail) :
    s.characters.length < s.accepted.length := by
  rw [ring.head, ring.tail] at different
  exact Nat.lt_of_le_of_ne ring.window.within (mt ring.window.empty_iff.mpr different)

theorem ring_consumerStep (done : consumerStep s = some s') : Ring s' := by
  have holds := ring.consumer
  unfold consumerStep at done
  cases place : s.consumer with
  | idle =>
    rw [place] at done
    cases done
  | test call headFirst =>
    rw [place] at done
    cases headFirst with
    | true =>
      cases done
      have equal : s.kbdHead = s.characters.length % 256 ↔ s.kbdHead = s.kbdTail := by
        rw [← ring.tail]
      exact ring.consume ⟨fun same => beq_iff_eq.mpr (equal.mp same),
        fun other => ring.some_of_ne (mt equal.mpr other)⟩
    | false =>
      cases done
      exact ring.consume ring.tail
  | headRead call head before =>
    rw [place] at done holds
    cases done
    obtain ⟨empty, more⟩ := holds
    rw [← ring.tail] at empty more
    apply ring.tested
    · intro same
      rw [empty (beq_iff_eq.mp same), Bool.true_or]
    · intro different
      exact more (beq_eq_false_iff_ne.mp different)
  | tailRead call tail before =>
    rw [place] at done holds
    cases done
    have own : tail = s.kbdTail := holds.trans ring.tail.symm
    subst own
    apply ring.tested
    · intro same
      rw [same, Bool.or_true]
    · intro different
      exact ring.some_of_ne (beq_eq_false_iff_ne.mp different)
  | slot =>
    rw [place] at done holds
    cases done
    exact ring.consume ⟨holds, ring.tail⟩
  | read index =>
    rw [place] at done holds
    cases done
    obtain ⟨more, rfl⟩ := holds
    exact ring.consume ⟨more, ring.window.held _ (Nat.le_refl _) more⟩
  | next c =>
    rw [place] at done holds
    cases done
    exact ring.consume ⟨holds.1, holds.2, by rw [ring.tail, nextIndex_mod]⟩
  | release c next =>
    rw [place] at done holds
    cases done
    obtain ⟨more, oldest, rfl⟩ := holds
    exact ring.release more oldest

/-- Every access keeps the ring. -/
theorem ring_step {label : Label} (done : step s label = some s') : Ring s' := by
  cases label with
  | interrupt status scancode => exact ring_interrupt ring done
  | handler => exact ring_handlerStep ring done
  | enter call headFirst =>
    simp only [step, enter] at done
    split at done
    · cases done
      exact ring.consume trivial
    · cases done
  | consumer => exact ring_consumerStep ring done

end Ring

theorem ring_halpKbdInit : Ring halpKbdInit where
  head := rfl
  tail := rfl
  window := RingWindow.empty (by decide) _
  inOrder := prefix_refl _
  nonzero := fun _ member => absurd member not_mem_nil
  handler := trivial
  consumer := trivial
  full := fun _ member => absurd member not_mem_nil
  empty := fun _ member => absurd member not_mem_nil

end Steps

/-- Whatever the interleaving, the characters come out in order and once each, the ring
drops one only with 255 unread, and an answer of zero means an empty ring. -/
theorem halpKbdGetChar_inOrder {s : State} (run : Reaches step (fun _ _ => True) halpKbdInit s) :
    s.characters <+: s.accepted ∧ (∀ drop ∈ s.dropped, drop.2 = 255) ∧
      ∀ answer ∈ s.returned, answer.1 = 0 → answer.2 = true := by
  have ring : Ring s := run.invariant ring_halpKbdInit
    (fun _ _ _ ring _ done => ring_step ring done)
  exact ⟨ring.inOrder, ring.full, ring.empty⟩

/-- A key whose character comes too late for the first `HalpKbdGetChar`. -/
theorem halpKbdGetChar_inOrder_late :
    ∃ s : State, s.accepted = [49, 50] ∧ s.returned = [(0, true), (49, false)] ∧
      s.characters <+: s.accepted ∧ (∀ drop ∈ s.dropped, drop.2 = 255) ∧
      ∀ answer ∈ s.returned, answer.1 = 0 → answer.2 = true := by
  have run : runFrom step halpKbdInit
      [.interrupt 1 2, .handler, .handler, .handler, .handler, .enter .getChar true, .consumer,
        .consumer, .handler, .enter .getChar false, .interrupt 1 3, .consumer, .consumer,
        .handler, .consumer, .handler, .consumer, .handler, .consumer, .handler, .consumer,
        .handler] = some _ := rfl
  exact ⟨_, rfl, rfl, halpKbdGetChar_inOrder (reaches_of_runFrom run)⟩

end MinNT.Keyboard
