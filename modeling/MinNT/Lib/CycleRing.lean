import MinNT.Lib.Ring

/-! Rings whose entries carry the mark of the lap they were written in. The reader needs
no index of the writer: the next entry is there once its mark is that of the lap. -/

/-- The mark of the lap of a place: set in the first lap, and toggled from lap to lap. -/
def lapMark (capacity place : Nat) : Bool := place / capacity % 2 == 0

/-- A ring behind a number of writes, of which a number have been read. -/
structure CycleRing {α : Type} (capacity : Nat) (mark : α → Bool) (slots : Nat → α)
    (written : List α) (taken : Nat) : Prop where
  within : taken ≤ written.length
  room : written.length ≤ taken + capacity
  marked : ∀ i e, written[i]? = some e → mark e = lapMark capacity i
  held : ∀ i, i < written.length → written.length ≤ i + capacity →
    written[i]? = some (slots (i % capacity))
  blank : ∀ j, written.length ≤ j → j < capacity → mark (slots j) = false

theorem lapMark_of_lt {capacity place : Nat} (inside : place < capacity) :
    lapMark capacity place = true := by
  unfold lapMark
  rw [Nat.div_eq_of_lt inside]
  rfl

theorem toggled (lap : Nat) : ((lap + 1) % 2 == 0) = !(lap % 2 == 0) := by
  rcases Nat.mod_two_eq_zero_or_one lap with even | odd
  · rw [Nat.add_mod, even]
    rfl
  · rw [Nat.add_mod, odd]
    rfl

theorem lapMark_add {capacity : Nat} (positive : 0 < capacity) (place : Nat) :
    lapMark capacity (place + capacity) = !lapMark capacity place := by
  unfold lapMark
  rw [Nat.add_div_right place positive]
  exact toggled _

theorem lapMark_succ {capacity : Nat} (place : Nat) :
    lapMark capacity (place + 1) =
      if (place + 1) % capacity = 0 then !lapMark capacity place else lapMark capacity place := by
  unfold lapMark
  rw [Nat.succ_div]
  by_cases wraps : capacity ∣ place + 1
  · rw [if_pos wraps, if_pos (Nat.mod_eq_zero_of_dvd wraps)]
    exact toggled _
  · rw [if_neg wraps, if_neg (mt Nat.dvd_of_mod_eq_zero wraps)]
    rfl

namespace CycleRing

open List

variable {α : Type} {capacity taken : Nat} {mark : α → Bool} {slots : Nat → α} {written : List α}

theorem empty {blank : α} (unmarked : mark blank = false) :
    CycleRing capacity mark (fun _ => blank) [] 0 where
  within := Nat.le_refl 0
  room := Nat.zero_le _
  marked := by
    intro i e found
    cases found
  held := fun _ inside => absurd inside (Nat.not_lt_zero _)
  blank := fun _ _ _ => unmarked

theorem next (ring : CycleRing capacity mark slots written taken) (more : taken < written.length) :
    written[taken]? = some (slots (taken % capacity)) :=
  ring.held taken more ring.room

section Ring

variable (ring : CycleRing capacity mark slots written taken)
include ring

theorem ready_iff (positive : 0 < capacity) :
    mark (slots (taken % capacity)) = lapMark capacity taken ↔ taken < written.length := by
  constructor
  · intro ready
    by_contra none
    have all : taken = written.length := Nat.le_antisymm ring.within (Nat.le_of_not_lt none)
    by_cases first : taken < capacity
    · rw [Nat.mod_eq_of_lt first, lapMark_of_lt first,
        ring.blank taken (Nat.le_of_eq all.symm) first] at ready
      cases ready
    · -- The slot still holds the entry of the lap before.
      obtain ⟨before, rfl⟩ := Nat.exists_eq_add_of_le' (Nat.le_of_not_lt first)
      have old := ring.held before (by omega) (Nat.le_of_eq all.symm)
      rw [Nat.add_mod_right, ring.marked before _ old, lapMark_add positive] at ready
      cases lap : lapMark capacity before with
      | false =>
        rw [lap] at ready
        cases ready
      | true =>
        rw [lap] at ready
        cases ready
  · intro more
    exact ring.marked taken _ (ring.next more)

/-- A written entry is the next to come. -/
theorem write {e : α}
    (free : written.length < taken + capacity) (lap : mark e = lapMark capacity written.length) :
    CycleRing capacity mark (Function.update slots (written.length % capacity) e)
      (written ++ [e]) taken := by
  have within := ring.within
  refine ⟨?_, ?_, ?_, ?_, ?_⟩
  · rw [length_append]
    omega
  · rw [length_append, length_singleton]
    exact free
  · intro i f found
    by_cases last : i = written.length
    · rw [last, getElem?_concat_length] at found
      cases found
      rw [last]
      exact lap
    · have inside := (List.getElem?_eq_some_iff.mp found).1
      rw [length_append, length_singleton] at inside
      rw [getElem?_append_left (by omega)] at found
      exact ring.marked i f found
  · intro i inside recent
    rw [length_append, length_singleton] at inside recent
    by_cases last : i = written.length
    · rw [last, getElem?_concat_length, Function.update_self]
    · rw [getElem?_append_left (by omega), ring.held i (by omega) (by omega), Function.update_of_ne]
      intro same
      have := @RingWindow.place_injective capacity i i written.length (by omega) (by omega)
        (by omega) (by omega) same
      omega
  · intro j behind inside
    rw [length_append, length_singleton] at behind
    rw [Function.update_of_ne]
    · exact ring.blank j (by omega) inside
    · rw [Nat.mod_eq_of_lt (by omega)]
      omega

theorem take (more : taken < written.length) : CycleRing capacity mark slots written (taken + 1) :=
  ⟨more, by have := ring.room; omega, ring.marked, ring.held, ring.blank⟩

end Ring

end CycleRing

theorem List.prefix_concat_of_getElem? {α : Type} {front whole : List α} {e : α}
    (start : front <+: whole) (next : whole[front.length]? = some e) : front ++ [e] <+: whole := by
  obtain ⟨rest, rfl⟩ := start
  rw [getElem?_append_right (Nat.le_refl _), Nat.sub_self] at next
  cases rest with
  | nil => cases next
  | cons first rest =>
    cases next
    exact ⟨rest, by rw [append_assoc]; rfl⟩
