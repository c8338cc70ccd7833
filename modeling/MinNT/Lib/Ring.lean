import Mathlib.Data.Nat.ModEq
import Mathlib.Logic.Function.Basic

/-! Rings: queues in an array that wraps around, with an entry that can be taken
from anywhere by moving the older entries up one slot. -/

/-- The array, its head and tail, and the number of entries. -/
structure RingBuffer (α : Type) where
  slots : Nat → α
  head : Nat
  tail : Nat
  count : Nat

namespace RingBuffer

open List Function

variable {α : Type} {capacity : Nat}

/-- The entry at a distance from the head. -/
def entry (capacity : Nat) (ring : RingBuffer α) (distance : Nat) : α :=
  ring.slots ((ring.head + distance) % capacity)

/-- The queue that a ring represents, oldest entry first. -/
def contents (capacity : Nat) (ring : RingBuffer α) : List α :=
  (range ring.count).map (ring.entry capacity)

/-- Write an entry into the slot at the tail; `none` if the ring is full. -/
def push (capacity : Nat) (write : α → α) (ring : RingBuffer α) : Option (RingBuffer α) :=
  if capacity ≤ ring.count then none
  else
    some { ring with
      slots := update ring.slots ring.tail (write (ring.slots ring.tail))
      tail := (ring.tail + 1) % capacity
      count := ring.count + 1 }

/-- The distance from the head of the first entry that matches. -/
def findDistance (capacity : Nat) (accepts : α → Bool) (ring : RingBuffer α) : Option Nat :=
  (range ring.count).find? fun distance => accepts (ring.entry capacity distance)

/-- Move the entries in front of a distance up one slot. -/
def shift (capacity head : Nat) : Nat → (Nat → α) → Nat → α
  | 0, slots => slots
  | distance + 1, slots =>
      shift capacity head distance
        (update slots ((head + (distance + 1)) % capacity)
          (slots ((head + (distance + 1) - 1) % capacity)))

/-- Close the gap at a distance from the head. -/
def removeAt (capacity distance : Nat) (ring : RingBuffer α) : RingBuffer α :=
  { ring with
    slots := shift capacity ring.head distance ring.slots
    head := (ring.head + 1) % capacity
    count := ring.count - 1 }

/-- The first entry that matches, which is taken out on demand. -/
def find (capacity : Nat) (accepts : α → Bool) (remove : Bool) (ring : RingBuffer α) :
    Option (α × RingBuffer α) :=
  (ring.findDistance capacity accepts).map fun distance =>
    (ring.entry capacity distance, if remove then ring.removeAt capacity distance else ring)

structure Sound (capacity : Nat) (ring : RingBuffer α) : Prop where
  head : ring.head < capacity
  count : ring.count ≤ capacity
  tail : ring.tail = (ring.head + ring.count) % capacity

theorem slot_injective {head left right : Nat} (leftInside : left < capacity)
    (rightInside : right < capacity)
    (same : (head + left) % capacity = (head + right) % capacity) : left = right := by
  have congruent : left ≡ right [MOD capacity] := Nat.ModEq.add_left_cancel' head same
  exact Nat.ModEq.eq_of_lt_of_lt congruent leftInside rightInside

theorem length_contents (ring : RingBuffer α) : (ring.contents capacity).length = ring.count := by
  rw [contents, length_map, length_range]

theorem getElem?_contents (ring : RingBuffer α) (index : Nat) :
    (ring.contents capacity)[index]? =
      if index < ring.count then some (ring.entry capacity index) else none := by
  rw [contents, getElem?_map]
  by_cases inside : index < ring.count
  · rw [getElem?_range inside, if_pos inside, Option.map_some]
  · rw [getElem?_eq_none (by rw [length_range]; omega), if_neg inside, Option.map_none]

theorem shift_apply {head distance : Nat} (inside : distance < capacity) (slots : Nat → α)
    {index : Nat} (bound : index < capacity) :
    shift capacity head distance slots ((head + index) % capacity) =
      if 1 ≤ index ∧ index ≤ distance then slots ((head + (index - 1)) % capacity)
      else slots ((head + index) % capacity) := by
  induction distance generalizing slots with
  | zero => rw [shift, if_neg (by omega)]
  | succ distance ih =>
    have other : ∀ place, place < capacity → place ≠ distance + 1 →
        update slots ((head + (distance + 1)) % capacity)
            (slots ((head + (distance + 1) - 1) % capacity)) ((head + place) % capacity) =
          slots ((head + place) % capacity) := by
      intro place within different
      apply update_of_ne
      intro same
      exact different (slot_injective within inside same)
    rw [shift, ih (by omega)]
    by_cases last : index = distance + 1
    · rw [if_neg (by omega), if_pos (by omega), last, update_self]
      congr 2
    · by_cases moved : 1 ≤ index ∧ index ≤ distance
      · rw [if_pos moved, if_pos (by omega), other _ (by omega) (by omega)]
      · rw [if_neg moved, if_neg (by omega), other _ bound last]

theorem contents_empty (slots : Nat → α) (head tail : Nat) :
    (RingBuffer.mk slots head tail 0).contents capacity = [] := rfl

theorem sound_empty (positive : 0 < capacity) (slots : Nat → α) :
    Sound capacity (RingBuffer.mk slots 0 0 0) :=
  ⟨positive, Nat.zero_le _, (Nat.zero_mod _).symm⟩

variable {ring : RingBuffer α}

theorem push_full (write : α → α) (full : capacity ≤ ring.count) :
    ring.push capacity write = none := if_pos full

theorem push_room (write : α → α) (sound : Sound capacity ring) (room : ring.count < capacity) :
    ∃ after, ring.push capacity write = some after ∧ Sound capacity after ∧
      after.contents capacity = ring.contents capacity ++ [write (ring.slots ring.tail)] := by
  refine ⟨_, if_neg (Nat.not_le_of_gt room), ⟨sound.head, room, ?_⟩, ?_⟩
  · show (ring.tail + 1) % capacity = (ring.head + (ring.count + 1)) % capacity
    rw [sound.tail, Nat.mod_add_mod, Nat.add_assoc]
  · apply ext_getElem?
    intro index
    rw [getElem?_append, getElem?_contents, getElem?_contents, length_contents]
    by_cases old : index < ring.count
    · rw [if_pos (Nat.lt_succ_of_lt old), if_pos old, if_pos old]
      unfold entry
      dsimp only
      rw [update_of_ne]
      intro same
      rw [sound.tail] at same
      have := slot_injective (by omega) room same
      omega
    · rw [if_neg old]
      by_cases new : index = ring.count
      · rw [if_pos (by rw [new]; exact Nat.lt_succ_self _), new, Nat.sub_self]
        unfold entry
        dsimp only
        rw [← sound.tail, update_self]
        rfl
      · rw [if_neg (by dsimp only; omega), getElem?_eq_none]
        rw [length_singleton]
        omega

theorem push_some {write : α → α} {ring after : RingBuffer α} (sound : Sound capacity ring)
    (pushed : ring.push capacity write = some after) :
    ring.count < capacity ∧ Sound capacity after ∧
      after.contents capacity = ring.contents capacity ++ [write (ring.slots ring.tail)] := by
  have room : ring.count < capacity := by
    by_contra full
    rw [push_full write (Nat.le_of_not_lt full)] at pushed
    cases pushed
  obtain ⟨after', pushed', spec⟩ := push_room write sound room
  rw [pushed'] at pushed
  cases pushed
  exact ⟨room, spec⟩

theorem findDistance_eq (accepts : α → Bool) (ring : RingBuffer α) :
    ring.findDistance capacity accepts = (ring.contents capacity).findIdx? accepts := by
  cases found : ring.findDistance capacity accepts with
  | none =>
    rw [eq_comm, findIdx?_eq_none_iff]
    intro message member
    rw [contents, List.mem_map] at member
    obtain ⟨distance, inside, rfl⟩ := member
    rw [findDistance, find?_eq_none] at found
    simpa using found distance inside
  | some distance =>
    rw [findDistance, find?_range_eq_some] at found
    obtain ⟨hit, inside, misses⟩ := found
    rw [mem_range] at inside
    rw [eq_comm, findIdx?_eq_some_iff_getElem]
    refine ⟨by rw [length_contents]; exact inside, ?_, ?_⟩
    · simpa [contents] using hit
    · intro before earlier
      simpa [contents] using misses before earlier

/-- Taking out an entry keeps the others in order. -/
theorem removeAt_spec (sound : Sound capacity ring) {distance : Nat}
    (inside : distance < ring.count) :
    Sound capacity (ring.removeAt capacity distance) ∧
      (ring.removeAt capacity distance).contents capacity =
        (ring.contents capacity).eraseIdx distance := by
  have counted := sound.count
  have next : ∀ index, ((ring.head + 1) % capacity + index) % capacity =
      (ring.head + (index + 1)) % capacity := by
    intro index
    rw [Nat.mod_add_mod, Nat.add_assoc, Nat.add_comm 1]
  constructor
  · refine ⟨Nat.mod_lt _ (by omega), ?_, ?_⟩
    · show ring.count - 1 ≤ capacity
      omega
    · show ring.tail = ((ring.head + 1) % capacity + (ring.count - 1)) % capacity
      rw [next, sound.tail, show ring.count - 1 + 1 = ring.count by omega]
  · apply ext_getElem?
    intro index
    rw [getElem?_contents, getElem?_eraseIdx, getElem?_contents, getElem?_contents]
    show (if index < ring.count - 1 then _ else none) = _
    by_cases bound : index < ring.count - 1
    · rw [if_pos bound]
      have moved : (ring.removeAt capacity distance).entry capacity index =
          shift capacity ring.head distance ring.slots ((ring.head + (index + 1)) % capacity) := by
        unfold entry removeAt
        dsimp only
        rw [next]
      rw [moved, shift_apply (by omega) _ (by omega)]
      by_cases front : index < distance
      · rw [if_pos (by omega), if_pos front, if_pos (by omega), Nat.add_sub_cancel]
        rfl
      · rw [if_neg (by omega), if_neg front, if_pos (by omega)]
        rfl
    · rw [if_neg bound]
      by_cases front : index < distance
      · omega
      · rw [if_neg front, if_neg (by omega)]

theorem find_spec (accepts : α → Bool) (remove : Bool) (sound : Sound capacity ring) :
    (ring.find capacity accepts remove = none ∧ (ring.contents capacity).find? accepts = none) ∨
      ∃ message after, ring.find capacity accepts remove = some (message, after) ∧
        (ring.contents capacity).find? accepts = some message ∧ Sound capacity after ∧
        after.contents capacity =
          if remove then (ring.contents capacity).eraseP accepts else ring.contents capacity := by
  unfold find
  rw [findDistance_eq]
  cases found : (ring.contents capacity).findIdx? accepts with
  | none =>
    left
    rw [findIdx?_eq_none_iff] at found
    refine ⟨rfl, ?_⟩
    rw [find?_eq_none]
    intro message member
    rw [found message member]
    exact Bool.false_ne_true
  | some distance =>
    right
    have first := found
    rw [findIdx?_eq_some_iff_getElem] at first
    obtain ⟨inside, hit, misses⟩ := first
    rw [length_contents] at inside
    refine ⟨_, _, rfl, ?_, ?_⟩
    · rw [find?_eq_some_iff_getElem]
      refine ⟨by simpa [contents] using hit, distance, by rw [length_contents]; exact inside,
        by simp [contents], ?_⟩
      intro before earlier
      simpa using misses before earlier
    · cases remove with
      | false => exact ⟨sound, rfl⟩
      | true =>
        have spec := removeAt_spec sound inside
        refine ⟨spec.1, ?_⟩
        rw [if_pos rfl, if_pos rfl, spec.2, eraseP_eq_eraseIdx, found]

end RingBuffer

/-- The entries of a sequence from a place on stand in the slots of a ring between
a producer and a consumer. The producer writes behind the last entry and only then
shows the entry; one slot stays free, so that equal indices mean an empty ring. -/
structure RingWindow {α : Type} (capacity : Nat) (slots : Nat → α) (low : Nat)
    (entries : List α) : Prop where
  within : low ≤ entries.length
  room : entries.length < low + capacity
  held : ∀ i, low ≤ i → i < entries.length → entries[i]? = some (slots (i % capacity))

namespace RingWindow

open List Function

variable {α : Type} {capacity low : Nat} {slots : Nat → α} {entries : List α}

theorem place_injective {i j : Nat} (first : low ≤ i) (firstInside : i < low + capacity)
    (second : low ≤ j) (secondInside : j < low + capacity)
    (same : i % capacity = j % capacity) : i = j := by
  have distance : i - low = j - low := by
    apply @RingBuffer.slot_injective capacity low _ _ (by omega) (by omega)
    rw [Nat.add_sub_cancel' first, Nat.add_sub_cancel' second]
    exact same
  omega

theorem empty (positive : 0 < capacity) (slots : Nat → α) : RingWindow capacity slots 0 [] :=
  ⟨Nat.le_refl 0, by rw [Nat.zero_add]; exact positive, fun _ _ inside => absurd inside (by simp)⟩

section Window

variable (window : RingWindow capacity slots low entries)
include window

theorem empty_iff : entries.length % capacity = low % capacity ↔ low = entries.length := by
  have within := window.within
  have room := window.room
  constructor
  · intro same
    exact (place_injective within room (Nat.le_refl low) (by omega) same).symm
  · intro same
    rw [← same]

theorem full_iff :
    (entries.length + 1) % capacity = low % capacity ↔ entries.length + 1 = low + capacity := by
  have within := window.within
  have room := window.room
  constructor
  · intro same
    by_contra free
    have := place_injective (Nat.le_succ_of_le within) (by omega) (Nat.le_refl low) (by omega) same
    omega
  · intro full
    rw [full, Nat.add_mod_right]

theorem write (value : α) :
    RingWindow capacity (update slots (entries.length % capacity) value) low entries := by
  have within := window.within
  have room := window.room
  refine ⟨within, room, ?_⟩
  intro i first inside
  rw [update_of_ne]
  · exact window.held i first inside
  · intro same
    have := place_injective first (by omega) within room same
    omega

theorem append (free : entries.length + 1 < low + capacity) :
    RingWindow capacity slots low (entries ++ [slots (entries.length % capacity)]) := by
  have within := window.within
  refine ⟨?_, ?_, ?_⟩
  · rw [length_append]
    omega
  · rw [length_append]
    exact free
  · intro i first inside
    rw [length_append, length_singleton] at inside
    by_cases last : i = entries.length
    · rw [last, getElem?_concat_length]
    · rw [getElem?_append_left (by omega)]
      exact window.held i first (by omega)

theorem release (some : low < entries.length) : RingWindow capacity slots (low + 1) entries := by
  have room := window.room
  exact ⟨some, by omega, fun i first => window.held i (by omega)⟩

end Window

end RingWindow
