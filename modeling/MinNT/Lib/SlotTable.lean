import Mathlib.Data.List.TakeWhile

/-! Tables of slots as directories have them: a mark ends the table, another one
makes a slot free, and a new entry goes into the first slot that either of them
leaves. -/

namespace SlotTable

open List

variable {α : Type} (ended deleted : α → Bool)

def isFree (slot : α) : Bool := ended slot || deleted slot

/-- The entries that a reader of the table sees. -/
def live (slots : List α) : List α :=
  (slots.takeWhile (fun slot => !ended slot)).filter (fun slot => !deleted slot)

/-- The slots in front of the first free one. -/
def occupied (slots : List α) : List α := slots.takeWhile (fun slot => !isFree ended deleted slot)

/-- Put an entry into the first free slot. -/
def put (entry : α) : List α → Option (List α)
  | [] => none
  | slot :: slots =>
      if isFree ended deleted slot then some (entry :: slots)
      else (put entry slots).map (fun slots => slot :: slots)

variable {ended deleted}

/-- None of the slots is free. -/
abbrev Full (ended deleted : α → Bool) (slots : List α) : Prop :=
  ∀ slot ∈ slots, isFree ended deleted slot = false

theorem live_nil : live ended deleted [] = [] := rfl

theorem live_cons (slot : α) (slots : List α) :
    live ended deleted (slot :: slots) =
      if ended slot then []
      else if deleted slot then live ended deleted slots
      else slot :: live ended deleted slots := by
  unfold live
  cases atEnd : ended slot with
  | true => simp [atEnd]
  | false => cases gone : deleted slot <;> simp [atEnd, gone]

theorem live_of_full_append {front : List α} (full : Full ended deleted front) (back : List α) :
    live ended deleted (front ++ back) = front ++ live ended deleted back := by
  induction front with
  | nil => rfl
  | cons slot front ih =>
    have first := full slot mem_cons_self
    have rest := ih (fun other member => full other (mem_cons_of_mem _ member))
    simp only [isFree, Bool.or_eq_false_iff] at first
    rw [cons_append, live_cons, first.1, first.2, rest]
    rfl

theorem live_sublist (slots : List α) : (live ended deleted slots).Sublist slots :=
  filter_sublist.trans (takeWhile_sublist _)

theorem occupied_full (slots : List α) : Full ended deleted (occupied ended deleted slots) := by
  intro slot member
  simpa using mem_takeWhile_imp member

theorem full_or_split (slots : List α) :
    Full ended deleted slots ∨
      ∃ free back, slots = occupied ended deleted slots ++ free :: back ∧
        isFree ended deleted free = true := by
  induction slots with
  | nil => exact .inl (fun _ member => by cases member)
  | cons slot slots ih =>
    cases free : isFree ended deleted slot with
    | true =>
      right
      refine ⟨slot, slots, ?_, free⟩
      simp [occupied, free]
    | false =>
      rcases ih with full | ⟨next, back, split, nextFree⟩
      · left
        intro other member
        rcases mem_cons.mp member with rfl | later
        · exact free
        · exact full other later
      · right
        refine ⟨next, back, ?_, nextFree⟩
        have whole : occupied ended deleted (slot :: slots) =
            slot :: occupied ended deleted slots := by
          simp [occupied, free]
        rw [whole, cons_append, ← split]

theorem occupied_of_split {front : List α} (full : Full ended deleted front) {free : α}
    (isfree : isFree ended deleted free = true) (back : List α) :
    occupied ended deleted (front ++ free :: back) = front := by
  induction front with
  | nil => simp [occupied, isfree]
  | cons slot front ih =>
    have first := full slot mem_cons_self
    have rest := ih (fun other member => full other (mem_cons_of_mem _ member))
    unfold occupied at rest ⊢
    rw [cons_append, takeWhile_cons, first, rest]
    rfl

theorem put_of_full {slots : List α} (full : Full ended deleted slots) (entry : α) :
    put ended deleted entry slots = none := by
  induction slots with
  | nil => rfl
  | cons slot slots ih =>
    have first := full slot mem_cons_self
    have rest := ih (fun other member => full other (mem_cons_of_mem _ member))
    simp only [put, first, rest, Bool.false_eq_true, if_false, Option.map_none]

theorem put_of_split {front : List α} (full : Full ended deleted front) {free : α}
    (isfree : isFree ended deleted free = true) (back : List α) (entry : α) :
    put ended deleted entry (front ++ free :: back) = some (front ++ entry :: back) := by
  induction front with
  | nil => simp [put, isfree]
  | cons slot front ih =>
    have first := full slot mem_cons_self
    have rest := ih (fun other member => full other (mem_cons_of_mem _ member))
    simp only [cons_append, put, first, rest, Bool.false_eq_true, if_false, Option.map_some]

theorem put_append (entry : α) (front back : List α) :
    put ended deleted entry (front ++ back) =
      ((put ended deleted entry front).map (fun front => front ++ back)).or
        ((put ended deleted entry back).map (fun back => front ++ back)) := by
  induction front with
  | nil => simp [put]
  | cons slot front ih =>
    simp only [cons_append, put, ih]
    split
    · rfl
    · cases put ended deleted entry front <;> cases put ended deleted entry back <;> rfl

theorem put_eq_set (entry : α) (slots : List α) :
    put ended deleted entry slots =
      (slots.findIdx? (isFree ended deleted)).map (fun index => slots.set index entry) := by
  induction slots with
  | nil => rfl
  | cons slot slots ih =>
    rw [put, findIdx?_cons, ih]
    cases isFree ended deleted slot with
    | true => rfl
    | false => cases slots.findIdx? (isFree ended deleted) <;> rfl

end SlotTable
