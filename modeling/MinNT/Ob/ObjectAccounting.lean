import Mathlib.Data.List.Nodup
import MinNT.Ob.ObjectManager

namespace MinNT.Ob

open List Function ObjectManager HandleTable Transition
open Cm (WChar)

variable {manager after : ObjectManager} {held : List Address} {body : Address}

theorem length_words_le {width : Nat} {words : List (BitVec width)} (distinct : words.Nodup) :
    words.length ≤ 2 ^ width := by
  have numbers : (words.map BitVec.toNat).Nodup :=
    distinct.map (fun _ _ same => BitVec.eq_of_toNat_eq same)
  have inside : words.map BitVec.toNat ⊆ range (2 ^ width) := by
    intro number member
    obtain ⟨word, _, rfl⟩ := List.mem_map.mp member
    exact mem_range.mpr word.isLt
  have bound := (subperm_of_subset numbers inside).length_le
  rwa [length_map, length_range] at bound

theorem addLong64_of_lt {left right : Int} (low : -2 ^ 63 ≤ left + right)
    (high : left + right < 2 ^ 63) : addLong64 left right = left + right := by
  unfold addLong64
  apply Int.bmod_eq_of_le <;> omega

theorem increment64_of_lt {value : Nat} (room : value + 1 < 2 ^ 64) :
    increment64 value = value + 1 :=
  Nat.mod_eq_of_lt room

theorem decrement64_succ (value : Nat) : decrement64 (value + 1) = value := rfl

namespace ObjectManager

/-- The object is one of a type. -/
def typed (manager : ObjectManager) (type : Nat) (body : Address) : Bool :=
  (manager.headers body).type = some type

theorem typed_iff {manager : ObjectManager} {type : Nat} {body : Address} :
    manager.typed type body = true ↔ (manager.headers body).type = some type :=
  decide_eq_true_iff

def ticket (manager : ObjectManager) (body : Address) : Nat := (manager.headers body).ticket

def named (manager : ObjectManager) (body : Address) : Bool := (manager.headers body).name ≠ []

@[simp] theorem updateType_headers (manager : ObjectManager) (type : Option Nat)
    (change : ObjectType → ObjectType) : (manager.updateType type change).headers =
      manager.headers := by
  cases type <;> rfl

@[simp] theorem updateType_handleTable (manager : ObjectManager) (type : Option Nat)
    (change : ObjectType → ObjectType) : (manager.updateType type change).handleTable =
      manager.handleTable := by
  cases type <;> rfl

@[simp] theorem updateType_namedObjects (manager : ObjectManager) (type : Option Nat)
    (change : ObjectType → ObjectType) : (manager.updateType type change).namedObjects =
      manager.namedObjects := by
  cases type <;> rfl

@[simp] theorem updateType_live (manager : ObjectManager) (type : Option Nat)
    (change : ObjectType → ObjectType) : (manager.updateType type change).live = manager.live := by
  cases type <;> rfl

@[simp] theorem updateType_created (manager : ObjectManager) (type : Option Nat)
    (change : ObjectType → ObjectType) : (manager.updateType type change).created =
      manager.created := by
  cases type <;> rfl

@[simp] theorem updateType_deletions (manager : ObjectManager) (type : Option Nat)
    (change : ObjectType → ObjectType) : (manager.updateType type change).deletions =
      manager.deletions := by
  cases type <;> rfl

theorem updateType_types (manager : ObjectManager) (changed : Option Nat)
    (change : ObjectType → ObjectType) (type : Nat) :
    (manager.updateType changed change).types type =
      if changed = some type then change (manager.types type) else manager.types type := by
  cases changed with
  | none => rfl
  | some changed =>
    by_cases same : changed = type
    · subst same
      simp [updateType]
    · have other : some changed ≠ some type := fun equal => same (Option.some.inj equal)
      simp [updateType, Function.update_of_ne (Ne.symm same), other]

end ObjectManager

/-- The accounts of the object manager while the bodies in `held` are referenced
from outside the handle table, each as often as it occurs there. -/
structure Accounts (manager : ObjectManager) (held : List Address) : Prop where
  distinct : manager.live.Nodup
  present : 0 ∉ manager.live
  heldLive : ∀ body ∈ held, body ∈ manager.live
  slotsLive : ∀ body ∈ manager.handles, body ∈ manager.live
  bounded : ∀ body, manager.handles.count body + held.count body < 2 ^ 63
  pointerCount : ∀ body ∈ manager.live, (manager.headers body).pointerCount =
    manager.handles.count body + held.count body
  handleCount : ∀ body ∈ manager.live,
    (manager.headers body).handleCount = manager.handles.count body
  alive : ∀ body ∈ manager.live, 0 < manager.handles.count body + held.count body
  named : manager.namedObjects = manager.live.filter manager.named
  totalObjects : ∀ type,
    (manager.types type).totalNumberOfObjects = manager.live.countP (manager.typed type)
  totalHandles : ∀ type,
    (manager.types type).totalNumberOfHandles = manager.handles.countP (manager.typed type)
  deletedAtZero : ∀ deletion ∈ manager.deletions, deletion.pointerCount = 0
  deletedOnce : (manager.live.map manager.ticket ++
    manager.deletions.map Deletion.ticket).Perm (range manager.created)

/-- The same objects, of which the counts only may have changed. -/
structure SameObjects (manager after : ObjectManager) : Prop where
  live : after.live = manager.live
  namedObjects : after.namedObjects = manager.namedObjects
  created : after.created = manager.created
  deletions : after.deletions = manager.deletions
  type : ∀ body, (after.headers body).type = (manager.headers body).type
  name : ∀ body, (after.headers body).name = (manager.headers body).name
  ticket : ∀ body, (after.headers body).ticket = (manager.headers body).ticket
  totalObjects : ∀ type, (after.types type).totalNumberOfObjects =
    (manager.types type).totalNumberOfObjects

section Same

variable (same : SameObjects manager after)
include same

theorem SameObjects.typed : after.typed = manager.typed := by
  funext type body
  simp [ObjectManager.typed, same.type]

theorem SameObjects.named : after.named = manager.named := by
  funext body
  simp [ObjectManager.named, same.name]

theorem SameObjects.ticketed : after.ticket = manager.ticket :=
  funext same.ticket

end Same

/-- The counts of one object change, and those of no other. -/
theorem Accounts.adjust (accounts : Accounts manager held) (same : SameObjects manager after)
    {kept : List Address} (live : body ∈ manager.live)
    (header : ∀ other, other ≠ body → after.headers other = manager.headers other)
    (handles : ∀ other, other ≠ body → after.handles.count other = manager.handles.count other)
    (references : ∀ other, other ≠ body → kept.count other = held.count other)
    (bounded : after.handles.count body + kept.count body < 2 ^ 63)
    (pointerCount : (after.headers body).pointerCount = after.handles.count body + kept.count body)
    (handleCount : (after.headers body).handleCount = after.handles.count body)
    (alive : 0 < after.handles.count body + kept.count body)
    (totalHandles : ∀ type, (after.types type).totalNumberOfHandles =
      after.handles.countP (manager.typed type)) : Accounts after kept := by
  constructor
  · rw [same.live]
    exact accounts.distinct
  · rw [same.live]
    exact accounts.present
  · intro other member
    rw [same.live]
    by_cases equal : other = body
    · rwa [equal]
    · have positive := count_pos_iff.mpr member
      rw [references other equal] at positive
      exact accounts.heldLive other (count_pos_iff.mp positive)
  · intro other member
    rw [same.live]
    by_cases equal : other = body
    · rwa [equal]
    · have positive := count_pos_iff.mpr member
      rw [handles other equal] at positive
      exact accounts.slotsLive other (count_pos_iff.mp positive)
  · intro other
    by_cases equal : other = body
    · rwa [equal]
    · rw [handles other equal, references other equal]
      exact accounts.bounded other
  · intro other member
    rw [same.live] at member
    by_cases equal : other = body
    · rwa [equal]
    · rw [header other equal, handles other equal, references other equal]
      exact accounts.pointerCount other member
  · intro other member
    rw [same.live] at member
    by_cases equal : other = body
    · rwa [equal]
    · rw [header other equal, handles other equal]
      exact accounts.handleCount other member
  · intro other member
    rw [same.live] at member
    by_cases equal : other = body
    · rwa [equal]
    · rw [handles other equal, references other equal]
      exact accounts.alive other member
  · rw [same.live, same.namedObjects, same.named]
    exact accounts.named
  · rw [same.live, same.typed]
    exact fun type => (same.totalObjects type).trans (accounts.totalObjects type)
  · rw [same.typed]
    exact totalHandles
  · rw [same.deletions]
    exact accounts.deletedAtZero
  · rw [same.live, same.deletions, same.created, same.ticketed]
    exact accounts.deletedOnce

theorem Accounts.perm (accounts : Accounts manager held) {kept : List Address}
    (same : held.Perm kept) : Accounts manager kept where
  distinct := accounts.distinct
  present := accounts.present
  heldLive body member := accounts.heldLive body (same.mem_iff.mpr member)
  slotsLive := accounts.slotsLive
  bounded body := by
    rw [← same.count_eq body]
    exact accounts.bounded body
  pointerCount body member := by
    rw [← same.count_eq body]
    exact accounts.pointerCount body member
  handleCount := accounts.handleCount
  alive body member := by
    rw [← same.count_eq body]
    exact accounts.alive body member
  named := accounts.named
  totalObjects := accounts.totalObjects
  totalHandles := accounts.totalHandles
  deletedAtZero := accounts.deletedAtZero
  deletedOnce := accounts.deletedOnce

theorem Accounts.init (memory : Address → ObjectHeader) (deleteProcedures : Nat → Bool) :
    Accounts (obInitSystem memory deleteProcedures) [] := by
  have noHandles : (obInitSystem memory deleteProcedures).handles = [] :=
    filterMap_eq_nil_iff.mpr (fun _ _ => rfl)
  constructor
  · exact nodup_nil
  · exact not_mem_nil
  · exact fun _ member => absurd member not_mem_nil
  · intro body member
    rw [noHandles] at member
    cases member
  · intro body
    rw [noHandles]
    simp
  · exact fun _ member => absurd member not_mem_nil
  · exact fun _ member => absurd member not_mem_nil
  · exact fun _ member => absurd member not_mem_nil
  · rfl
  · exact fun _ => rfl
  · intro type
    rw [noHandles]
    rfl
  · exact fun _ member => absurd member not_mem_nil
  · exact List.Perm.nil

theorem updateHeader_headers (manager : ObjectManager) (body other : Address)
    (change : ObjectHeader → ObjectHeader) : (manager.updateHeader body change).headers other =
      if other = body then change (manager.headers other) else manager.headers other := by
  by_cases same : other = body
  · subst same
    simp [updateHeader]
  · simp [updateHeader, same]

theorem sameObjects_updateHeader (manager : ObjectManager) (body : Address)
    (change : ObjectHeader → ObjectHeader) (type : ∀ header, (change header).type = header.type)
    (name : ∀ header, (change header).name = header.name)
    (ticket : ∀ header, (change header).ticket = header.ticket) :
    SameObjects manager (manager.updateHeader body change) := by
  refine ⟨rfl, rfl, rfl, rfl, ?_, ?_, ?_, fun _ => rfl⟩ <;>
    · intro other
      rw [updateHeader_headers]
      split
      · simp only [type, name, ticket]
      · rfl

theorem sameObjects_reference (manager : ObjectManager) (body : Address) :
    SameObjects manager (obReferenceObject manager body) :=
  sameObjects_updateHeader manager body _ (fun _ => rfl) (fun _ => rfl) (fun _ => rfl)

theorem reference_pointerCount (accounts : Accounts manager held) (live : body ∈ manager.live)
    (room : manager.handles.count body + held.count body + 1 < 2 ^ 63) :
    ((obReferenceObject manager body).headers body).pointerCount =
      manager.handles.count body + held.count body + 1 := by
  have before := accounts.pointerCount body live
  rw [obReferenceObject, updateHeader_headers, if_pos rfl]
  show addLong64 (manager.headers body).pointerCount 1 = _
  rw [before]
  exact addLong64_of_lt (by omega) (by omega)

theorem Accounts.reference (accounts : Accounts manager held) (live : body ∈ manager.live)
    (room : manager.handles.count body + held.count body + 1 < 2 ^ 63) :
    Accounts (obReferenceObject manager body) (body :: held) := by
  have count : List.count body (body :: held) = held.count body + 1 := count_cons_self
  have sameHandles : (obReferenceObject manager body).handles = manager.handles := rfl
  apply accounts.adjust (sameObjects_reference manager body) live
  · intro other different
    rw [obReferenceObject, updateHeader_headers, if_neg different]
  · exact fun _ _ => rfl
  · exact fun other different => count_cons_of_ne (Ne.symm different)
  · rw [sameHandles, count]
    omega
  · rw [reference_pointerCount accounts live room, sameHandles, count]
    omega
  · rw [obReferenceObject, updateHeader_headers, if_pos rfl]
    exact accounts.handleCount body live
  · omega
  · exact accounts.totalHandles

/-- A `PointerCount` is put in. -/
def ObjectManager.setPointerCount (manager : ObjectManager) (body : Address) (count : Int) :
    ObjectManager :=
  manager.updateHeader body fun header => { header with pointerCount := count }

theorem sameObjects_setPointerCount (manager : ObjectManager) (body : Address) (count : Int) :
    SameObjects manager (manager.setPointerCount body count) :=
  sameObjects_updateHeader manager body _ (fun _ => rfl) (fun _ => rfl) (fun _ => rfl)

theorem setPointerCount_other {other : Address} (different : other ≠ body) (count : Int) :
    (manager.setPointerCount body count).headers other = manager.headers other := by
  rw [ObjectManager.setPointerCount, updateHeader_headers, if_neg different]

theorem setPointerCount_self (manager : ObjectManager) (body : Address) (count : Int) :
    (manager.setPointerCount body count).headers body =
      { manager.headers body with pointerCount := count } := by
  rw [ObjectManager.setPointerCount, updateHeader_headers, if_pos rfl]

theorem dereference_count (accounts : Accounts manager (body :: held)) :
    addLong64 (manager.headers body).pointerCount (-1) =
      manager.handles.count body + held.count body := by
  have live := accounts.heldLive body mem_cons_self
  have bounded := accounts.bounded body
  have before := accounts.pointerCount body live
  rw [count_cons_self] at before bounded
  rw [before, addLong64_of_lt] <;>
    · push_cast
      omega

theorem Accounts.drop (accounts : Accounts manager (body :: held))
    (left : 0 < manager.handles.count body + held.count body) :
    Accounts (manager.setPointerCount body (manager.handles.count body + held.count body))
      held := by
  have live := accounts.heldLive body mem_cons_self
  have bounded := accounts.bounded body
  rw [count_cons_self] at bounded
  apply accounts.adjust (sameObjects_setPointerCount manager body _) live
  · exact fun _ different => setPointerCount_other different _
  · exact fun _ _ => rfl
  · exact fun other different => (count_cons_of_ne (Ne.symm different)).symm
  · show manager.handles.count body + held.count body < _
    omega
  · rw [setPointerCount_self]
    rfl
  · rw [setPointerCount_self]
    exact accounts.handleCount body live
  · exact left
  · exact accounts.totalHandles

theorem deleteObject_headers (manager : ObjectManager) (body : Address) :
    (deleteObject manager body).headers = manager.headers :=
  updateType_headers ..

theorem deleteObject_handles (manager : ObjectManager) (body : Address) :
    (deleteObject manager body).handles = manager.handles := by
  simp [deleteObject, handles]

theorem deleteObject_live (manager : ObjectManager) (body : Address) :
    (deleteObject manager body).live = manager.live.erase body :=
  updateType_live ..

theorem deleteObject_created (manager : ObjectManager) (body : Address) :
    (deleteObject manager body).created = manager.created :=
  updateType_created ..

theorem deleteObject_types (manager : ObjectManager) (body : Address) (type : Nat) :
    (deleteObject manager body).types type =
      if (manager.headers body).type = some type then
        { manager.types type with
          totalNumberOfObjects := decrement64 (manager.types type).totalNumberOfObjects }
      else manager.types type :=
  updateType_types ..

theorem deleteObject_deletions (manager : ObjectManager) (body : Address) :
    (deleteObject manager body).deletions = manager.deletions ++
      [⟨(manager.headers body).ticket, (manager.headers body).pointerCount,
        (manager.headers body).type.any fun type => (manager.types type).deleteProcedure⟩] :=
  updateType_deletions ..

theorem deleteObject_namedObjects (manager : ObjectManager) (body : Address) :
    (deleteObject manager body).namedObjects =
      if (manager.headers body).name ≠ [] then manager.namedObjects.erase body
      else manager.namedObjects :=
  updateType_namedObjects ..

theorem delete_named (named : manager.namedObjects = manager.live.filter manager.named) :
    (deleteObject manager body).namedObjects =
      (manager.live.erase body).filter manager.named := by
  rw [deleteObject_namedObjects, ← erase_filter, ← named]
  split
  · rfl
  · rename_i nameless
    refine (erase_of_not_mem fun member => nameless ?_).symm
    rw [named] at member
    exact of_decide_eq_true (mem_filter.mp member).2

theorem delete_totalObjects (live : body ∈ manager.live) {type : Nat}
    (total : (manager.types type).totalNumberOfObjects = manager.live.countP (manager.typed type)) :
    ((deleteObject manager body).types type).totalNumberOfObjects =
      (manager.live.erase body).countP (manager.typed type) := by
  rw [(perm_cons_erase live).countP_eq, countP_cons] at total
  rw [deleteObject_types]
  by_cases isOne : (manager.headers body).type = some type
  · rw [if_pos (typed_iff.mpr isOne)] at total
    rw [if_pos isOne]
    show decrement64 (manager.types type).totalNumberOfObjects = _
    rw [total, decrement64_succ]
  · rw [if_neg (fun typed => isOne (typed_iff.mp typed))] at total
    rw [if_neg isOne]
    exact total

theorem delete_deletedOnce (live : body ∈ manager.live)
    (once : (manager.live.map manager.ticket ++
      manager.deletions.map Deletion.ticket).Perm (range manager.created)) :
    ((manager.live.erase body).map manager.ticket ++
      (deleteObject manager body).deletions.map Deletion.ticket).Perm (range manager.created) := by
  have whole := ((perm_cons_erase live).map manager.ticket).append_right
    (manager.deletions.map Deletion.ticket)
  rw [deleteObject_deletions, map_append, ← append_assoc]
  exact (perm_append_singleton _ _).trans (whole.symm.trans once)

/-- Without handles and references an object may go. -/
theorem Accounts.delete (accounts : Accounts manager (body :: held))
    (noHandle : manager.handles.count body = 0) (noReference : held.count body = 0) :
    Accounts (deleteObject (manager.setPointerCount body 0) body) held := by
  have live := accounts.heldLive body mem_cons_self
  have same := sameObjects_setPointerCount manager body 0
  have handles : (deleteObject (manager.setPointerCount body 0) body).handles =
      manager.handles := deleteObject_handles ..
  have survivors : (deleteObject (manager.setPointerCount body 0) body).live =
      manager.live.erase body := deleteObject_live ..
  have others : ∀ {other}, other ∈ manager.live.erase body ↔ other ≠ body ∧ other ∈ manager.live :=
    accounts.distinct.mem_erase_iff
  have kept : ∀ other, other ≠ body → List.count other (body :: held) = held.count other :=
    fun other different => count_cons_of_ne (Ne.symm different)
  have typed : (deleteObject (manager.setPointerCount body 0) body).typed = manager.typed := by
    rw [← same.typed]
    unfold ObjectManager.typed
    rw [deleteObject_headers]
  have named : (deleteObject (manager.setPointerCount body 0) body).named = manager.named := by
    rw [← same.named]
    unfold ObjectManager.named
    rw [deleteObject_headers]
  have ticket : (deleteObject (manager.setPointerCount body 0) body).ticket = manager.ticket := by
    rw [← same.ticketed]
    unfold ObjectManager.ticket
    rw [deleteObject_headers]
  constructor
  · rw [survivors]
    exact accounts.distinct.erase body
  · rw [survivors]
    exact fun member => accounts.present (mem_of_mem_erase member)
  · intro other member
    rw [survivors, others]
    exact ⟨ne_of_mem_of_not_mem member (count_eq_zero.mp noReference),
      accounts.heldLive other (mem_cons_of_mem _ member)⟩
  · intro other member
    rw [handles] at member
    rw [survivors, others]
    exact ⟨ne_of_mem_of_not_mem member (count_eq_zero.mp noHandle), accounts.slotsLive other member⟩
  · intro other
    have before := accounts.bounded other
    have fewer := List.Sublist.count_le other (sublist_cons_self body held)
    rw [handles]
    omega
  · intro other member
    rw [survivors, others] at member
    rw [deleteObject_headers, handles, setPointerCount_other member.1, ← kept other member.1]
    exact accounts.pointerCount other member.2
  · intro other member
    rw [survivors, others] at member
    rw [deleteObject_headers, handles, setPointerCount_other member.1]
    exact accounts.handleCount other member.2
  · intro other member
    rw [survivors, others] at member
    rw [handles, ← kept other member.1]
    exact accounts.alive other member.2
  · rw [survivors, named, ← same.named]
    apply delete_named
    rw [same.named]
    exact accounts.named
  · intro type
    rw [survivors, typed, ← same.typed]
    apply delete_totalObjects (show body ∈ (manager.setPointerCount body 0).live from live)
    rw [same.typed]
    exact accounts.totalObjects type
  · intro type
    rw [handles, typed, deleteObject_types]
    split
    · exact accounts.totalHandles type
    · exact accounts.totalHandles type
  · intro deletion member
    rw [deleteObject_deletions] at member
    rcases mem_append.mp member with earlier | last
    · exact accounts.deletedAtZero deletion earlier
    · rw [mem_singleton] at last
      subst last
      rw [setPointerCount_self]
  · rw [survivors, ticket, ← same.ticketed, deleteObject_created]
    apply delete_deletedOnce (show body ∈ (manager.setPointerCount body 0).live from live)
    rw [same.ticketed]
    exact accounts.deletedOnce

theorem Accounts.dereference (accounts : Accounts manager (body :: held)) :
    ∃ after, obDereferenceObject manager body = .ok after ∧ Accounts after held := by
  have count := dereference_count accounts
  unfold obDereferenceObject
  rw [count]
  dsimp only
  rw [if_neg (by omega)]
  rcases Nat.eq_zero_or_pos (manager.handles.count body + held.count body) with none | left
  · have noHandle : manager.handles.count body = 0 := by omega
    have noReference : held.count body = 0 := by omega
    rw [noHandle, noReference]
    exact ⟨_, if_pos rfl, accounts.delete noHandle noReference⟩
  · exact ⟨_, if_neg (by omega), accounts.drop left⟩

section Creation

variable (type : Option Nat) (name : List WChar)

theorem create_live : (obCreateObject manager type name (some body)).2.2.live =
    manager.live ++ [body] :=
  updateType_live ..

theorem create_handles : (obCreateObject manager type name (some body)).2.2.handles =
    manager.handles := by
  simp [obCreateObject, handles]

theorem create_headers_self : (obCreateObject manager type name (some body)).2.2.headers body =
    ⟨1, 0, type, name, manager.created⟩ := by
  simp [obCreateObject]

theorem create_headers_other {other : Address} (different : other ≠ body) :
    (obCreateObject manager type name (some body)).2.2.headers other = manager.headers other := by
  simp [obCreateObject, different]

theorem create_types (counted : Nat) :
    (obCreateObject manager type name (some body)).2.2.types counted =
      if type = some counted then
        { manager.types counted with
          totalNumberOfObjects := increment64 (manager.types counted).totalNumberOfObjects }
      else manager.types counted :=
  updateType_types ..

theorem create_namedObjects : (obCreateObject manager type name (some body)).2.2.namedObjects =
    if name ≠ [] then manager.namedObjects ++ [body] else manager.namedObjects :=
  updateType_namedObjects ..

theorem create_deletions : (obCreateObject manager type name (some body)).2.2.deletions =
    manager.deletions :=
  updateType_deletions ..

theorem create_created : (obCreateObject manager type name (some body)).2.2.created =
    manager.created + 1 :=
  updateType_created ..

section Accounts

variable (accounts : Accounts manager held)
include accounts

theorem create_named (fresh : body ∉ manager.live) :
    (obCreateObject manager type name (some body)).2.2.namedObjects =
      (manager.live ++ [body]).filter (obCreateObject manager type name (some body)).2.2.named := by
  have front : manager.live.filter (obCreateObject manager type name (some body)).2.2.named =
      manager.namedObjects := by
    rw [accounts.named]
    apply filter_congr
    intro other member
    rw [ObjectManager.named, create_headers_other type name (ne_of_mem_of_not_mem member fresh)]
    rfl
  have last : (obCreateObject manager type name (some body)).2.2.named body =
      decide (name ≠ []) := by
    rw [ObjectManager.named, create_headers_self]
  rw [create_namedObjects, filter_append, front, filter_singleton, last]
  by_cases nameless : name = []
  · simp [nameless]
  · simp [nameless]

theorem create_totalObjects (distinct : (0 :: (manager.live ++ [body])).Nodup) (counted : Nat) :
    ((obCreateObject manager type name (some body)).2.2.types counted).totalNumberOfObjects =
      (manager.live ++ [body]).countP
        ((obCreateObject manager type name (some body)).2.2.typed counted) := by
  have fresh : body ∉ manager.live := fun member =>
    nodup_append.mp distinct.of_cons |>.2.2 body member body mem_cons_self rfl
  have front : manager.live.countP
      ((obCreateObject manager type name (some body)).2.2.typed counted) =
      manager.live.countP (manager.typed counted) := by
    apply List.countP_congr
    intro other member
    rw [ObjectManager.typed, create_headers_other type name (ne_of_mem_of_not_mem member fresh)]
    rfl
  have last : (obCreateObject manager type name (some body)).2.2.typed counted body =
      decide (type = some counted) := by
    rw [ObjectManager.typed, create_headers_self]
  have before := accounts.totalObjects counted
  rw [countP_append, front, countP_singleton, last, create_types]
  by_cases isOne : type = some counted
  · have few := length_words_le distinct
    have bound := countP_le_length (p := manager.typed counted) (l := manager.live)
    simp only [length_cons, length_append, length_nil] at few
    rw [if_pos isOne, if_pos (decide_eq_true isOne)]
    show increment64 (manager.types counted).totalNumberOfObjects = _
    rw [before]
    exact increment64_of_lt (by omega)
  · rw [if_neg isOne, if_neg (by simpa using isOne)]
    exact before

theorem create_totalHandles (fresh : body ∉ manager.live) (counted : Nat) :
    ((obCreateObject manager type name (some body)).2.2.types counted).totalNumberOfHandles =
      manager.handles.countP
        ((obCreateObject manager type name (some body)).2.2.typed counted) := by
  have same : manager.handles.countP
      ((obCreateObject manager type name (some body)).2.2.typed counted) =
      manager.handles.countP (manager.typed counted) := by
    apply List.countP_congr
    intro other member
    have live := accounts.slotsLive other member
    rw [ObjectManager.typed, create_headers_other type name (ne_of_mem_of_not_mem live fresh)]
    rfl
  rw [same, ← accounts.totalHandles counted, create_types]
  split
  · rfl
  · rfl

theorem create_deletedOnce (fresh : body ∉ manager.live) :
    ((manager.live ++ [body]).map (obCreateObject manager type name (some body)).2.2.ticket ++
      manager.deletions.map Deletion.ticket).Perm (range (manager.created + 1)) := by
  have front : manager.live.map (obCreateObject manager type name (some body)).2.2.ticket =
      manager.live.map manager.ticket := by
    apply map_congr_left
    intro other member
    rw [ObjectManager.ticket, create_headers_other type name (ne_of_mem_of_not_mem member fresh)]
    rfl
  have last : (obCreateObject manager type name (some body)).2.2.ticket body =
      manager.created := by
    rw [ObjectManager.ticket, create_headers_self]
  rw [map_append, front, map_singleton, last, range_succ]
  apply List.Perm.trans _ (accounts.deletedOnce.append_right [manager.created])
  rw [append_assoc, append_assoc]
  exact perm_append_comm.append_left _

/-- The creator holds the one reference of a new object. -/
theorem Accounts.create (present : body ≠ 0) (fresh : body ∉ manager.live) :
    Accounts (obCreateObject manager type name (some body)).2.2 (body :: held) := by
  have noHandle : manager.handles.count body = 0 :=
    count_eq_zero.mpr (fun member => fresh (accounts.slotsLive body member))
  have noReference : held.count body = 0 :=
    count_eq_zero.mpr (fun member => fresh (accounts.heldLive body member))
  have counts : ∀ other, other ≠ body → List.count other (body :: held) = held.count other :=
    fun other different => count_cons_of_ne (Ne.symm different)
  have distinct : (manager.live ++ [body]).Nodup :=
    nodup_append_comm.mpr (nodup_cons.mpr ⟨fresh, accounts.distinct⟩)
  have zero : 0 ∉ manager.live ++ [body] := by
    intro member
    rcases mem_append.mp member with earlier | last
    · exact accounts.present earlier
    · exact present (mem_singleton.mp last).symm
  have cases : ∀ other ∈ manager.live ++ [body],
      other = body ∨ other ≠ body ∧ other ∈ manager.live := by
    intro other member
    rcases mem_append.mp member with earlier | last
    · exact .inr ⟨ne_of_mem_of_not_mem earlier fresh, earlier⟩
    · exact .inl (mem_singleton.mp last)
  constructor
  · rw [create_live]
    exact distinct
  · rw [create_live]
    exact zero
  · intro other member
    rw [create_live]
    rcases mem_cons.mp member with rfl | earlier
    · exact mem_append_right _ mem_cons_self
    · exact mem_append_left _ (accounts.heldLive other earlier)
  · intro other member
    rw [create_handles] at member
    rw [create_live]
    exact mem_append_left _ (accounts.slotsLive other member)
  · intro other
    rw [create_handles]
    by_cases equal : other = body
    · subst equal
      rw [noHandle, count_cons_self, noReference]
      decide
    · rw [counts other equal]
      exact accounts.bounded other
  · intro other member
    rw [create_live] at member
    rw [create_handles]
    rcases cases other member with rfl | ⟨different, earlier⟩
    · rw [create_headers_self, noHandle, count_cons_self, noReference]
      rfl
    · rw [create_headers_other type name different, counts other different]
      exact accounts.pointerCount other earlier
  · intro other member
    rw [create_live] at member
    rw [create_handles]
    rcases cases other member with rfl | ⟨different, earlier⟩
    · rw [create_headers_self, noHandle]
      rfl
    · rw [create_headers_other type name different]
      exact accounts.handleCount other earlier
  · intro other member
    rw [create_live] at member
    rw [create_handles]
    rcases cases other member with rfl | ⟨different, earlier⟩
    · rw [count_cons_self]
      omega
    · rw [counts other different]
      exact accounts.alive other earlier
  · rw [create_live]
    exact create_named type name accounts fresh
  · rw [create_live]
    exact create_totalObjects type name accounts (nodup_cons.mpr ⟨zero, distinct⟩)
  · rw [create_handles]
    exact create_totalHandles type name accounts fresh
  · rw [create_deletions]
    exact accounts.deletedAtZero
  · rw [create_live, create_deletions, create_created]
    exact create_deletedOnce type name accounts fresh

end Accounts

end Creation

theorem insertHandle_full (full : firstFree obpHandleTableSize manager.handleTable = none) :
    obInsertHandle manager body = (statusInsufficientResources, none, manager) := by
  unfold obInsertHandle
  simp only [full]

/-- The manager behind a successful insertion. -/
def ObjectManager.withHandle (manager : ObjectManager) (index : Nat) (body : Address) :
    ObjectManager :=
  let inserted := { manager with
    handleTable := update manager.handleTable index (some body) }
  let counted := (obReferenceObject inserted body).updateHeader body fun header =>
    { header with handleCount := addLong64 header.handleCount 1 }
  counted.updateType (counted.headers body).type fun total =>
    { total with totalNumberOfHandles := increment64 total.totalNumberOfHandles }

variable {index : Nat}

theorem insertHandle_free (free : firstFree obpHandleTableSize manager.handleTable = some index) :
    obInsertHandle manager body =
      (statusSuccess, some (indexToHandle index), manager.withHandle index body) := by
  unfold obInsertHandle withHandle
  simp only [free]

theorem withHandle_headers_self (index : Nat) :
    (manager.withHandle index body).headers body =
      { manager.headers body with
        pointerCount := addLong64 (manager.headers body).pointerCount 1
        handleCount := addLong64 (manager.headers body).handleCount 1 } := by
  rw [withHandle, updateType_headers, updateHeader_headers,
    if_pos rfl, obReferenceObject, updateHeader_headers, if_pos rfl]

theorem withHandle_headers_other {other : Address} (different : other ≠ body) (index : Nat) :
    (manager.withHandle index body).headers other = manager.headers other := by
  rw [withHandle, updateType_headers, updateHeader_headers,
    if_neg different, obReferenceObject, updateHeader_headers, if_neg different]

theorem withHandle_types (index type : Nat) :
    (manager.withHandle index body).types type =
      if (manager.headers body).type = some type then
        { manager.types type with
          totalNumberOfHandles := increment64 (manager.types type).totalNumberOfHandles }
      else manager.types type := by
  have same : ((manager.withHandle index body).headers body).type =
      (manager.headers body).type := by
    rw [withHandle_headers_self]
  rw [← same, withHandle, updateType_types, updateType_headers]
  rfl

theorem sameObjects_withHandle (manager : ObjectManager) (index : Nat) (body : Address) :
    SameObjects manager (manager.withHandle index body) := by
  have header : ∀ other, ∃ pointerCount handleCount,
      (manager.withHandle index body).headers other = { manager.headers other with
        pointerCount := pointerCount
        handleCount := handleCount } := by
    intro other
    by_cases equal : other = body
    · subst equal
      exact ⟨_, _, withHandle_headers_self index⟩
    · exact ⟨_, _, withHandle_headers_other equal index⟩
  constructor
  · exact updateType_live ..
  · exact updateType_namedObjects ..
  · exact updateType_created ..
  · exact updateType_deletions ..
  · intro other
    obtain ⟨_, _, changed⟩ := header other
    rw [changed]
  · intro other
    obtain ⟨_, _, changed⟩ := header other
    rw [changed]
  · intro other
    obtain ⟨_, _, changed⟩ := header other
    rw [changed]
  · intro type
    rw [withHandle_types]
    split
    · rfl
    · rfl

theorem withHandle_handles (free : firstFree obpHandleTableSize manager.handleTable = some index) :
    (manager.withHandle index body).handles.Perm (body :: manager.handles) := by
  have table : (manager.withHandle index body).handleTable =
      update manager.handleTable index (some body) :=
    updateType_handleTable ..
  obtain ⟨inside, empty⟩ := firstFree_free free
  rw [handles, table]
  exact occupants_put inside empty body

theorem length_handles_le (manager : ObjectManager) : manager.handles.length ≤ 512 :=
  length_occupants_le ..

/-- A new handle is one more on both counts. -/
theorem Accounts.insert (accounts : Accounts manager held) (live : body ∈ manager.live)
    (room : manager.handles.count body + held.count body + 1 < 2 ^ 63)
    (free : firstFree obpHandleTableSize manager.handleTable = some index) :
    Accounts (manager.withHandle index body) held := by
  have handles : (manager.withHandle index body).handles.Perm (body :: manager.handles) :=
    withHandle_handles free
  have count : (manager.withHandle index body).handles.count body =
      manager.handles.count body + 1 := by
    rw [handles.count_eq, count_cons_self]
  apply accounts.adjust (sameObjects_withHandle manager index body) live
  · exact fun _ different => withHandle_headers_other different index
  · intro other different
    rw [handles.count_eq, count_cons_of_ne (Ne.symm different)]
  · exact fun _ _ => rfl
  · omega
  · have before := accounts.pointerCount body live
    rw [withHandle_headers_self, count]
    show addLong64 (manager.headers body).pointerCount 1 = _
    rw [before, addLong64_of_lt (by omega) (by omega)]
    omega
  · have before := accounts.handleCount body live
    rw [withHandle_headers_self, count]
    show addLong64 (manager.headers body).handleCount 1 = _
    rw [before, addLong64_of_lt (by omega) (by omega)]
    omega
  · omega
  · intro type
    have before := accounts.totalHandles type
    rw [withHandle_types, handles.countP_eq, countP_cons]
    by_cases isOne : (manager.headers body).type = some type
    · have bound := length_handles_le manager
      have few := countP_le_length (p := manager.typed type) (l := manager.handles)
      rw [if_pos isOne, if_pos (typed_iff.mpr isOne)]
      show increment64 (manager.types type).totalNumberOfHandles = _
      rw [before]
      exact increment64_of_lt (by omega)
    · rw [if_neg isOne, if_neg (fun typed => isOne (typed_iff.mp typed)), Nat.add_zero]
      exact before

/-- The manager in the middle of `ObCloseHandle`, with the reference of the
handle still to be dropped. -/
def ObjectManager.withoutHandle (manager : ObjectManager) (index : Nat) (body : Address) :
    ObjectManager :=
  let closed := { manager with handleTable := update manager.handleTable index none }
  let counted := closed.updateHeader body fun header =>
    { header with handleCount := addLong64 header.handleCount (-1) }
  counted.updateType (counted.headers body).type fun total =>
    { total with totalNumberOfHandles := decrement64 total.totalNumberOfHandles }

theorem withoutHandle_headers_self (index : Nat) :
    (manager.withoutHandle index body).headers body =
      { manager.headers body with
        handleCount := addLong64 (manager.headers body).handleCount (-1) } := by
  rw [withoutHandle, updateType_headers, updateHeader_headers, if_pos rfl]

theorem withoutHandle_headers_other {other : Address} (different : other ≠ body) (index : Nat) :
    (manager.withoutHandle index body).headers other = manager.headers other := by
  rw [withoutHandle, updateType_headers, updateHeader_headers, if_neg different]

theorem withoutHandle_types (index type : Nat) :
    (manager.withoutHandle index body).types type =
      if (manager.headers body).type = some type then
        { manager.types type with
          totalNumberOfHandles := decrement64 (manager.types type).totalNumberOfHandles }
      else manager.types type := by
  have same : ((manager.withoutHandle index body).headers body).type =
      (manager.headers body).type := by
    rw [withoutHandle_headers_self]
  rw [← same, withoutHandle, updateType_types, updateType_headers]
  rfl

theorem sameObjects_withoutHandle (manager : ObjectManager) (index : Nat) (body : Address) :
    SameObjects manager (manager.withoutHandle index body) := by
  have header : ∀ other, ∃ handleCount, (manager.withoutHandle index body).headers other =
      { manager.headers other with handleCount := handleCount } := by
    intro other
    by_cases equal : other = body
    · subst equal
      exact ⟨_, withoutHandle_headers_self index⟩
    · exact ⟨_, withoutHandle_headers_other equal index⟩
  constructor
  · exact updateType_live ..
  · exact updateType_namedObjects ..
  · exact updateType_created ..
  · exact updateType_deletions ..
  · intro other
    obtain ⟨_, changed⟩ := header other
    rw [changed]
  · intro other
    obtain ⟨_, changed⟩ := header other
    rw [changed]
  · intro other
    obtain ⟨_, changed⟩ := header other
    rw [changed]
  · intro type
    rw [withoutHandle_types]
    split
    · rfl
    · rfl

/-- A closed handle leaves its reference with the caller. -/
theorem Accounts.close (accounts : Accounts manager held)
    (inside : index < obpHandleTableSize) (taken : manager.handleTable index = some body) :
    Accounts (manager.withoutHandle index body) (body :: held) := by
  have live := accounts.slotsLive body (mem_occupants.mpr ⟨index, inside, taken⟩)
  have table : (manager.withoutHandle index body).handleTable =
      update manager.handleTable index none :=
    updateType_handleTable ..
  have handles : manager.handles.Perm (body :: (manager.withoutHandle index body).handles) := by
    rw [handles, handles, table]
    exact occupants_clear inside taken
  have count : manager.handles.count body =
      (manager.withoutHandle index body).handles.count body + 1 := by
    rw [handles.count_eq, count_cons_self]
  have bounded := accounts.bounded body
  have references : List.count body (body :: held) = held.count body + 1 := count_cons_self
  apply accounts.adjust (sameObjects_withoutHandle manager index body) live
  · exact fun _ different => withoutHandle_headers_other different index
  · intro other different
    rw [handles.count_eq, count_cons_of_ne (Ne.symm different)]
  · exact fun other different => count_cons_of_ne (Ne.symm different)
  · omega
  · have before := accounts.pointerCount body live
    rw [withoutHandle_headers_self]
    show (manager.headers body).pointerCount = _
    omega
  · have before := accounts.handleCount body live
    rw [withoutHandle_headers_self]
    show addLong64 (manager.headers body).handleCount (-1) = _
    rw [before, addLong64_of_lt (by omega) (by omega)]
    omega
  · omega
  · intro type
    have before := accounts.totalHandles type
    rw [handles.countP_eq, countP_cons] at before
    rw [withoutHandle_types]
    by_cases isOne : (manager.headers body).type = some type
    · rw [if_pos (typed_iff.mpr isOne)] at before
      rw [if_pos isOne]
      show decrement64 (manager.types type).totalNumberOfHandles = _
      rw [before, decrement64_succ]
    · rw [if_neg (fun typed => isOne (typed_iff.mp typed)), Nat.add_zero] at before
      rw [if_neg isOne]
      exact before

/-- There is room for one more reference to each object. -/
def Room (manager : ObjectManager) (held : List Address) : Prop :=
  ∀ body, manager.handles.count body + held.count body + 1 < 2 ^ 63

section Accounts

variable (accounts : Accounts manager held)
include accounts

theorem Accounts.insertHandle (room : Room manager held)
    (live : body ∈ manager.live) : Accounts (obInsertHandle manager body).2.2 held := by
  cases free : firstFree obpHandleTableSize manager.handleTable with
  | none =>
    rw [insertHandle_full free]
    exact accounts
  | some index =>
    rw [insertHandle_free free]
    exact accounts.insert live (room body) free

theorem Accounts.referenceByHandle (room : Room manager held)
    (handle : Handle) (expectedType : Option Nat) :
    ∃ status found after,
      obReferenceObjectByHandle manager handle expectedType = .ok (status, found, after) ∧
        Accounts after (found.toList ++ held) := by
  unfold obReferenceObjectByHandle
  by_cases outside : handleToIndex handle ≥ obpHandleTableSize
  · exact ⟨_, _, _, if_pos outside, accounts⟩
  rw [if_neg outside]
  cases taken : manager.handleTable (handleToIndex handle) with
  | none => exact ⟨_, _, _, rfl, accounts⟩
  | some body =>
    have live := accounts.slotsLive body
      (mem_occupants.mpr ⟨handleToIndex handle, Nat.lt_of_not_le outside, taken⟩)
    have referenced := accounts.reference live (room body)
    dsimp only
    split
    · obtain ⟨after, dropped, back⟩ := referenced.dereference
      rw [dropped]
      exact ⟨_, _, _, rfl, back⟩
    · exact ⟨_, _, _, rfl, referenced⟩

theorem Accounts.closeHandle (handle : Handle) :
    ∃ status after, obCloseHandle manager handle = .ok (status, after) ∧ Accounts after held := by
  unfold obCloseHandle
  by_cases outside : handleToIndex handle ≥ obpHandleTableSize
  · exact ⟨_, _, if_pos outside, accounts⟩
  rw [if_neg outside]
  cases taken : manager.handleTable (handleToIndex handle) with
  | none =>
    refine ⟨_, _, rfl, ?_⟩
    rw [← taken, Function.update_eq_self]
    exact accounts
  | some body =>
    have closed := accounts.close (Nat.lt_of_not_le outside) taken
    obtain ⟨after, dropped, kept⟩ := closed.dereference
    unfold withoutHandle at dropped
    dsimp only at dropped ⊢
    rw [dropped]
    exact ⟨_, _, rfl, kept⟩

theorem Accounts.lookup (room : Room manager held) (name : List WChar) :
    Accounts (obLookupObjectByName manager name).2.2
      ((obLookupObjectByName manager name).2.1.toList ++ held) := by
  unfold obLookupObjectByName
  split
  · exact accounts
  · rename_i body found
    have listed := mem_of_find?_eq_some found
    rw [accounts.named] at listed
    exact accounts.reference (mem_filter.mp listed).1 (room body)

theorem Accounts.createObject (type : Option Nat) (name : List WChar) {memory : Option Address}
    (fresh : ∀ body ∈ memory, body ≠ 0 ∧ body ∉ manager.live) :
    Accounts (obCreateObject manager type name memory).2.2
      ((obCreateObject manager type name memory).2.1.toList ++ held) := by
  cases memory with
  | none => exact accounts
  | some body =>
    obtain ⟨present, new⟩ := fresh body rfl
    exact accounts.create type name present new

end Accounts

end MinNT.Ob
