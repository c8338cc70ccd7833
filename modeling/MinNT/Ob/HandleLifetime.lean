import MinNT.Ob.CreationRoutines

namespace MinNT.Ob

open List Function ObjectManager HandleTable Transition
open Cm (WChar)

variable {before middle after : ObjectManager} {held new : List Address} {body : Address}

/-- The objects are the same but for new ones and deleted ones. -/
structure Evolves (before after : ObjectManager) (new : List Address) : Prop where
  deletions : before.deletions ⊆ after.deletions
  ticket : ∀ body, body ∉ new → after.ticket body = before.ticket body
  type : ∀ body, body ∉ new → (after.headers body).type = (before.headers body).type
  name : ∀ body, body ∉ new → (after.headers body).name = (before.headers body).name
  objects : ∀ body ∈ before.live, body ∈ after.live ∨
    ∃ deletion ∈ after.deletions, deletion.ticket = before.ticket body
  born : ∀ body ∈ after.live, body ∈ before.live ∨ body ∈ new

theorem SameObjects.evolves (same : SameObjects before after) : Evolves before after [] where
  deletions _ member := by
    rw [same.deletions]
    exact member
  ticket body _ := same.ticket body
  type body _ := same.type body
  name body _ := same.name body
  objects body member := by
    rw [same.live]
    exact .inl member
  born body member := by
    rw [same.live] at member
    exact .inl member

theorem Evolves.refl (manager : ObjectManager) : Evolves manager manager [] :=
  SameObjects.evolves ⟨rfl, rfl, rfl, rfl, fun _ => rfl, fun _ => rfl, fun _ => rfl, fun _ => rfl⟩

theorem Evolves.trans (first : Evolves before middle new) {later : List Address}
    (second : Evolves middle after later) (fresh : ∀ body ∈ new, body ∉ before.live) :
    Evolves before after (new ++ later) where
  deletions _ member := second.deletions (first.deletions member)
  ticket body old := by
    rw [mem_append, not_or] at old
    rw [second.ticket body old.2, first.ticket body old.1]
  type body old := by
    rw [mem_append, not_or] at old
    rw [second.type body old.2, first.type body old.1]
  name body old := by
    rw [mem_append, not_or] at old
    rw [second.name body old.2, first.name body old.1]
  objects body member := by
    have old : body ∉ new := fun isNew => fresh body isNew member
    rcases first.objects body member with kept | ⟨deletion, logged, ticket⟩
    · rcases second.objects body kept with still | ⟨deletion, logged, ticket⟩
      · exact .inl still
      · exact .inr ⟨deletion, logged, ticket.trans (first.ticket body old)⟩
    · exact .inr ⟨deletion, second.deletions logged, ticket⟩
  born body member := by
    rcases second.born body member with earlier | isNew
    · exact (first.born body earlier).imp_right (mem_append_left _)
    · exact .inr (mem_append_right _ isNew)

theorem Evolves.next (first : Evolves before middle new) (second : Evolves middle after [])
    (fresh : ∀ body ∈ new, body ∉ before.live) : Evolves before after new := by
  have whole := first.trans second fresh
  rwa [append_nil] at whole

theorem Evolves.andThen (first : Evolves before middle []) (second : Evolves middle after new) :
    Evolves before after new :=
  first.trans second (fun _ member => absurd member not_mem_nil)

theorem evolves_delete (manager : ObjectManager) (body : Address) :
    Evolves manager (deleteObject manager body) [] where
  deletions _ member := by
    rw [deleteObject_deletions]
    exact mem_append_left _ member
  ticket other _ := by
    rw [ticket, deleteObject_headers]
    rfl
  type other _ := by
    rw [deleteObject_headers]
  name other _ := by
    rw [deleteObject_headers]
  objects other member := by
    by_cases same : other = body
    · subst same
      right
      rw [deleteObject_deletions]
      exact ⟨_, mem_append_right _ mem_cons_self, rfl⟩
    · left
      rw [deleteObject_live]
      exact (mem_erase_of_ne same).mpr member
  born other member := by
    rw [deleteObject_live] at member
    exact .inl (mem_of_mem_erase member)

theorem evolves_dereference (done : obDereferenceObject before body = .ok after) :
    Evolves before after [] := by
  unfold obDereferenceObject at done
  have counted := (sameObjects_setPointerCount before body
    (addLong64 (before.headers body).pointerCount (-1))).evolves
  dsimp only at done
  split at done
  · cases done
  · split at done
    · cases done
      exact counted.andThen (evolves_delete _ body)
    · cases done
      exact counted

theorem evolves_create (type : Option Nat) (name : List WChar) :
    Evolves before (obCreateObject before type name (some body)).2.2 [body] where
  deletions _ member := by
    rw [create_deletions]
    exact member
  ticket other old := by
    rw [ticket, create_headers_other type name (ne_of_not_mem_cons old)]
    rfl
  type other old := by
    rw [create_headers_other type name (ne_of_not_mem_cons old)]
  name other old := by
    rw [create_headers_other type name (ne_of_not_mem_cons old)]
  objects other member := by
    rw [create_live]
    exact .inl (mem_append_left _ member)
  born other member := by
    rw [create_live] at member
    exact mem_append.mp member

theorem evolves_insertHandle (manager : ObjectManager) (body : Address) :
    Evolves manager (obInsertHandle manager body).2.2 [] := by
  cases free : firstFree obpHandleTableSize manager.handleTable with
  | none =>
    rw [insertHandle_full free]
    exact .refl manager
  | some index =>
    rw [insertHandle_free free]
    exact (sameObjects_withHandle manager index body).evolves

theorem evolves_lookup (manager : ObjectManager) (name : List WChar) :
    Evolves manager (obLookupObjectByName manager name).2.2 [] := by
  unfold obLookupObjectByName
  split
  · exact .refl manager
  · exact (sameObjects_reference manager _).evolves

variable {status : NtStatus} {memory : Option Address} {objects : SystemObjects}

theorem evolves_closeHandle {handle : Handle}
    (done : obCloseHandle before handle = .ok (status, after)) : Evolves before after [] := by
  unfold obCloseHandle at done
  split at done
  · cases done
    exact .refl before
  dsimp only at done
  split at done
  · cases done
    exact SameObjects.evolves
      ⟨rfl, rfl, rfl, rfl, fun _ => rfl, fun _ => rfl, fun _ => rfl, fun _ => rfl⟩
  · rename_i body taken
    have closed := (sameObjects_withoutHandle before (handleToIndex handle) body).evolves
    cases dropped : obDereferenceObject (before.withoutHandle (handleToIndex handle) body) body with
    | error crash =>
      unfold withoutHandle at dropped
      dsimp only at dropped
      rw [dropped] at done
      cases done
    | ok final =>
      have last := evolves_dereference dropped
      unfold withoutHandle at dropped
      dsimp only at dropped
      rw [dropped] at done
      cases done
      exact closed.andThen last

theorem Evolves.weaken (evolves : Evolves before after []) (new : List Address) :
    Evolves before after new where
  deletions := evolves.deletions
  ticket body _ := evolves.ticket body not_mem_nil
  type body _ := evolves.type body not_mem_nil
  name body _ := evolves.name body not_mem_nil
  objects := evolves.objects
  born body member := .inl ((evolves.born body member).resolve_right not_mem_nil)

/-- The end of a creating call: a failure, or a new object that has a handle and,
if the call leaves it, its creator's reference. -/
inductive Outcome (before : ObjectManager) (held : List Address) (type : Option Nat)
    (name : List WChar) (memory : Option Address) (leaves : Bool) (status : NtStatus)
    (after : ObjectManager) : Prop
  | failed (failure : ntSuccess status = false) (accounts : Accounts after held)
      (evolves : Evolves before after memory.toList) (gone : ∀ body ∈ memory, body ∉ after.live)
  | created (body : Address) (success : ntSuccess status = true) (given : memory = some body)
      (accounts : Accounts after (if leaves then body :: held else held))
      (evolves : Evolves before after [body]) (live : body ∈ after.live)
      (ticket : after.ticket body = before.created) (typed : (after.headers body).type = type)
      (named : (after.headers body).name = name)

variable {type : Option Nat} {name : List WChar}

theorem Outcome.preceded {leaves : Bool} (evolves : Evolves before middle [])
    (created : middle.created = before.created)
    (outcome : Outcome middle held type name memory leaves status after) :
    Outcome before held type name memory leaves status after := by
  cases outcome with
  | failed failure accounts later gone =>
    exact .failed failure accounts (evolves.andThen later) gone
  | created body success given accounts later live ticket typed named =>
    exact .created body success given accounts (evolves.andThen later) live
      (ticket.trans created) typed named

theorem Outcome.sound {leaves : Bool}
    (outcome : Outcome before held type name memory leaves status after)
    (heldLive : ∀ body ∈ held, body ∈ before.live)
    (fresh : ∀ body ∈ memory, body ≠ 0 ∧ body ∉ before.live) (once : held.Nodup) :
    ∃ kept, Accounts after kept ∧ kept.Nodup := by
  cases outcome with
  | failed _ accounts _ _ => exact ⟨held, accounts, once⟩
  | created body _ given accounts _ _ _ _ _ =>
    cases leaves with
    | false => exact ⟨held, accounts, once⟩
    | true =>
      refine ⟨body :: held, accounts, nodup_cons.mpr ⟨fun member => ?_, once⟩⟩
      exact (fresh body given).2 (heldLive body member)

/-- Few references are held outside the handle table. -/
def Few (held : List Address) : Prop := ∀ body, held.count body ≤ 2 ^ 62

theorem Few.room (few : Few held) (manager : ObjectManager) (one two : Address) :
    Room manager (one :: two :: held) := by
  intro body
  have bound := few body
  have slots := length_handles_le manager
  have handles : manager.handles.count body ≤ _ := count_le_length
  have first : List.count body (one :: two :: held) ≤ List.count body (two :: held) + 1 := by
    rw [count_cons]
    split <;> omega
  have second : List.count body (two :: held) ≤ List.count body held + 1 := by
    rw [count_cons]
    split <;> omega
  omega

theorem Room.mono {manager : ObjectManager} {one : Address} (room : Room manager (one :: held)) :
    Room manager held := by
  intro body
  have fewer := List.Sublist.count_le body (sublist_cons_self one held)
  have bound := room body
  omega

theorem dereference_handles (done : obDereferenceObject before body = .ok after) :
    after.handles = before.handles := by
  unfold obDereferenceObject at done
  dsimp only at done
  split at done
  · cases done
  · split at done
    · cases done
      exact deleteObject_handles ..
    · cases done
      rfl

theorem Accounts.not_live (accounts : Accounts after held) (noHandle : body ∉ after.handles)
    (noReference : body ∉ held) : body ∉ after.live := by
  intro live
  have positive := accounts.alive body live
  rw [count_eq_zero.mpr noHandle, count_eq_zero.mpr noReference] at positive
  exact Nat.lt_irrefl 0 positive

theorem insertNewObject_spec (accounts : Accounts objects.manager (body :: held)) (few : Few held) :
    ∃ status handle after, insertNewObject objects body = .ok (status, handle, after) ∧
      Evolves objects.manager after.manager [] ∧
      (ntSuccess status = true ∧ Accounts after.manager (body :: held) ∨
        ntSuccess status = false ∧ Accounts after.manager held ∧
          after.manager.handles = objects.manager.handles) := by
  have room : Room objects.manager (body :: held) := (few.room objects.manager 0 body).mono
  have live := accounts.heldLive body mem_cons_self
  unfold insertNewObject
  cases free : firstFree obpHandleTableSize objects.manager.handleTable with
  | none =>
    obtain ⟨final, dropped, kept⟩ := accounts.dereference
    rw [insertHandle_full free]
    refine ⟨statusInsufficientResources, none, { objects with manager := final }, ?_,
      evolves_dereference dropped, .inr ⟨by decide, kept, dereference_handles dropped⟩⟩
    dsimp only [SystemObjects.dereference]
    rw [dropped]
    rfl
  | some index =>
    rw [insertHandle_free free]
    exact ⟨_, _, _, rfl, (sameObjects_withHandle objects.manager index body).evolves,
      .inl ⟨by decide, accounts.insert live (room body) free⟩⟩

theorem newObject_outcome (accounts : Accounts before held) (few : Few held)
    (present : body ≠ 0) (fresh : body ∉ before.live) (name : List WChar)
    (same : objects.manager = (obCreateObject before none name (some body)).2.2) :
    ∃ status handle after, insertNewObject objects body = .ok (status, handle, after) ∧
      Outcome before held none name (some body) true status after.manager := by
  have created := accounts.create none name present fresh
  have grown : Evolves before objects.manager [body] := by
    rw [same]
    exact evolves_create none name
  have new : ∀ other ∈ [body], other ∉ before.live := by
    intro other member
    rwa [mem_singleton.mp member]
  rw [← same] at created
  obtain ⟨status, handle, after, done, evolves, outcome⟩ := insertNewObject_spec created few
  refine ⟨status, handle, after, done, ?_⟩
  rcases outcome with ⟨success, kept⟩ | ⟨failure, kept, handles⟩
  · refine .created body success rfl kept (grown.next evolves new)
      (kept.heldLive body mem_cons_self) ?_ ?_ ?_
    · rw [evolves.ticket body not_mem_nil, ticket, same, create_headers_self]
    · rw [evolves.type body not_mem_nil, same, create_headers_self]
    · rw [evolves.name body not_mem_nil, same, create_headers_self]
  · refine .failed failure kept (grown.next evolves new) (fun other given => ?_)
    cases given
    rw [same, create_handles] at handles
    exact kept.not_live (fun member => fresh (accounts.slotsLive body (handles ▸ member)))
      (fun member => fresh (accounts.heldLive body member))

theorem ntCreateEvent_outcome (accounts : Accounts objects.manager held) (few : Few held)
    (eventHandle : Bool) (objectAttributes : Option (Option (List WChar))) (eventType : Nat)
    (initialState : Bool) (fresh : ∀ body ∈ memory, body ≠ 0 ∧ body ∉ objects.manager.live) :
    ∃ status handle after, ntCreateEvent objects eventHandle objectAttributes eventType
        initialState memory = .ok (status, handle, after) ∧
      Outcome objects.manager held none ((objectAttributes.bind id).getD []) memory true status
        after.manager := by
  have unchanged := (Evolves.refl objects.manager).weaken memory.toList
  have unused : ∀ body ∈ memory, body ∉ objects.manager.live := fun body given =>
    (fresh body given).2
  unfold ntCreateEvent
  split
  · exact ⟨_, _, _, rfl, .failed (by decide) accounts unchanged unused⟩
  split
  · exact ⟨_, _, _, rfl, .failed (by decide) accounts unchanged unused⟩
  cases memory with
  | none => exact ⟨_, _, _, rfl, .failed (by decide) accounts unchanged unused⟩
  | some body =>
    obtain ⟨present, new⟩ := fresh body rfl
    exact newObject_outcome accounts few present new ((objectAttributes.bind id).getD []) rfl

theorem ntCreatePort_outcome (accounts : Accounts objects.manager held)
    (few : Few held) (outPortHandle : Bool) (portName : Option (List WChar))
    (fresh : ∀ body ∈ memory, body ≠ 0 ∧ body ∉ objects.manager.live) :
    ∃ status handle after, ntCreatePort objects outPortHandle portName memory =
        .ok (status, handle, after) ∧
      Outcome objects.manager held none (portName.getD []) memory true status
        after.manager := by
  have unchanged := (Evolves.refl objects.manager).weaken memory.toList
  have unused : ∀ body ∈ memory, body ∉ objects.manager.live := fun body given =>
    (fresh body given).2
  unfold ntCreatePort
  split
  · exact ⟨_, _, _, rfl, .failed (by decide) accounts unchanged unused⟩
  rename_i name
  split
  · exact ⟨_, _, _, rfl, .failed (by decide) accounts unchanged unused⟩
  cases memory with
  | none => exact ⟨_, _, _, rfl, .failed (by decide) accounts unchanged unused⟩
  | some body =>
    obtain ⟨present, new⟩ := fresh body rfl
    exact newObject_outcome accounts few present new name rfl

theorem connectPorts_manager (objects : SystemObjects) (serverPort clientPort : Address) :
    (connectPorts objects serverPort clientPort).manager = objects.manager := by
  unfold connectPorts
  dsimp only
  split
  · rfl
  · rfl

theorem insertConnectedPort_spec {serverPort : Address}
    (accounts : Accounts objects.manager (body :: serverPort :: held)) (few : Few held) :
    ∃ status handle after, insertConnectedPort objects serverPort body =
        .ok (status, handle, after) ∧
      Evolves objects.manager after.manager [] ∧ Accounts after.manager held ∧
      (ntSuccess status = true ∧ body ∈ after.manager.live ∨
        ntSuccess status = false ∧ after.manager.handles = objects.manager.handles) := by
  have live := accounts.heldLive body mem_cons_self
  have inserted := accounts.insertHandle (few.room _ body serverPort) live
  obtain ⟨middle, dropClient, left⟩ := inserted.dereference
  obtain ⟨final, dropServer, kept⟩ := left.dereference
  have evolves := ((evolves_insertHandle objects.manager body).andThen
    (evolves_dereference dropClient)).andThen (evolves_dereference dropServer)
  have handles : final.handles = (obInsertHandle objects.manager body).2.2.handles :=
    (dereference_handles dropServer).trans (dereference_handles dropClient)
  refine ⟨(obInsertHandle objects.manager body).1, (obInsertHandle objects.manager body).2.1,
    { objects with manager := final }, ?_, evolves, kept, ?_⟩
  · unfold insertConnectedPort SystemObjects.dereference
    dsimp only
    rw [dropClient]
    dsimp only [Except.map, Except.bind]
    rw [dropServer]
  · cases free : firstFree obpHandleTableSize objects.manager.handleTable with
    | none =>
      rw [insertHandle_full free] at handles ⊢
      exact .inr ⟨show ntSuccess statusInsufficientResources = false by decide, handles⟩
    | some index =>
      rw [insertHandle_free free] at handles ⊢
      refine .inl ⟨show ntSuccess statusSuccess = true by decide, kept.slotsLive body ?_⟩
      rw [handles]
      exact (withHandle_handles free).mem_iff.mpr mem_cons_self

/-- A connection makes a port, or leaves no trace. -/
theorem connectToPort_outcome {serverPort : Address}
    (accounts : Accounts objects.manager (serverPort :: held)) (few : Few held)
    (fresh : ∀ body ∈ memory, body ≠ 0 ∧ body ∉ objects.manager.live) :
    ∃ status handle after, connectToPort objects serverPort memory =
        .ok (status, handle, after) ∧
      Outcome objects.manager held (some lpcPortObjectType) [] memory false status
        after.manager := by
  cases memory with
  | none =>
    obtain ⟨final, dropped, kept⟩ := accounts.dereference
    refine ⟨statusInsufficientResources, none, { objects with manager := final }, ?_,
      .failed (by decide) kept (evolves_dereference dropped) (fun _ given => by cases given)⟩
    unfold connectToPort
    dsimp only [obCreateObject, SystemObjects.dereference]
    rw [dropped]
    rfl
  | some body =>
    obtain ⟨present, absent⟩ := fresh body rfl
    have new : ∀ other ∈ [body], other ∉ objects.manager.live := by
      intro other member
      rwa [mem_singleton.mp member]
    have created := accounts.create (some lpcPortObjectType) [] present absent
    have grown : Evolves objects.manager _ [body] :=
      evolves_create (some lpcPortObjectType) []
    have connected : (connectPorts { objects with
        manager := (obCreateObject objects.manager (some lpcPortObjectType) []
          (some body)).2.2 } serverPort body).manager =
        (obCreateObject objects.manager (some lpcPortObjectType) [] (some body)).2.2 :=
      connectPorts_manager ..
    rw [← connected] at created grown
    obtain ⟨status, handle, after, done, evolves, kept, outcome⟩ :=
      insertConnectedPort_spec created few
    refine ⟨status, handle, after, done, ?_⟩
    rcases outcome with ⟨success, live⟩ | ⟨failure, handles⟩
    · refine .created body success rfl kept (grown.next evolves new) live ?_ ?_ ?_
      · rw [evolves.ticket body not_mem_nil, connectPorts_manager, ticket, create_headers_self]
      · rw [evolves.type body not_mem_nil, connectPorts_manager, create_headers_self]
      · rw [evolves.name body not_mem_nil, connectPorts_manager, create_headers_self]
    · refine .failed failure kept (grown.next evolves new) (fun other given => ?_)
      cases given
      rw [connected, create_handles] at handles
      exact kept.not_live (fun member => absent (accounts.slotsLive body (handles ▸ member)))
        (fun member => absent (accounts.heldLive body (mem_cons_of_mem _ member)))

/-- So does the call, which drops its reference on the server port. -/
theorem ntConnectPort_outcome (accounts : Accounts objects.manager held)
    (few : Few held) (outPortHandle : Bool) (serverPortName : Option (List WChar))
    (fresh : ∀ body ∈ memory, body ≠ 0 ∧ body ∉ objects.manager.live) :
    ∃ status handle after, ntConnectPort objects outPortHandle serverPortName memory =
        .ok (status, handle, after) ∧
      Outcome objects.manager held (some lpcPortObjectType) [] memory false status
        after.manager := by
  have unchanged := (Evolves.refl objects.manager).weaken memory.toList
  have unused : ∀ body ∈ memory, body ∉ objects.manager.live := fun body given =>
    (fresh body given).2
  unfold ntConnectPort
  split
  · exact ⟨_, _, _, rfl, .failed (by decide) accounts unchanged unused⟩
  rename_i name
  split
  · exact ⟨_, _, _, rfl, .failed (by decide) accounts unchanged unused⟩
  have referenced := accounts.lookup ((few.room objects.manager 0 0).mono.mono) name
  have evolves := evolves_lookup objects.manager name
  cases listed : objects.manager.namedObjects.find? fun body =>
      Cm.rtlEqualUnicodeString (objects.manager.headers body).name name with
  | none =>
    have answer : obLookupObjectByName objects.manager name =
        (statusObjectNameNotFound, none, objects.manager) := by
      unfold obLookupObjectByName
      rw [listed]
    rw [answer]
    exact ⟨_, _, _, rfl, .failed (by decide) accounts unchanged unused⟩
  | some serverPort =>
    have answer : obLookupObjectByName objects.manager name =
        (statusSuccess, some serverPort, obReferenceObject objects.manager serverPort) := by
      unfold obLookupObjectByName
      rw [listed]
    rw [answer] at referenced evolves ⊢
    obtain ⟨status, handle, after, done, outcome⟩ := connectToPort_outcome
      (show Accounts ({ objects with manager := obReferenceObject objects.manager serverPort } :
        SystemObjects).manager (serverPort :: held) from referenced) few fresh
    exact ⟨status, handle, after, done, outcome.preceded evolves rfl⟩

inductive CreationRoutine where
  | ntCreateEvent
  | ntCreatePort
  | ntConnectPort
deriving DecidableEq, Repr

/-- The objects, and which of them got a handle from which routine. -/
structure HandleRun where
  objects : SystemObjects
  opened : List (CreationRoutine × Nat)

inductive HandleCall where
  | createEvent (eventHandle : Bool) (objectAttributes : Option (Option (List WChar)))
      (eventType : Nat) (initialState : Bool) (memory : Option Address)
  | createPort (outPortHandle : Bool) (portName : Option (List WChar)) (memory : Option Address)
  | connectPort (outPortHandle : Bool) (serverPortName : Option (List WChar))
      (memory : Option Address)
  | close (handle : Handle)
deriving DecidableEq, Repr

/-- What a successful call opens is the object created in it. -/
def HandleRun.opens (run : HandleRun) (routine : CreationRoutine)
    (answer : NtStatus × Option Handle × SystemObjects) : HandleRun where
  objects := answer.2.2
  opened :=
    if ntSuccess answer.1 then run.opened ++ [(routine, run.objects.manager.created)]
    else run.opened

def handleCall (run : HandleRun) : HandleCall → Except BugCheck HandleRun
  | .createEvent eventHandle objectAttributes eventType initialState memory =>
      (ntCreateEvent run.objects eventHandle objectAttributes eventType initialState memory).map
        (run.opens .ntCreateEvent)
  | .createPort outPortHandle portName memory =>
      (ntCreatePort run.objects outPortHandle portName memory).map (run.opens .ntCreatePort)
  | .connectPort outPortHandle serverPortName memory =>
      (ntConnectPort run.objects outPortHandle serverPortName memory).map (run.opens .ntConnectPort)
  | .close handle =>
      (obCloseHandle run.objects.manager handle).map fun answer =>
        { run with objects := { run.objects with manager := answer.2 } }

def handleStep (run : HandleRun) (call : HandleCall) : Option HandleRun :=
  (handleCall run call).toOption

/-- The pool hands out memory that is not in use. -/
def FreshMemory (run : HandleRun) : HandleCall → Prop
  | .createEvent _ _ _ _ memory | .createPort _ _ memory | .connectPort _ _ memory =>
      ∀ body ∈ memory, body ≠ 0 ∧ body ∉ run.objects.manager.live
  | .close _ => True

def HandleRun.init (memory : Address → ObjectHeader) (deleteProcedures : Nat → Bool)
    (events : Address → KEvent) (ports : Address → LpcPort) : HandleRun :=
  ⟨⟨obInitSystem memory deleteProcedures, events, ports⟩, []⟩

/-- No slot of the handle table holds the object. -/
def AllClosed (manager : ObjectManager) (ticket : Nat) : Prop :=
  ∀ slot < obpHandleTableSize, ∀ body, manager.handleTable slot = some body →
    (manager.headers body).ticket ≠ ticket

/-- The delete path was run for the object, at a `PointerCount` of 0. -/
def Freed (manager : ObjectManager) (ticket : Nat) : Prop :=
  ∃ deletion ∈ manager.deletions, deletion.ticket = ticket ∧ deletion.pointerCount = 0

/-- An object opened by `NtConnectPort` has lost its creator's reference, any
other has it still. -/
def Tracked (manager : ObjectManager) (held : List Address) (routine : CreationRoutine)
    (ticket : Nat) : Prop :=
  if routine = .ntConnectPort then
    (∃ deletion ∈ manager.deletions, deletion.ticket = ticket) ∨
      ∃ body ∈ manager.live, body ∉ held ∧ manager.ticket body = ticket
  else ∃ body ∈ held, manager.ticket body = ticket

/-- What is held by creators is what they have not dropped. -/
structure Lifetimes (run : HandleRun) (held : List Address) : Prop where
  accounts : Accounts run.objects.manager held
  once : held.Nodup
  opened : ∀ routine ticket, (routine, ticket) ∈ run.opened →
    Tracked run.objects.manager held routine ticket

theorem Lifetimes.few {run : HandleRun} (lifetimes : Lifetimes run held) : Few held := by
  intro body
  have bound := nodup_iff_count_le_one.mp lifetimes.once body
  omega

theorem Tracked.evolves {routine : CreationRoutine} {ticket : Nat}
    (tracked : Tracked before held routine ticket) (heldLive : ∀ body ∈ held, body ∈ before.live)
    (evolves : Evolves before after new) (fresh : ∀ body ∈ new, body ∉ before.live)
    {kept : List Address} (keeps : ∀ body ∈ held, body ∈ kept)
    (added : ∀ body ∈ kept, body ∈ held ∨ body ∈ new) : Tracked after kept routine ticket := by
  unfold Tracked at tracked ⊢
  split at tracked
  · rename_i connected
    rw [if_pos connected]
    rcases tracked with ⟨deletion, logged, same⟩ | ⟨body, live, free, same⟩
    · exact .inl ⟨deletion, evolves.deletions logged, same⟩
    · have old : body ∉ new := fun isNew => fresh body isNew live
      rcases evolves.objects body live with still | ⟨deletion, logged, deleted⟩
      · refine .inr ⟨body, still, fun member => ?_, (evolves.ticket body old).trans same⟩
        rcases added body member with before | isNew
        · exact free before
        · exact old isNew
      · exact .inl ⟨deletion, logged, deleted.trans same⟩
  · rename_i other
    rw [if_neg other]
    obtain ⟨body, member, same⟩ := tracked
    have old : body ∉ new := fun isNew => fresh body isNew (heldLive body member)
    exact ⟨body, keeps body member, (evolves.ticket body old).trans same⟩

/-- The call of a creation routine keeps the account of the lifetimes. -/
theorem Lifetimes.opens {run : HandleRun} (lifetimes : Lifetimes run held)
    (fresh : ∀ body ∈ memory, body ≠ 0 ∧ body ∉ run.objects.manager.live) {handle : Option Handle}
    (routine : CreationRoutine)
    (outcome : Outcome run.objects.manager held type name memory
      (decide (routine ≠ .ntConnectPort)) status objects.manager) :
    ∃ kept, Lifetimes (run.opens routine (status, handle, objects)) kept := by
  have heldLive := lifetimes.accounts.heldLive
  cases outcome with
  | failed failure accounts evolves _ =>
    refine ⟨held, accounts, lifetimes.once, fun other ticket member => ?_⟩
    have earlier : (other, ticket) ∈ run.opened := by
      simpa [HandleRun.opens, failure] using member
    exact (lifetimes.opened other ticket earlier).evolves heldLive evolves
      (fun body new => (fresh body (Option.mem_toList.mp new)).2) (fun _ member => member)
      (fun _ member => .inl member)
  | created body success given accounts evolves live ticket _ _ =>
    have new : body ∉ run.objects.manager.live := (fresh body given).2
    have absent : body ∉ held := fun member => new (heldLive body member)
    have others : ∀ other ∈ [body], other ∉ run.objects.manager.live := by
      intro other member
      rwa [mem_singleton.mp member]
    have log : (run.opens routine (status, handle, objects)).opened =
        run.opened ++ [(routine, run.objects.manager.created)] := if_pos success
    by_cases connected : routine = .ntConnectPort
    · rw [decide_eq_false (fun different => different connected)] at accounts
      refine ⟨held, accounts, lifetimes.once, fun other number member => ?_⟩
      rw [log] at member
      rcases mem_append.mp member with earlier | last
      · exact (lifetimes.opened other number earlier).evolves heldLive evolves others
          (fun _ member => member) (fun _ member => .inl member)
      · cases mem_singleton.mp last
        unfold Tracked
        rw [if_pos connected]
        exact .inr ⟨body, live, absent, ticket⟩
    · rw [decide_eq_true connected, if_pos rfl] at accounts
      refine ⟨body :: held, accounts, nodup_cons.mpr ⟨absent, lifetimes.once⟩,
        fun other number member => ?_⟩
      rw [log] at member
      rcases mem_append.mp member with earlier | last
      · refine (lifetimes.opened other number earlier).evolves heldLive evolves others
          (fun _ member => mem_cons_of_mem _ member) (fun kept member => ?_)
        rcases mem_cons.mp member with same | before
        · exact .inr (mem_singleton.mpr same)
        · exact .inl before
      · cases mem_singleton.mp last
        unfold Tracked
        rw [if_neg connected]
        exact ⟨body, mem_cons_self, ticket⟩

/-- Every call keeps the lifetimes. -/
theorem Lifetimes.step {run next : HandleRun} (lifetimes : Lifetimes run held) {call : HandleCall}
    (fresh : FreshMemory run call) (done : handleStep run call = some next) :
    ∃ kept, Lifetimes next kept := by
  have few := lifetimes.few
  cases call with
  | createEvent eventHandle objectAttributes eventType initialState memory =>
    obtain ⟨status, handle, after, answered, outcome⟩ := ntCreateEvent_outcome
      lifetimes.accounts few eventHandle objectAttributes eventType initialState fresh
    rw [handleStep, handleCall, answered] at done
    cases done
    exact lifetimes.opens fresh .ntCreateEvent outcome
  | createPort outPortHandle portName memory =>
    obtain ⟨status, handle, after, answered, outcome⟩ :=
      ntCreatePort_outcome lifetimes.accounts few outPortHandle portName fresh
    rw [handleStep, handleCall, answered] at done
    cases done
    exact lifetimes.opens fresh .ntCreatePort outcome
  | connectPort outPortHandle serverPortName memory =>
    obtain ⟨status, handle, after, answered, outcome⟩ :=
      ntConnectPort_outcome lifetimes.accounts few outPortHandle serverPortName fresh
    rw [handleStep, handleCall, answered] at done
    cases done
    exact lifetimes.opens fresh .ntConnectPort outcome
  | close handle =>
    obtain ⟨status, after, answered, accounts⟩ := lifetimes.accounts.closeHandle handle
    have evolves := evolves_closeHandle answered
    rw [handleStep, handleCall, answered] at done
    cases done
    refine ⟨held, accounts, lifetimes.once, fun routine ticket member => ?_⟩
    exact (lifetimes.opened routine ticket member).evolves lifetimes.accounts.heldLive evolves
      (fun _ member => absurd member not_mem_nil) (fun _ member => member)
      (fun _ member => .inl member)

/-- Some creators have not dropped their references, and the rest is accounted for. -/
def Lived (run : HandleRun) : Prop := ∃ held, Lifetimes run held

theorem lived_init (memory : Address → ObjectHeader) (deleteProcedures : Nat → Bool)
    (events : Address → KEvent) (ports : Address → LpcPort) :
    Lived (.init memory deleteProcedures events ports) :=
  ⟨[], .init memory deleteProcedures, nodup_nil, fun _ _ member => by cases member⟩

theorem Lived.step {run next : HandleRun} (lived : Lived run) {call : HandleCall}
    (fresh : FreshMemory run call) (done : handleStep run call = some next) : Lived next := by
  obtain ⟨held, lifetimes⟩ := lived
  exact lifetimes.step fresh done

theorem Accounts.not_freed {manager : ObjectManager} (accounts : Accounts manager held)
    (live : body ∈ manager.live) : ¬ Freed manager (manager.ticket body) := by
  rintro ⟨deletion, logged, same, _⟩
  have once := accounts.deletedOnce.nodup_iff.mpr nodup_range
  exact disjoint_of_nodup_append once (mem_map_of_mem live)
    (List.mem_map.mpr ⟨deletion, logged, same⟩)

/-- An object whose handles are all closed is freed if `NtConnectPort` opened it,
and never otherwise. -/
theorem freed_iff_connected (memory : Address → ObjectHeader) (deleteProcedures : Nat → Bool)
    (events : Address → KEvent) (ports : Address → LpcPort) (run : HandleRun)
    (reached : Reaches handleStep FreshMemory (.init memory deleteProcedures events ports) run)
    (routine : CreationRoutine) (ticket : Nat) (opened : (routine, ticket) ∈ run.opened)
    (closed : AllClosed run.objects.manager ticket) :
    Freed run.objects.manager ticket ↔ routine = .ntConnectPort := by
  have lived : Lived run := reached.invariant (lived_init memory deleteProcedures events ports)
    (fun _ _ _ lived fresh done => lived.step fresh done)
  obtain ⟨held, lifetimes⟩ := lived
  have accounts := lifetimes.accounts
  have tracked := lifetimes.opened routine ticket opened
  unfold Tracked at tracked
  split at tracked
  · rename_i connected
    refine ⟨fun _ => connected, fun _ => ?_⟩
    rcases tracked with ⟨deletion, logged, same⟩ | ⟨body, live, free, same⟩
    · exact ⟨deletion, logged, same, accounts.deletedAtZero deletion logged⟩
    · have referenced := accounts.alive body live
      rw [count_eq_zero.mpr free, Nat.add_zero] at referenced
      obtain ⟨slot, inside, taken⟩ := mem_occupants.mp (count_pos_iff.mp referenced)
      exact absurd same (closed slot inside body taken)
  · rename_i other
    obtain ⟨body, member, same⟩ := tracked
    have kept := accounts.not_freed (accounts.heldLive body member)
    rw [same] at kept
    exact ⟨fun freed => absurd freed kept, fun connected => absurd connected other⟩

/-- Memory of zeros, and no types with delete procedures. -/
def HandleRun.zeroed : HandleRun :=
  .init (fun _ => ⟨0, 0, none, [], 0⟩) (fun _ => false) (fun _ => ⟨0, false⟩)
    (fun _ => ⟨0, [], none, none, false, 0⟩)

set_option maxRecDepth 4096 in
/-- The port of a client is freed when its only handle is closed. -/
theorem freed_iff_connected_port : ∃ run : HandleRun,
    (.ntConnectPort, 1) ∈ run.opened ∧ AllClosed run.objects.manager 1 ∧
      Freed run.objects.manager 1 := by
  have initial : Reaches handleStep FreshMemory .zeroed _ := .start
  have created := initial.step (show FreshMemory _ (.createPort true (some [0x61#16]) (some 8#64))
    from fun body same => by
      cases same
      exact ⟨by decide, not_mem_nil⟩) rfl
  have connected := created.step
    (show FreshMemory _ (.connectPort true (some [0x61#16]) (some 16#64)) from fun body same => by
      cases same
      exact ⟨by decide, fun member => absurd (mem_singleton.mp member) (by decide)⟩) rfl
  have finished := connected.step (show FreshMemory _ (.close 8#64) from trivial) rfl
  have opened : (CreationRoutine.ntConnectPort, 1) ∈ [(.ntCreatePort, 0), (.ntConnectPort, 1)] := by
    decide
  refine ⟨_, opened, ?closed, (freed_iff_connected _ _ _ _ _ finished _ 1 opened ?closed).mpr rfl⟩
  intro slot _ body taken
  have table : update (update (update (fun _ => none) 0 (some 8#64)) 1
      (some 16#64)) 1 none slot = some body := taken
  rw [update_idem] at table
  by_cases second : slot = 1
  · rw [second, update_self] at table
    cases table
  by_cases first : slot = 0
  · rw [first, update_of_ne (by decide), update_self] at table
    cases table
    exact Nat.zero_ne_one
  · rw [update_of_ne second, update_of_ne first] at table
    cases table

set_option maxRecDepth 4096 in
/-- An event keeps its creator's reference when its only handle is closed. -/
theorem event_outlives_lastHandle : ∃ run, Reaches handleStep FreshMemory .zeroed run ∧
    (.ntCreateEvent, 0) ∈ run.opened ∧ AllClosed run.objects.manager 0 ∧
      (run.objects.manager.headers 8#64).pointerCount = 1 ∧ ¬ Freed run.objects.manager 0 := by
  have initial : Reaches handleStep FreshMemory .zeroed _ := .start
  have created := initial.step (show FreshMemory _ (.createEvent true none 0 false (some 8#64)) from
    fun body same => by
      cases same
      exact ⟨by decide, not_mem_nil⟩) rfl
  have closed := created.step (show FreshMemory _ (.close 4#64) from trivial) rfl
  refine ⟨_, closed, mem_cons_self, ?_, rfl, ?_⟩
  · intro slot _ body taken
    have empty : update (update (fun _ => none) 0 (some 8#64)) 0 none slot =
        some body := taken
    rw [update_idem, update_eq_self_iff.mpr rfl] at empty
    cases empty
  · rintro ⟨_, member, _⟩
    cases member

end MinNT.Ob
