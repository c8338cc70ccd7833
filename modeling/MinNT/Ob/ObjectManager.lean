import MinNT.Cm.Registry
import MinNT.Lib.HandleTable
import MinNT.Lib.Transition

namespace MinNT.Ob

open Function HandleTable
open Cm (WChar rtlEqualUnicodeString)

/-- A body pointer; the header lies in front of the body. -/
abbrev Address := BitVec 64

abbrev Handle := BitVec 64

/-- `OBJECT_TYPE`; `deleteProcedure` tells whether there is one. -/
structure ObjectType where
  totalNumberOfObjects : Nat
  totalNumberOfHandles : Nat
  deleteProcedure : Bool
deriving DecidableEq, Repr

/-- `OBJECT_HEADER`. A name of no characters stands for an object without a name.
The ticket numbers the objects in the order of their creation. -/
structure ObjectHeader where
  pointerCount : Int
  handleCount : Int
  type : Option Nat
  name : List WChar
  ticket : Nat
deriving DecidableEq, Repr

/-- A run of the delete path: the object, its `PointerCount` there, and whether a
delete procedure was called. -/
structure Deletion where
  ticket : Nat
  pointerCount : Int
  procedure : Bool
deriving DecidableEq, Repr

/-- The memory in front of the bodies, the object types, `ObpHandleTable`, the
list at `ObpNamedObjectHead`, the bodies of the objects that were created and not
freed, the number of objects created, and the runs of the delete path. -/
structure ObjectManager where
  headers : Address → ObjectHeader
  types : Nat → ObjectType
  handleTable : Nat → Option Address
  namedObjects : List Address
  live : List Address
  created : Nat
  deletions : List Deletion

def obpHandleTableSize : Nat := 512

/-- `ObInitSystem` over any memory, and the types as `ObCreateObjectType` makes
them. -/
def obInitSystem (memory : Address → ObjectHeader) (deleteProcedures : Nat → Bool) :
    ObjectManager where
  headers := memory
  types := fun type => ⟨0, 0, deleteProcedures type⟩
  handleTable := fun _ => none
  namedObjects := []
  live := []
  created := 0
  deletions := []

def handleToIndex (handle : Handle) : Nat := ((handle >>> 2) - 1#64).toNat

def indexToHandle (index : Nat) : Handle := (BitVec.ofNat 64 index + 1#64) <<< 2

/-- An atomic addition to a `LONG64`. -/
def addLong64 (left right : Int) : Int := (left + right).bmod (2 ^ 64)

/-- `value + 1` in unsigned 64-bit arithmetic. -/
def increment64 (value : Nat) : Nat := (value + 1) % 2 ^ 64

namespace ObjectManager

def updateHeader (manager : ObjectManager) (body : Address)
    (change : ObjectHeader → ObjectHeader) : ObjectManager :=
  { manager with
    headers := update manager.headers body (change (manager.headers body)) }

/-- A change to the type of an object, if it has one. -/
def updateType (manager : ObjectManager) (type : Option Nat)
    (change : ObjectType → ObjectType) : ObjectManager :=
  match type with
  | none => manager
  | some type =>
      { manager with types := update manager.types type (change (manager.types type)) }

end ObjectManager

/-- `ObCreateObject`. The pool's answer to the request for header and body is an
argument, given by the address of the body. -/
def obCreateObject (manager : ObjectManager) (type : Option Nat) (name : List WChar)
    (memory : Option Address) : NtStatus × Option Address × ObjectManager :=
  match memory with
  | none => (statusInsufficientResources, none, manager)
  | some body =>
      let header : ObjectHeader := ⟨1, 0, type, name, manager.created⟩
      let created := { manager with
        headers := update manager.headers body header
        namedObjects := if name ≠ [] then manager.namedObjects ++ [body] else manager.namedObjects
        live := manager.live ++ [body]
        created := manager.created + 1 }
      (statusSuccess, some body, created.updateType type fun total =>
        { total with totalNumberOfObjects := increment64 total.totalNumberOfObjects })

def obReferenceObject (manager : ObjectManager) (body : Address) : ObjectManager :=
  manager.updateHeader body fun header =>
    { header with pointerCount := addLong64 header.pointerCount 1 }

/-- The delete path of `ObDereferenceObject`. -/
def deleteObject (manager : ObjectManager) (body : Address) : ObjectManager :=
  let header := manager.headers body
  let procedure := header.type.any fun type => (manager.types type).deleteProcedure
  let deletion : Deletion := ⟨header.ticket, header.pointerCount, procedure⟩
  let deleted := { manager with
    namedObjects :=
      if header.name ≠ [] then manager.namedObjects.erase body else manager.namedObjects
    live := manager.live.erase body
    deletions := manager.deletions ++ [deletion] }
  deleted.updateType header.type fun total =>
    { total with totalNumberOfObjects := decrement64 total.totalNumberOfObjects }

def obDereferenceObject (manager : ObjectManager) (body : Address) :
    Except BugCheck ObjectManager :=
  let count := addLong64 (manager.headers body).pointerCount (-1)
  let dropped := manager.updateHeader body fun header => { header with pointerCount := count }
  if count < 0 then .error .manuallyInitiatedCrash
  else if count = 0 then .ok (deleteObject dropped body)
  else .ok dropped

def obInsertHandle (manager : ObjectManager) (body : Address) :
    NtStatus × Option Handle × ObjectManager :=
  match firstFree obpHandleTableSize manager.handleTable with
  | none => (statusInsufficientResources, none, manager)
  | some index =>
      let inserted := { manager with
        handleTable := update manager.handleTable index (some body) }
      let counted := (obReferenceObject inserted body).updateHeader body fun header =>
        { header with handleCount := addLong64 header.handleCount 1 }
      (statusSuccess, some (indexToHandle index),
        counted.updateType (counted.headers body).type fun total =>
          { total with totalNumberOfHandles := increment64 total.totalNumberOfHandles })

def obReferenceObjectByHandle (manager : ObjectManager) (handle : Handle)
    (expectedType : Option Nat) : Except BugCheck (NtStatus × Option Address × ObjectManager) :=
  if handleToIndex handle ≥ obpHandleTableSize then .ok (statusInvalidHandle, none, manager)
  else
    match manager.handleTable (handleToIndex handle) with
    | none => .ok (statusInvalidHandle, none, manager)
    | some body =>
        let referenced := obReferenceObject manager body
        if expectedType.isSome ∧ (referenced.headers body).type ≠ expectedType then
          (obDereferenceObject referenced body).map fun manager =>
            (statusAccessDenied, none, manager)
        else .ok (statusSuccess, some body, referenced)

def obCloseHandle (manager : ObjectManager) (handle : Handle) :
    Except BugCheck (NtStatus × ObjectManager) :=
  if handleToIndex handle ≥ obpHandleTableSize then .ok (statusInvalidHandle, manager)
  else
    let closed := { manager with
      handleTable := update manager.handleTable (handleToIndex handle) none }
    match manager.handleTable (handleToIndex handle) with
    | none => .ok (statusInvalidHandle, closed)
    | some body =>
        let counted := closed.updateHeader body fun header =>
          { header with handleCount := addLong64 header.handleCount (-1) }
        let totalled := counted.updateType (counted.headers body).type fun total =>
          { total with totalNumberOfHandles := decrement64 total.totalNumberOfHandles }
        (obDereferenceObject totalled body).map fun manager => (statusSuccess, manager)

def obLookupObjectByName (manager : ObjectManager) (name : List WChar) :
    NtStatus × Option Address × ObjectManager :=
  match manager.namedObjects.find? fun body =>
      rtlEqualUnicodeString (manager.headers body).name name with
  | none => (statusObjectNameNotFound, none, manager)
  | some body => (statusSuccess, some body, obReferenceObject manager body)

/-- A holder keeps the body pointer of its reference in a variable: it is the
number of a pointer-sized word of the address space. -/
abbrev Holder := BitVec 61

/-- The object manager, the bodies whose creators have not dropped their
references, and the references taken since and not dropped. -/
structure ObjectSystem where
  manager : ObjectManager
  creators : List Address
  references : List (Holder × Address)

inductive ObjectCall where
  | create (type : Option Nat) (name : List WChar) (memory : Option Address)
  | reference (holder : Holder) (body : Address)
  | dereferenceCreated (body : Address)
  | dereference (holder : Holder)
  | insertHandle (body : Address)
  | referenceByHandle (holder : Holder) (handle : Handle) (expectedType : Option Nat)
  | lookup (holder : Holder) (name : List WChar)
  | close (handle : Handle)
deriving DecidableEq, Repr

namespace ObjectSystem

/-- A holder notes the reference that it was given. -/
def note (system : ObjectSystem) (holder : Holder) (body : Option Address) :
    List (Holder × Address) :=
  match body with
  | none => system.references
  | some body => (holder, body) :: system.references

def holders (system : ObjectSystem) : List Holder := system.references.map Prod.fst

end ObjectSystem

/-- One call. A holder's reference is dropped through the pointer it has kept. -/
def objectCall (system : ObjectSystem) : ObjectCall → Except BugCheck ObjectSystem
  | .create type name memory =>
      let answer := obCreateObject system.manager type name memory
      .ok { system with
        manager := answer.2.2
        creators := answer.2.1.toList ++ system.creators }
  | .reference holder body =>
      .ok { system with
        manager := obReferenceObject system.manager body
        references := (holder, body) :: system.references }
  | .dereferenceCreated body =>
      (obDereferenceObject system.manager body).map fun manager =>
        { system with manager := manager, creators := system.creators.erase body }
  | .dereference holder =>
      match system.references.lookup holder with
      | none => .ok system
      | some body =>
          (obDereferenceObject system.manager body).map fun manager =>
            { system with
              manager := manager
              references := system.references.erase (holder, body) }
  | .insertHandle body =>
      .ok { system with manager := (obInsertHandle system.manager body).2.2 }
  | .referenceByHandle holder handle expectedType =>
      (obReferenceObjectByHandle system.manager handle expectedType).map fun answer =>
        { system with
          manager := answer.2.2
          references := system.note holder answer.2.1 }
  | .lookup holder name =>
      let answer := obLookupObjectByName system.manager name
      .ok { system with
        manager := answer.2.2
        references := system.note holder answer.2.1 }
  | .close handle =>
      (obCloseHandle system.manager handle).map fun answer =>
        { system with manager := answer.2 }

/-- The pool hands out memory that is not in use, references and handles are
asked for objects that exist, and each holder drops only the reference it took. -/
def Disciplined (system : ObjectSystem) : ObjectCall → Prop
  | .create _ _ memory => ∀ body ∈ memory, body ≠ 0 ∧ body ∉ system.manager.live
  | .reference holder body => body ∈ system.manager.live ∧ holder ∉ system.holders
  | .dereferenceCreated body => body ∈ system.creators
  | .dereference holder => holder ∈ system.holders
  | .insertHandle body => body ∈ system.manager.live
  | .referenceByHandle holder _ _ => holder ∉ system.holders
  | .lookup holder _ => holder ∉ system.holders
  | .close _ => True

namespace ObjectManager

/-- What the slots of the handle table hold. -/
def handles (manager : ObjectManager) : List Address :=
  occupants obpHandleTableSize manager.handleTable

/-- The number of slots that hold a body. -/
def slotsHolding (manager : ObjectManager) (body : Address) : Nat :=
  ((List.range obpHandleTableSize).filter fun slot =>
    manager.handleTable slot = some body).length

end ObjectManager

/-- The references that holders have taken to a body. -/
def ObjectSystem.outstanding (system : ObjectSystem) (body : Address) : Nat :=
  (system.references.filter fun reference => reference.2 = body).length

/-- The counts of the live objects and of their types are right. An object lives
exactly as long as its `PointerCount` is not 0, and nothing refers to one that
does not live; each object that was created is live or was deleted once. -/
structure Accounted (system : ObjectSystem) : Prop where
  handleCount : ∀ body ∈ system.manager.live,
    (system.manager.headers body).handleCount = system.manager.slotsHolding body
  pointerCount : ∀ body ∈ system.manager.live,
    (system.manager.headers body).pointerCount =
      (if body ∈ system.creators then 1 else 0) + system.manager.slotsHolding body +
        system.outstanding body
  alive : ∀ body ∈ system.manager.live, 0 < (system.manager.headers body).pointerCount
  slotsLive : ∀ body, 0 < system.manager.slotsHolding body → body ∈ system.manager.live
  creatorsLive : ∀ body ∈ system.creators, body ∈ system.manager.live
  outstandingLive : ∀ body, 0 < system.outstanding body → body ∈ system.manager.live
  deletedAtZero : ∀ deletion ∈ system.manager.deletions, deletion.pointerCount = 0
  deletedOnce : (system.manager.live.map (fun body => (system.manager.headers body).ticket) ++
    system.manager.deletions.map Deletion.ticket).Perm (List.range system.manager.created)
  totalObjects : ∀ type, (system.manager.types type).totalNumberOfObjects =
    (system.manager.live.filter fun body =>
      (system.manager.headers body).type = some type).length
  totalHandles : ∀ type, (system.manager.types type).totalNumberOfHandles =
    ((List.range obpHandleTableSize).filter fun slot =>
      (system.manager.handleTable slot).any fun body =>
        (system.manager.headers body).type = some type).length

end MinNT.Ob
