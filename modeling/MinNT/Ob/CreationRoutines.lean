import MinNT.Ob.ObjectAccounting

namespace MinNT.Ob

open Cm (WChar)

/-- `KEVENT`: the type of the event and its signal state. -/
structure KEvent where
  type : Nat
  signaled : Bool
deriving DecidableEq, Repr

def synchronizationEvent : Nat := 1

/-- `LPC_PORT`. The queue is given by its first message, and of `MsgEvent` the
signal state is kept. -/
structure LpcPort where
  type : Nat
  name : List WChar
  connectedPort : Option Address
  msgQueueHead : Option Address
  msgEvent : Bool
  flags : Nat
deriving DecidableEq, Repr

def lpcPortType : Nat := 0x4C50
def lpcPortFlagNeverDisconnect : Nat := 0x00000001

/-- `LpcPortObjectType`, the second of the types that `ObInitSystem` creates. -/
def lpcPortObjectType : Nat := 1

/-- The object manager, and the memory of the bodies as the routines read it. -/
structure SystemObjects where
  manager : ObjectManager
  events : Address → KEvent
  ports : Address → LpcPort

namespace SystemObjects

def setPort (objects : SystemObjects) (body : Address) (port : LpcPort) : SystemObjects :=
  { objects with ports := Function.update objects.ports body port }

def setEvent (objects : SystemObjects) (body : Address) (event : KEvent) : SystemObjects :=
  { objects with events := Function.update objects.events body event }

/-- `ObDereferenceObject` on one of the objects. -/
def dereference (objects : SystemObjects) (body : Address) : Except BugCheck SystemObjects :=
  (obDereferenceObject objects.manager body).map fun manager =>
    { objects with manager := manager }

end SystemObjects

/-- The end of `NtCreateEvent` and `NtCreatePort`: a handle for the new object,
which loses its creator's reference if there is no room for the handle. -/
def insertNewObject (objects : SystemObjects) (body : Address) :
    Except BugCheck (NtStatus × Option Handle × SystemObjects) :=
  let (status, handle, manager) := obInsertHandle objects.manager body
  let inserted := { objects with manager := manager }
  if ntSuccess status then .ok (status, handle, inserted)
  else (inserted.dereference body).map fun objects => (status, none, objects)

/-- `NtCreateEvent`. The inner option is the `ObjectName` of the attributes;
`memory` is the pool's answer to `ObCreateObject`. -/
def ntCreateEvent (objects : SystemObjects) (eventHandle : Bool)
    (objectAttributes : Option (Option (List WChar))) (eventType : Nat) (initialState : Bool)
    (memory : Option Address) : Except BugCheck (NtStatus × Option Handle × SystemObjects) :=
  if eventHandle = false then .ok (statusInvalidParameter, none, objects)
  else if eventType > synchronizationEvent then .ok (statusInvalidParameter, none, objects)
  else
    let name := (objectAttributes.bind id).getD []
    match obCreateObject objects.manager none name memory with
    | (status, none, manager) => .ok (status, none, { objects with manager := manager })
    | (_, some event, manager) =>
        let created := { objects with manager := manager }
        insertNewObject (created.setEvent event ⟨eventType, initialState⟩) event

def ntCreatePort (objects : SystemObjects) (outPortHandle : Bool)
    (portName : Option (List WChar)) (memory : Option Address) :
    Except BugCheck (NtStatus × Option Handle × SystemObjects) :=
  match portName with
  | none => .ok (statusInvalidParameter, none, objects)
  | some name =>
      if outPortHandle = false then .ok (statusInvalidParameter, none, objects)
      else
        match obCreateObject objects.manager none name memory with
        | (status, none, manager) => .ok (status, none, { objects with manager := manager })
        | (_, some port, manager) =>
            let created := { objects with manager := manager }
            insertNewObject (created.setPort port
              { type := lpcPortType
                name := name
                connectedPort := none
                msgQueueHead := none
                msgEvent := false
                flags := 0 }) port

/-- The fields of both ports: the client's port gets its server, and a server
without a client gets this one. -/
def connectPorts (objects : SystemObjects) (serverPort clientPort : Address) : SystemObjects :=
  let client := objects.setPort clientPort
    { objects.ports clientPort with
      type := lpcPortType
      connectedPort := some serverPort
      msgQueueHead := none
      msgEvent := false
      flags := lpcPortFlagNeverDisconnect }
  let server := client.ports serverPort
  if server.connectedPort = none then
    client.setPort serverPort { server with connectedPort := some clientPort }
  else client

/-- The end of `NtConnectPort`: a handle for the client's port, whose creator's
reference is dropped whether or not there is room for the handle. -/
def insertConnectedPort (objects : SystemObjects) (serverPort clientPort : Address) :
    Except BugCheck (NtStatus × Option Handle × SystemObjects) :=
  let (status, handle, manager) := obInsertHandle objects.manager clientPort
  (({ objects with manager := manager }).dereference clientPort).bind fun objects =>
    (objects.dereference serverPort).map fun objects => (status, handle, objects)

/-- `NtConnectPort` with the server's port looked up. -/
def connectToPort (objects : SystemObjects) (serverPort : Address) (memory : Option Address) :
    Except BugCheck (NtStatus × Option Handle × SystemObjects) :=
  match obCreateObject objects.manager (some lpcPortObjectType) [] memory with
  | (status, none, manager) =>
      (({ objects with manager := manager }).dereference serverPort).map fun objects =>
        (status, none, objects)
  | (_, some clientPort, manager) =>
      insertConnectedPort (connectPorts { objects with manager := manager } serverPort clientPort)
        serverPort clientPort

def ntConnectPort (objects : SystemObjects) (outPortHandle : Bool)
    (serverPortName : Option (List WChar)) (memory : Option Address) :
    Except BugCheck (NtStatus × Option Handle × SystemObjects) :=
  match serverPortName with
  | none => .ok (statusInvalidParameter, none, objects)
  | some name =>
      if outPortHandle = false then .ok (statusInvalidParameter, none, objects)
      else
        match obLookupObjectByName objects.manager name with
        | (status, none, manager) => .ok (status, none, { objects with manager := manager })
        | (_, some serverPort, manager) =>
            connectToPort { objects with manager := manager } serverPort memory

end MinNT.Ob
