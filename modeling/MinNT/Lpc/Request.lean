import MinNT.Ob.HandleLifetime

namespace MinNT.Lpc

open Function Ob Transition

/-- `LPC_MESSAGE`. The request tells messages apart: it is the number of requests
queued before this one, or before the one that a reply answers. -/
structure LpcMessage where
  messageType : Nat
  processId : Nat
  messageId : Nat
  data : List UInt8
  senderPort : Option Address
  next : Option Address
  request : Nat
deriving DecidableEq, Repr

/-- Where a thread is in `NtRequestWaitReplyPort` or `NtReplyWaitReceivePort`. It
is named by the variable in which it keeps its referenced port. -/
inductive LpcPhase where
  | idle
  /-- The message has been copied and is not queued yet. -/
  | sending (clientPort serverPort queuedMsg : Address)
  | waiting (clientPort queuedMsg : Address) (request timeout : Nat)
  | replied (clientPort replyMsg : Address) (request : Nat)
  | replying (serverPort : Address) (replyMsg : Option Address)
  | receiving (serverPort : Address) (timeout : Nat)
  | received (serverPort incomingMsg : Address)
deriving DecidableEq, Repr

/-- The objects with their ports, the memory of the messages and which of its
blocks are allocated, the threads, and the ports that `NtCreatePort` has made.
Further, the number of requests queued, those received, those that timed out,
and those whose calls returned, with the request that the reply was for; and
whether a message on a queue was read after its memory was freed. -/
structure LpcSystem where
  objects : SystemObjects
  messages : Address → LpcMessage
  allocated : List Address
  threads : Holder → LpcPhase
  serverPorts : List Address
  sent : Nat
  received : List Nat
  timedOut : List Nat
  returned : List (Nat × Nat)
  readFreed : Bool

namespace LpcSystem

def setPhase (system : LpcSystem) (thread : Holder) (phase : LpcPhase) : LpcSystem :=
  { system with threads := update system.threads thread phase }

def setPort (system : LpcSystem) (body : Address) (port : LpcPort) : LpcSystem :=
  { system with objects := system.objects.setPort body port }

def setNext (system : LpcSystem) (message : Address) (next : Option Address) : LpcSystem :=
  { system with
    messages := update system.messages message
      { system.messages message with next := next } }

/-- `ObDereferenceObject`; there is no state behind a failed `ASSERT`. -/
def dereference (system : LpcSystem) (body : Address) : Option LpcSystem :=
  (system.objects.dereference body).toOption.map fun objects => { system with objects := objects }

/-- `ExFreePoolWithTag`. -/
def free (system : LpcSystem) (message : Address) : LpcSystem :=
  { system with allocated := system.allocated.erase message }

/-- Messages on a queue are read. -/
def reads (system : LpcSystem) (visited : List Address) : LpcSystem :=
  { system with
    readFreed := system.readFreed || visited.any fun message => message ∉ system.allocated }

end LpcSystem

/-- `while (last->Next) last = last->Next;` gives the messages read, the last one
at the end. `none` is a walk that does not end. -/
def walkQueue (messages : Address → LpcMessage) : Nat → Address → Option (List Address)
  | 0, _ => none
  | fuel + 1, last =>
      match (messages last).next with
      | none => some [last]
      | some next => (walkQueue messages fuel next).map fun visited => last :: visited

/-- A locked section that appends a message to the queue of a port. -/
def appendMessage (system : LpcSystem) (body message : Address) : Option LpcSystem :=
  let port := system.objects.ports body
  match port.msgQueueHead with
  | none => some (system.setPort body { port with msgQueueHead := some message, msgEvent := true })
  | some head =>
      (walkQueue system.messages pointerSteps head).map fun visited =>
        ((system.reads visited).setNext (visited.getLast?.getD head) (some message)).setPort body
          { port with msgEvent := true }

/-- A locked section that takes the first message of a port, if there is one. -/
def takeMessage (system : LpcSystem) (body : Address) : Option (Address × LpcSystem) :=
  let port := system.objects.ports body
  port.msgQueueHead.map fun message =>
    (message, ((system.reads [message]).setPort body
      { port with msgQueueHead := (system.messages message).next }).setNext message none)

/-- The call up to the point where the message is to be queued, or its failure.
`memory` is the pool's answer to the request for a block. -/
def ntRequestWaitReplyPort (system : LpcSystem) (client : Holder) (portHandle : Handle)
    (requestMessage : Option LpcMessage) (replyMessage : Bool) (processId thread : Nat)
    (memory : Option Address) : Option (NtStatus × LpcSystem) :=
  match requestMessage with
  | none => some (statusInvalidParameter, system)
  | some msg =>
      if replyMessage = false then some (statusInvalidParameter, system)
      else
        match obReferenceObjectByHandle system.objects.manager portHandle
            (some lpcPortObjectType) with
        | .error _ => none
        | .ok (status, none, manager) =>
            some (status, { system with objects := { system.objects with manager := manager } })
        | .ok (_, some clientPort, manager) =>
            let referenced :=
              { system with objects := { system.objects with manager := manager } }
            let port := referenced.objects.ports clientPort
            let fails status := (referenced.dereference clientPort).map fun system =>
              (status, system)
            if port.type ≠ lpcPortType then fails statusInvalidHandle
            else
              match port.connectedPort with
              | none => fails statusPortDisconnected
              | some serverPort =>
                  match memory with
                  | none => fails statusNoMemory
                  | some queuedMsg =>
                      let message : LpcMessage := { msg with
                        senderPort := some clientPort
                        next := none
                        processId := processId
                        messageId := thread
                        request := 0 }
                      some (statusSuccess, { referenced with
                        messages := update referenced.messages queuedMsg message
                        allocated := queuedMsg :: referenced.allocated }.setPhase client
                          (.sending clientPort serverPort queuedMsg))

/-- The message is queued to the server, and its request gets its number. -/
def queueRequest (system : LpcSystem) (client : Holder)
    (clientPort serverPort queuedMsg : Address) : Option LpcSystem :=
  let numbered := { system with
    messages := update system.messages queuedMsg
      { system.messages queuedMsg with request := system.sent }
    sent := system.sent + 1 }
  (appendMessage numbered serverPort queuedMsg).map fun queued =>
    queued.setPhase client (.waiting clientPort queuedMsg system.sent 0)

/-- One turn of the loop that waits for the reply. -/
def pollReply (system : LpcSystem) (client : Holder) (clientPort queuedMsg : Address)
    (request timeout : Nat) : Option LpcSystem :=
  match takeMessage system clientPort with
  | some (replyMsg, taken) => some (taken.setPhase client (.replied clientPort replyMsg request))
  | none =>
      if timeout > 10000 then
        (system.dereference clientPort).map fun system =>
          { system.free queuedMsg with
            timedOut := system.timedOut ++ [request] }.setPhase client .idle
      else some (system.setPhase client (.waiting clientPort queuedMsg request (timeout + 1)))

/-- The reply is copied to the caller and freed. -/
def takeReply (system : LpcSystem) (client : Holder) (clientPort replyMsg : Address)
    (request : Nat) : Option LpcSystem :=
  let read := system.reads [replyMsg]
  ((read.free replyMsg).dereference clientPort).map fun system =>
    { system with
      returned := system.returned ++ [(request, (system.messages replyMsg).request)] }.setPhase
        client .idle

/-- The call up to its reply. A reply is in memory of the server's own. -/
def ntReplyWaitReceivePort (system : LpcSystem) (server : Holder) (portHandle : Handle)
    (replyMessage : Option (Address × LpcMessage)) : Option (NtStatus × LpcSystem) :=
  match obReferenceObjectByHandle system.objects.manager portHandle (some lpcPortObjectType) with
  | .error _ => none
  | .ok (status, none, manager) =>
      some (status, { system with objects := { system.objects with manager := manager } })
  | .ok (_, some serverPort, manager) =>
      let referenced := { system with objects := { system.objects with manager := manager } }
      if (referenced.objects.ports serverPort).type ≠ lpcPortType then
        (referenced.dereference serverPort).map fun system => (statusInvalidHandle, system)
      else
        match replyMessage with
        | none => some (statusSuccess, referenced.setPhase server (.replying serverPort none))
        | some (replyMsg, reply) =>
            some (statusSuccess, { referenced with
              messages := update referenced.messages replyMsg reply
              allocated := replyMsg :: referenced.allocated }.setPhase server
                (.replying serverPort (some replyMsg)))

/-- The reply is queued to the port of its client. -/
def sendReply (system : LpcSystem) (server : Holder) (serverPort : Address)
    (replyMsg : Option Address) : Option LpcSystem :=
  match replyMsg.bind fun replyMsg => (system.messages replyMsg).senderPort with
  | none => some (system.setPhase server (.receiving serverPort 0))
  | some clientPort =>
      (appendMessage system clientPort (replyMsg.getD 0)).map fun system =>
        system.setPhase server (.receiving serverPort 0)

/-- One turn of the loop that waits for a request. -/
def pollRequest (system : LpcSystem) (server : Holder) (serverPort : Address) (timeout : Nat) :
    Option LpcSystem :=
  match takeMessage system serverPort with
  | some (incomingMsg, taken) => some (taken.setPhase server (.received serverPort incomingMsg))
  | none =>
      if timeout > 30000 then
        (system.dereference serverPort).map fun system => system.setPhase server .idle
      else some (system.setPhase server (.receiving serverPort (timeout + 1)))

/-- The request is copied to the server and freed. -/
def takeRequest (system : LpcSystem) (server : Holder) (serverPort incomingMsg : Address) :
    Option LpcSystem :=
  let read := system.reads [incomingMsg]
  ((read.free incomingMsg).dereference serverPort).map fun system =>
    { system with
      received := system.received ++ [(system.messages incomingMsg).request] }.setPhase server .idle

inductive LpcStep where
  | createPort (outPortHandle : Bool) (portName : Option (List Cm.WChar))
      (memory : Option Address)
  | connectPort (outPortHandle : Bool) (serverPortName : Option (List Cm.WChar))
      (memory : Option Address)
  | request (client : Holder) (portHandle : Handle) (requestMessage : Option LpcMessage)
      (replyMessage : Bool) (processId thread : Nat) (memory : Option Address)
  | receive (server : Holder) (portHandle : Handle) (replyMessage : Option (Address × LpcMessage))
  | run (thread : Holder)
deriving DecidableEq, Repr

/-- The next locked section, or the last one, of a thread. -/
def runThread (system : LpcSystem) (thread : Holder) : Option LpcSystem :=
  match system.threads thread with
  | .idle => none
  | .sending clientPort serverPort queuedMsg =>
      queueRequest system thread clientPort serverPort queuedMsg
  | .waiting clientPort queuedMsg request timeout =>
      pollReply system thread clientPort queuedMsg request timeout
  | .replied clientPort replyMsg request => takeReply system thread clientPort replyMsg request
  | .replying serverPort replyMsg => sendReply system thread serverPort replyMsg
  | .receiving serverPort timeout => pollRequest system thread serverPort timeout
  | .received serverPort incomingMsg => takeRequest system thread serverPort incomingMsg

def lpcStep (system : LpcSystem) : LpcStep → Option LpcSystem
  | .createPort outPortHandle portName memory =>
      (ntCreatePort system.objects outPortHandle portName memory).toOption.map fun answer =>
        { system with
          objects := answer.2.2
          serverPorts :=
            if ntSuccess answer.1 then memory.toList ++ system.serverPorts
            else system.serverPorts }
  | .connectPort outPortHandle serverPortName memory =>
      (ntConnectPort system.objects outPortHandle serverPortName memory).toOption.map
        fun answer => { system with objects := answer.2.2 }
  | .request client portHandle requestMessage replyMessage processId thread memory =>
      if system.threads client = .idle then
        (ntRequestWaitReplyPort system client portHandle requestMessage replyMessage processId
          thread memory).map Prod.snd
      else none
  | .receive server portHandle replyMessage =>
      if system.threads server = .idle then
        (ntReplyWaitReceivePort system server portHandle replyMessage).map Prod.snd
      else none
  | .run thread => runThread system thread

/-- The requests are received in the order in which they were queued, each once,
and none is left out whose call has returned; the replies are for the requests
they are returned with; and no message was read on a queue behind its free. -/
structure Matched (system : LpcSystem) : Prop where
  inOrder : system.received <+: List.range system.sent
  complete : ∀ request, request ∈ system.timedOut ∨ request ∈ system.returned.map Prod.fst →
    request ∈ system.received
  ownReply : ∀ answer ∈ system.returned, answer.2 = answer.1
  notFreed : system.readFreed = false

/-- The pool hands out memory that is not in use, and the server calls on a port
that `NtCreatePort` has made. -/
def ServerOnPort (system : LpcSystem) : LpcStep → Prop
  | .createPort _ _ memory | .connectPort _ _ memory =>
      ∀ body ∈ memory, body ≠ 0 ∧ body ∉ system.objects.manager.live
  | .request _ _ _ _ _ _ memory => ∀ message ∈ memory, message ∉ system.allocated
  | .receive _ portHandle _ => handleToIndex portHandle < obpHandleTableSize ∧
      ∃ body ∈ system.serverPorts,
        system.objects.manager.handleTable (handleToIndex portHandle) = some body
  | .run _ => True

/-- And no client that finds no reply has waited for its 10 seconds. -/
def NoTimeout (system : LpcSystem) (step : LpcStep) : Prop :=
  ServerOnPort system step ∧
    match step with
    | .run thread =>
        ∀ clientPort queuedMsg request timeout,
          system.threads thread = .waiting clientPort queuedMsg request timeout →
          (system.objects.ports clientPort).msgQueueHead = none → timeout ≤ 10000
    | _ => True

end MinNT.Lpc
