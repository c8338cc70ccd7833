import MinNT.Lpc.Request

namespace MinNT.Lpc

open List Function Ob HandleTable Transition

variable {system next : LpcSystem} {creators : List Address}
  {references : List (Holder × Address)}

variable {objects after : SystemObjects} {status : NtStatus} {handle : Option Handle}
  {outPortHandle : Bool} {memory : Option Address} {client : Holder}

theorem insertNewObject_ports {body : Address}
    (done : insertNewObject objects body = .ok (status, handle, after)) :
    after.ports = objects.ports := by
  unfold insertNewObject SystemObjects.dereference at done
  generalize obInsertHandle objects.manager body = answer at done
  obtain ⟨inserted, given, manager⟩ := answer
  dsimp only at done
  split at done
  · cases done
    rfl
  cases dropped : obDereferenceObject manager body with
  | error crash =>
    rw [dropped] at done
    cases done
  | ok final =>
    rw [dropped] at done
    cases done
    rfl

theorem ntCreatePort_ports {portName : Option (List Cm.WChar)}
    (done : ntCreatePort objects outPortHandle portName memory = .ok (status, handle, after)) :
    (after.ports = objects.ports ∧ ntSuccess status = false) ∨ ∃ body port, memory = some body ∧
      port.msgQueueHead = none ∧ after.ports = update objects.ports body port := by
  unfold ntCreatePort at done
  split at done
  · cases done
    exact .inl ⟨rfl, by decide⟩
  split at done
  · cases done
    exact .inl ⟨rfl, by decide⟩
  cases memory with
  | none =>
    cases done
    exact .inl ⟨rfl, by decide⟩
  | some body =>
    right
    have ports := insertNewObject_ports done
    exact ⟨body, _, rfl, rfl, ports⟩

theorem insertConnectedPort_ports {serverPort body : Address}
    (done : insertConnectedPort objects serverPort body = .ok (status, handle, after)) :
    after.ports = objects.ports := by
  unfold insertConnectedPort SystemObjects.dereference at done
  generalize obInsertHandle objects.manager body = answer at done
  obtain ⟨inserted, given, manager⟩ := answer
  dsimp only at done
  cases dropClient : obDereferenceObject manager body with
  | error crash =>
    rw [dropClient] at done
    cases done
  | ok middle =>
    rw [dropClient] at done
    dsimp only [Except.map, Except.bind] at done
    cases dropServer : obDereferenceObject middle serverPort with
    | error crash =>
      rw [dropServer] at done
      cases done
    | ok final =>
      rw [dropServer] at done
      cases done
      rfl

theorem connectPorts_client (objects : SystemObjects) {serverPort clientPort : Address}
    (different : serverPort ≠ clientPort) :
    ((connectPorts objects serverPort clientPort).ports clientPort).connectedPort =
        some serverPort ∧
      ((connectPorts objects serverPort clientPort).ports clientPort).msgQueueHead = none := by
  unfold connectPorts
  dsimp only
  split
  · simp [SystemObjects.setPort, Ne.symm different]
  · simp [SystemObjects.setPort]

theorem connectPorts_other {objects : SystemObjects} {serverPort clientPort other : Address}
    (notServer : other ≠ serverPort) (notClient : other ≠ clientPort) :
    (connectPorts objects serverPort clientPort).ports other = objects.ports other := by
  unfold connectPorts
  dsimp only
  split
  · simp [SystemObjects.setPort, notServer, notClient]
  · simp [SystemObjects.setPort, notClient]

theorem connectPorts_queue {objects : SystemObjects} {serverPort clientPort other : Address}
    (notClient : other ≠ clientPort) :
    ((connectPorts objects serverPort clientPort).ports other).msgQueueHead =
      (objects.ports other).msgQueueHead := by
  unfold connectPorts
  dsimp only
  split
  · by_cases server : other = serverPort
    · subst server
      simp [SystemObjects.setPort, notClient]
    · simp [SystemObjects.setPort, server, notClient]
  · simp [SystemObjects.setPort, notClient]

/-- What `NtConnectPort` does to ports: the new one is connected to a server with a
name, the queues of the others stay, and so do ports without a name. -/
theorem ntConnectPort_ports {held : List Address} (accounts : Accounts objects.manager held)
    {serverPortName : Option (List Cm.WChar)}
    (fresh : ∀ body ∈ memory, body ≠ 0 ∧ body ∉ objects.manager.live)
    (done : ntConnectPort objects outPortHandle serverPortName memory =
      .ok (status, handle, after)) :
    (∀ other, memory ≠ some other →
        (after.ports other).msgQueueHead = (objects.ports other).msgQueueHead) ∧
      (∀ other, memory ≠ some other → (objects.manager.headers other).name = [] →
        after.ports other = objects.ports other) ∧
      (ntSuccess status = true → ∀ body ∈ memory, (after.ports body).msgQueueHead = none ∧
        ∃ server ∈ objects.manager.live, (objects.manager.headers server).name ≠ [] ∧
          (after.ports body).connectedPort = some server) := by
  unfold ntConnectPort at done
  split at done
  · cases done
    exact ⟨fun _ _ => rfl, fun _ _ _ => rfl, fun success => absurd success (by decide)⟩
  rename_i name
  split at done
  · cases done
    exact ⟨fun _ _ => rfl, fun _ _ _ => rfl, fun success => absurd success (by decide)⟩
  unfold obLookupObjectByName at done
  cases listed : objects.manager.namedObjects.find? fun body =>
      Cm.rtlEqualUnicodeString (objects.manager.headers body).name name with
  | none =>
    rw [listed] at done
    cases done
    exact ⟨fun _ _ => rfl, fun _ _ _ => rfl, fun success => absurd success (by decide)⟩
  | some serverPort =>
    rw [listed] at done
    dsimp only at done
    have member := mem_of_find?_eq_some listed
    rw [accounts.named, mem_filter] at member
    obtain ⟨live, named⟩ := member
    have nameless : (objects.manager.headers serverPort).name ≠ [] := of_decide_eq_true named
    unfold connectToPort at done
    cases memory with
    | none =>
      dsimp only [obCreateObject, SystemObjects.dereference] at done
      cases dropped : obDereferenceObject (obReferenceObject objects.manager serverPort)
          serverPort with
      | error crash =>
        rw [dropped] at done
        cases done
      | ok final =>
        rw [dropped] at done
        cases done
        exact ⟨fun _ _ => rfl, fun _ _ _ => rfl, fun _ _ given => by cases given⟩
    | some body =>
      have ports := insertConnectedPort_ports done
      have different : serverPort ≠ body := fun equal =>
        (fresh body rfl).2 (equal ▸ live)
      refine ⟨fun other notNew => ?_, fun other notNew unnamed => ?_, fun _ new given => ?_⟩
      · rw [ports]
        exact connectPorts_queue (fun equal => notNew (congrArg some equal.symm))
      · rw [ports]
        exact connectPorts_other (fun equal => nameless (equal ▸ unnamed))
          (fun equal => notNew (congrArg some equal.symm))
      · cases given
        rw [ports]
        exact ⟨(connectPorts_client _ different).2, serverPort, live, nameless,
          (connectPorts_client _ different).1⟩

theorem referenceByHandle_type {manager after : ObjectManager} {handle : Handle} {type : Nat}
    {body : Address}
    (done : obReferenceObjectByHandle manager handle (some type) = .ok (status, some body, after)) :
    (manager.headers body).type = some type := by
  unfold obReferenceObjectByHandle at done
  split at done
  · cases done
  split at done
  · cases done
  rename_i found taken
  dsimp only at done
  split at done
  · cases dropped : obDereferenceObject (obReferenceObject manager found) found with
    | error crash | ok final =>
      rw [dropped] at done
      cases done
  · rename_i agrees
    rw [not_and, not_not] at agrees
    have same := agrees rfl
    rw [(sameObjects_reference manager found).type] at same
    cases done
    exact same

variable {manager : ObjectManager} {after : List (Holder × Address)} {clientPort : Address}

theorem referenceByHandle_denied {held : List Address}
    (accounts : Accounts manager held) (room : Room manager held) {handle : Handle}
    {body : Address} (inside : handleToIndex handle < obpHandleTableSize)
    (taken : manager.handleTable (handleToIndex handle) = some body) {type : Nat}
    (different : (manager.headers body).type ≠ some type) :
    ∃ after, obReferenceObjectByHandle manager handle (some type) =
        .ok (statusAccessDenied, none, after) ∧
      Accounts after held ∧ Evolves manager after [] := by
  have live := accounts.slotsLive body (mem_occupants.mpr ⟨_, inside, taken⟩)
  have same := sameObjects_reference manager body
  obtain ⟨after, dropped, kept⟩ := (accounts.reference live (room body)).dereference
  refine ⟨after, ?_, kept, same.evolves.andThen (evolves_dereference dropped)⟩
  unfold obReferenceObjectByHandle
  rw [if_neg (Nat.not_le_of_lt inside), taken]
  dsimp only
  rw [if_pos ⟨rfl, by rwa [same.type]⟩, dropped]
  rfl

theorem evolves_referenceByHandle {manager after : ObjectManager} {handle : Handle}
    {type : Option Nat} {found : Option Address}
    (done : obReferenceObjectByHandle manager handle type = .ok (status, found, after)) :
    Evolves manager after [] := by
  unfold obReferenceObjectByHandle at done
  split at done
  · cases done
    exact .refl manager
  split at done
  · cases done
    exact .refl manager
  rename_i body taken
  have same := sameObjects_reference manager body
  dsimp only at done
  split at done
  · cases dropped : obDereferenceObject (obReferenceObject manager body) body with
    | error crash =>
      rw [dropped] at done
      cases done
    | ok final =>
      rw [dropped] at done
      cases done
      exact same.evolves.andThen (evolves_dereference dropped)
  · cases done
    exact same.evolves

/-- What is known of a thread: a client holds its port, and nobody is being
served or has a reply. -/
def ThreadSound (system : LpcSystem) (creators : List Address)
    (references : List (Holder × Address)) (thread : Holder) : Prop :=
  match system.threads thread with
  | .idle => thread ∉ references.map Prod.fst
  | .sending clientPort serverPort _ => (thread, clientPort) ∈ references ∧
      (system.objects.manager.headers clientPort).type ≠ none ∧ serverPort ∈ creators
  | .waiting clientPort _ _ _ => (thread, clientPort) ∈ references ∧
      (system.objects.manager.headers clientPort).type ≠ none
  | _ => False

/-- The ports of clients have a type, no name, no messages, and servers that
`NtCreatePort` has made; those have no type, and their creators' references. -/
structure LpcInvariant (system : LpcSystem) (creators : List Address)
    (references : List (Holder × Address)) : Prop where
  accounts : Accounts system.objects.manager (creators ++ references.map Prod.snd)
  once : creators.Nodup
  holders : (references.map Prod.fst).Nodup
  threads : ∀ thread, ThreadSound system creators references thread
  nameless : ∀ body ∈ system.objects.manager.live,
    (system.objects.manager.headers body).type ≠ none →
      (system.objects.manager.headers body).name = []
  queueless : ∀ body ∈ system.objects.manager.live,
    (system.objects.manager.headers body).type ≠ none →
      (system.objects.ports body).msgQueueHead = none
  connected : ∀ body ∈ system.objects.manager.live,
    (system.objects.manager.headers body).type ≠ none →
      ∀ server, (system.objects.ports body).connectedPort = some server → server ∈ creators
  servers : ∀ body ∈ system.objects.manager.live,
    (system.objects.manager.headers body).type = none → body ∈ creators
  untyped : ∀ body ∈ creators, (system.objects.manager.headers body).type = none
  made : ∀ body ∈ system.serverPorts, body ∈ creators
  received : system.received = []
  returned : system.returned = []

theorem LpcInvariant.few (invariant : LpcInvariant system creators references) :
    Few (creators ++ references.map Prod.snd) := by
  intro body
  have creator := nodup_iff_count_le_one.mp invariant.once body
  have holders := length_words_le invariant.holders
  have taken : (references.map Prod.snd).count body ≤ _ := count_le_length
  rw [length_map] at holders taken
  rw [count_append]
  omega

/-- What other threads do keeps a thread's phase sound. -/
theorem ThreadSound.kept {thread : Holder} (sound : ThreadSound system creators references thread)
    {makers : List Address} (same : next.threads thread = system.threads thread)
    (types : ∀ port, (thread, port) ∈ references →
      (next.objects.manager.headers port).type = (system.objects.manager.headers port).type)
    (keeps : ∀ port, (thread, port) ∈ after ↔ (thread, port) ∈ references)
    (grows : creators ⊆ makers) : ThreadSound next makers after thread := by
  unfold ThreadSound at sound ⊢
  rw [same]
  cases phase : system.threads thread with
  | idle =>
    rw [phase] at sound
    intro member
    obtain ⟨⟨_, port⟩, listed, rfl⟩ := List.mem_map.mp member
    exact sound (mem_map_of_mem ((keeps port).mp listed))
  | sending clientPort serverPort queuedMsg =>
    rw [phase] at sound
    obtain ⟨reference, typed, made⟩ := sound
    exact ⟨(keeps clientPort).mpr reference, by rwa [types clientPort reference], grows made⟩
  | waiting clientPort queuedMsg request timeout =>
    rw [phase] at sound
    obtain ⟨reference, typed⟩ := sound
    exact ⟨(keeps clientPort).mpr reference, by rwa [types clientPort reference]⟩
  | replied | replying | receiving | received =>
    rw [phase] at sound
    exact sound

/-- What the invariant says of the objects that a call creates: a port of a client,
or one that `NtCreatePort` has made. -/
structure NewPort (system : LpcSystem) (makers : List Address) (body : Address) : Prop where
  client : (system.objects.manager.headers body).type ≠ none →
    (system.objects.manager.headers body).name = [] ∧
      (system.objects.ports body).msgQueueHead = none ∧
      ∀ server, (system.objects.ports body).connectedPort = some server → server ∈ makers
  server : (system.objects.manager.headers body).type = none → body ∈ makers

section Invariant

variable (invariant : LpcInvariant system creators references)
include invariant

/-- A step that leaves the ports of clients alone, and creates objects that are as
they are to be. -/
theorem LpcInvariant.create {new makers : List Address}
    (fresh : ∀ body ∈ new, body ∉ system.objects.manager.live)
    (evolves : Evolves system.objects.manager next.objects.manager new)
    (accounts : Accounts next.objects.manager (makers ++ after.map Prod.snd))
    (grows : creators ⊆ makers) (once : makers.Nodup) (holders : (after.map Prod.fst).Nodup)
    (threads : ∀ thread, ThreadSound next makers after thread)
    (ports : ∀ body ∈ system.objects.manager.live,
      (system.objects.manager.headers body).type ≠ none →
        next.objects.ports body = system.objects.ports body)
    (newPorts : ∀ body ∈ new, body ∈ next.objects.manager.live → NewPort next makers body)
    (untyped : ∀ body ∈ makers, body ∉ creators → (next.objects.manager.headers body).type = none)
    (made : ∀ body ∈ next.serverPorts, body ∈ system.serverPorts ∨ body ∈ makers)
    (received : next.received = system.received) (returned : next.returned = system.returned) :
    LpcInvariant next makers after := by
  have old : ∀ body ∈ next.objects.manager.live, body ∉ new →
      body ∈ system.objects.manager.live := fun body live notNew =>
    (evolves.born body live).resolve_right notNew
  constructor
  · exact accounts
  · exact once
  · exact holders
  · exact threads
  · intro body live typed
    by_cases isNew : body ∈ new
    · exact ((newPorts body isNew live).client typed).1
    rw [evolves.type body isNew] at typed
    rw [evolves.name body isNew]
    exact invariant.nameless body (old body live isNew) typed
  · intro body live typed
    by_cases isNew : body ∈ new
    · exact ((newPorts body isNew live).client typed).2.1
    rw [evolves.type body isNew] at typed
    rw [ports body (old body live isNew) typed]
    exact invariant.queueless body (old body live isNew) typed
  · intro body live typed server given
    by_cases isNew : body ∈ new
    · exact ((newPorts body isNew live).client typed).2.2 server given
    rw [evolves.type body isNew] at typed
    rw [ports body (old body live isNew) typed] at given
    exact grows (invariant.connected body (old body live isNew) typed server given)
  · intro body live typed
    by_cases isNew : body ∈ new
    · exact (newPorts body isNew live).server typed
    rw [evolves.type body isNew] at typed
    exact grows (invariant.servers body (old body live isNew) typed)
  · intro body member
    by_cases earlier : body ∈ creators
    · have live := invariant.accounts.heldLive body (mem_append_left _ earlier)
      rw [evolves.type body (fun isNew => fresh body isNew live)]
      exact invariant.untyped body earlier
    · exact untyped body member earlier
  · intro body member
    exact (made body member).elim (fun earlier => grows (invariant.made body earlier)) id
  · rw [received]
    exact invariant.received
  · rw [returned]
    exact invariant.returned

theorem LpcInvariant.move (evolves : Evolves system.objects.manager next.objects.manager [])
    (accounts : Accounts next.objects.manager (creators ++ after.map Prod.snd))
    (holders : (after.map Prod.fst).Nodup)
    (threads : ∀ thread, ThreadSound next creators after thread)
    (ports : ∀ body, (system.objects.manager.headers body).type ≠ none →
      next.objects.ports body = system.objects.ports body)
    (made : next.serverPorts = system.serverPorts) (received : next.received = system.received)
    (returned : next.returned = system.returned) : LpcInvariant next creators after := by
  refine invariant.create (fun _ member => absurd member not_mem_nil) evolves accounts
    (List.Subset.refl creators) invariant.once holders threads (fun body _ => ports body)
    (fun _ member => absurd member not_mem_nil)
    (fun _ member notMember => absurd member notMember) ?_ received returned
  intro body member
  rw [made] at member
  exact .inl member

theorem LpcInvariant.withManager (evolves : Evolves system.objects.manager manager [])
    (accounts : Accounts manager (creators ++ references.map Prod.snd)) :
    LpcInvariant { system with objects := { system.objects with manager := manager } } creators
      references :=
  invariant.move evolves accounts invariant.holders
    (fun thread => (invariant.threads thread).kept rfl
      (fun port _ => evolves.type port not_mem_nil) (fun _ => Iff.rfl)
      (List.Subset.refl creators))
    (fun _ _ => rfl) rfl rfl rfl

theorem LpcInvariant.room : Room system.objects.manager (creators ++ references.map Prod.snd) :=
  (invariant.few.room system.objects.manager 0 0).mono.mono

theorem LpcInvariant.receive
    {server : Holder} {portHandle : Handle} {replyMessage : Option (Address × LpcMessage)}
    (onPort : ServerOnPort system (.receive server portHandle replyMessage)) :
    ∃ manager, ntReplyWaitReceivePort system server portHandle replyMessage =
        some (statusAccessDenied,
          { system with objects := { system.objects with manager := manager } }) ∧
      Evolves system.objects.manager manager [] ∧
      LpcInvariant { system with objects := { system.objects with manager := manager } } creators
        references := by
  obtain ⟨inside, body, made, taken⟩ := onPort
  have untyped := invariant.untyped body (invariant.made body made)
  have different : (system.objects.manager.headers body).type ≠ some lpcPortObjectType := by
    rw [untyped]
    exact (Option.some_ne_none _).symm
  obtain ⟨after, denied, accounts, evolves⟩ := referenceByHandle_denied invariant.accounts
    invariant.room inside taken different
  refine ⟨after, ?_, evolves, invariant.withManager evolves accounts⟩
  unfold ntReplyWaitReceivePort
  rw [denied]

end Invariant

theorem setPhase_other (system : LpcSystem) {thread other : Holder} (different : other ≠ thread)
    (phase : LpcPhase) : (system.setPhase thread phase).threads other = system.threads other :=
  update_of_ne different ..

theorem setPhase_self (system : LpcSystem) (thread : Holder) (phase : LpcPhase) :
    (system.setPhase thread phase).threads thread = phase :=
  update_self ..

theorem LpcInvariant.fails (invariant : LpcInvariant system creators references)
    (evolves : Evolves system.objects.manager manager [])
    (accounts : Accounts manager (clientPort :: (creators ++ references.map Prod.snd)))
    {answer : NtStatus × LpcSystem}
    (done : (({ system with objects := { system.objects with manager := manager } } :
      LpcSystem).dereference clientPort).map (fun system => (status, system)) = some answer) :
    LpcInvariant answer.2 creators references := by
  obtain ⟨after, dropped, kept⟩ := accounts.dereference
  rw [LpcSystem.dereference, SystemObjects.dereference, dropped] at done
  cases done
  exact invariant.withManager (evolves.andThen (evolves_dereference dropped)) kept

/-- The whole of a request, up to its wait. -/
theorem LpcInvariant.request (invariant : LpcInvariant system creators references)
    {portHandle : Handle} {requestMessage : Option LpcMessage} {replyMessage : Bool}
    {processId thread : Nat} (idle : system.threads client = .idle) {answer : NtStatus × LpcSystem}
    (done : ntRequestWaitReplyPort system client portHandle requestMessage replyMessage processId
      thread memory = some answer) : ∃ after, LpcInvariant answer.2 creators after := by
  unfold ntRequestWaitReplyPort at done
  split at done
  · cases done
    exact ⟨references, invariant⟩
  split at done
  · cases done
    exact ⟨references, invariant⟩
  obtain ⟨status, found, manager, answered, accounts⟩ := invariant.accounts.referenceByHandle
    invariant.room portHandle (some lpcPortObjectType)
  have evolves := evolves_referenceByHandle answered
  rw [answered] at done
  cases found with
  | none =>
    cases done
    exact ⟨references, invariant.withManager evolves accounts⟩
  | some clientPort =>
    have typed := referenceByHandle_type answered
    dsimp only at done
    split at done
    · exact ⟨references, invariant.fails evolves accounts done⟩
    split at done
    · exact ⟨references, invariant.fails evolves accounts done⟩
    rename_i serverPort connected
    split at done
    · exact ⟨references, invariant.fails evolves accounts done⟩
    cases done
    have types := fun body => evolves.type body not_mem_nil
    have isTyped : (system.objects.manager.headers clientPort).type ≠ none := by
      rw [typed]
      exact Option.some_ne_none _
    have live := (evolves.born clientPort
      (accounts.heldLive clientPort mem_cons_self)).resolve_right not_mem_nil
    have unused := invariant.threads client
    rw [ThreadSound, idle] at unused
    have first : Accounts manager (clientPort :: (creators ++ references.map Prod.snd)) :=
      accounts
    have whole : Accounts manager (creators ++ clientPort :: references.map Prod.snd) :=
      first.perm perm_middle.symm
    refine ⟨(client, clientPort) :: references, invariant.move evolves whole
      (nodup_cons.mpr ⟨unused, invariant.holders⟩)
      (fun other => ?_) (fun _ _ => rfl) rfl rfl rfl⟩
    by_cases same : other = client
    · subst same
      unfold ThreadSound
      rw [setPhase_self]
      exact ⟨mem_cons_self, by rw [← types] at isTyped; exact isTyped,
        invariant.connected clientPort live isTyped serverPort connected⟩
    · refine (invariant.threads other).kept (setPhase_other _ same _) (fun port _ => types port)
        (fun port => ?_) (List.Subset.refl creators)
      rw [mem_cons, Prod.mk.injEq]
      exact or_iff_right (fun equal => same equal.1)

theorem appendMessage_shape {body message : Address}
    (done : appendMessage system body message = some next) :
    ∃ port messages readFreed, next = { system with
      objects := system.objects.setPort body port
      messages := messages
      readFreed := readFreed } := by
  unfold appendMessage at done
  dsimp only at done
  split at done
  · cases done
    exact ⟨_, system.messages, system.readFreed, rfl⟩
  · obtain ⟨visited, _, same⟩ := Option.map_eq_some_iff.mp done
    cases same
    exact ⟨_, _, _, rfl⟩

section Invariant

variable (invariant : LpcInvariant system creators references)
include invariant

theorem LpcInvariant.queueRequest {clientPort serverPort queuedMsg : Address}
    (phase : system.threads client = .sending clientPort serverPort queuedMsg)
    (done : queueRequest system client clientPort serverPort queuedMsg = some next) :
    LpcInvariant next creators references := by
  have sound := invariant.threads client
  rw [ThreadSound, phase] at sound
  obtain ⟨reference, typed, made⟩ := sound
  obtain ⟨queued, appended, same⟩ := Option.map_eq_some_iff.mp done
  obtain ⟨port, messages, readFreed, shape⟩ := appendMessage_shape appended
  subst shape
  cases same
  refine invariant.move (.refl system.objects.manager) invariant.accounts invariant.holders
    ?_ ?_ rfl rfl rfl
  · intro other
    by_cases same : other = client
    · subst same
      unfold ThreadSound
      rw [setPhase_self]
      exact ⟨reference, typed⟩
    · exact (invariant.threads other).kept (setPhase_other _ same _) (fun _ _ => rfl)
        (fun _ => Iff.rfl) (List.Subset.refl creators)
  · intro body isTyped
    have different : body ≠ serverPort := fun equal =>
      isTyped (equal ▸ invariant.untyped serverPort made)
    exact update_of_ne different ..

theorem LpcInvariant.takeMessage (reference : (client, clientPort) ∈ references)
    (typed : (system.objects.manager.headers clientPort).type ≠ none) :
    takeMessage system clientPort = none := by
  have live := invariant.accounts.heldLive clientPort
    (mem_append_right _ (mem_map_of_mem reference))
  unfold Lpc.takeMessage
  dsimp only
  rw [invariant.queueless clientPort live typed]
  rfl

theorem LpcInvariant.dereference (reference : (client, clientPort) ∈ references) :
    ∃ after, obDereferenceObject system.objects.manager clientPort = .ok after ∧
      Accounts after (creators ++ (references.erase (client, clientPort)).map Prod.snd) := by
  have split := perm_cons_erase reference
  have accounts := invariant.accounts.perm
    (((split.map Prod.snd).append_left creators).trans perm_middle)
  exact accounts.dereference

theorem LpcInvariant.pollReply {clientPort queuedMsg : Address} {request timeout : Nat}
    (phase : system.threads client = .waiting clientPort queuedMsg request timeout)
    (done : pollReply system client clientPort queuedMsg request timeout = some next) :
    ∃ after, LpcInvariant next creators after := by
  have sound := invariant.threads client
  rw [ThreadSound, phase] at sound
  obtain ⟨reference, typed⟩ := sound
  unfold Lpc.pollReply at done
  rw [invariant.takeMessage reference typed] at done
  dsimp only at done
  split at done
  · obtain ⟨after, dropped, kept⟩ := invariant.dereference reference
    have split := perm_cons_erase reference
    have evolves := evolves_dereference dropped
    rw [LpcSystem.dereference, SystemObjects.dereference, dropped] at done
    cases done
    refine ⟨references.erase (client, clientPort), invariant.move evolves kept
      (invariant.holders.sublist (erase_sublist.map Prod.fst)) (fun other => ?_)
      (fun _ _ => rfl) rfl rfl rfl⟩
    have once := (split.map Prod.fst).nodup_iff.mp invariant.holders
    by_cases same : other = client
    · subst same
      unfold ThreadSound
      rw [setPhase_self]
      exact (nodup_cons.mp once).1
    · refine (invariant.threads other).kept (setPhase_other _ same _)
        (fun port _ => evolves.type port not_mem_nil) (fun port => ?_)
        (List.Subset.refl creators)
      exact mem_erase_of_ne (fun equal => same (Prod.mk.inj equal).1)
  · cases done
    refine ⟨references, invariant.move (.refl system.objects.manager) invariant.accounts
      invariant.holders (fun other => ?_) (fun _ _ => rfl) rfl rfl rfl⟩
    by_cases same : other = client
    · subst same
      unfold ThreadSound
      rw [setPhase_self]
      exact ⟨reference, typed⟩
    · exact (invariant.threads other).kept (setPhase_other _ same _) (fun _ _ => rfl)
        (fun _ => Iff.rfl) (List.Subset.refl creators)

theorem LpcInvariant.run {thread : Holder}
    (done : runThread system thread = some next) : ∃ after, LpcInvariant next creators after := by
  have sound := invariant.threads thread
  unfold runThread at done
  unfold ThreadSound at sound
  cases phase : system.threads thread with
  | idle =>
    rw [phase] at done
    cases done
  | sending clientPort serverPort queuedMsg =>
    rw [phase] at done
    exact ⟨references, invariant.queueRequest phase done⟩
  | waiting clientPort queuedMsg request timeout =>
    rw [phase] at done
    exact invariant.pollReply phase done
  | replied | replying | receiving | received =>
    rw [phase] at sound
    exact sound.elim

theorem LpcInvariant.heldOld
    {new : List Address} (fresh : ∀ body ∈ new, body ∉ system.objects.manager.live)
    {thread : Holder} {port : Address} (reference : (thread, port) ∈ references) : port ∉ new :=
  fun isNew => fresh port isNew (invariant.accounts.heldLive port
    (mem_append_right _ (mem_map_of_mem reference)))

section Fresh

variable (fresh : ∀ body ∈ memory, body ≠ 0 ∧ body ∉ system.objects.manager.live)
include fresh

/-- A new port has no messages, and its name makes it a server. -/
theorem LpcInvariant.createPort {portName : Option (List Cm.WChar)}
    (done : lpcStep system (.createPort outPortHandle portName memory) = some next) :
    ∃ makers, LpcInvariant next makers references := by
  obtain ⟨status, handle, after, answered, outcome⟩ := ntCreatePort_outcome invariant.accounts
    invariant.few outPortHandle portName fresh
  have shape := ntCreatePort_ports answered
  have ports : ∀ body ∈ system.objects.manager.live, after.ports body =
      system.objects.ports body := by
    intro body live
    rcases shape with ⟨same, _⟩ | ⟨new, port, given, _, same⟩
    · rw [same]
    · have different : body ≠ new := by
        rintro rfl
        exact (fresh body given).2 live
      rw [same]
      exact update_of_ne different ..
  rw [lpcStep, answered] at done
  cases done
  cases outcome with
  | failed failure accounts evolves gone =>
    have unborn : ∀ body ∈ memory.toList, body ∉ system.objects.manager.live :=
      fun body member => (fresh body (Option.mem_toList.mp member)).2
    refine ⟨creators, invariant.create unborn evolves accounts (List.Subset.refl creators)
      invariant.once invariant.holders (fun thread => ?_) (fun body live _ => ports body live)
      (fun body member live => ?_) (fun _ member notMember => absurd member notMember)
      (fun body member => .inl ?_) rfl rfl⟩
    · exact (invariant.threads thread).kept rfl
        (fun port reference => evolves.type port (invariant.heldOld unborn reference))
        (fun _ => Iff.rfl) (List.Subset.refl creators)
    · exact absurd live (gone body (Option.mem_toList.mp member))
    · dsimp only at member
      rwa [failure] at member
  | created body success given accounts evolves live ticket typed named =>
    cases given
    have isFresh := (fresh body rfl).2
    have unborn : ∀ other ∈ [body], other ∉ system.objects.manager.live := by
      intro other member
      rwa [mem_singleton.mp member]
    have notCreator : body ∉ creators := fun member =>
      isFresh (invariant.accounts.heldLive body (mem_append_left _ member))
    have grows := subset_cons_self body creators
    refine ⟨body :: creators, invariant.create unborn evolves accounts grows
      (nodup_cons.mpr ⟨notCreator, invariant.once⟩) invariant.holders (fun thread => ?_)
      (fun body live _ => ports body live) (fun other member _ => ?_)
      (fun other member notOld => ?_) (fun other member => ?_) rfl rfl⟩
    · exact (invariant.threads thread).kept rfl
        (fun port reference => evolves.type port (invariant.heldOld unborn reference))
        (fun _ => Iff.rfl) grows
    · cases mem_singleton.mp member
      exact ⟨fun notNone => absurd typed notNone, fun _ => mem_cons_self⟩
    · cases (mem_cons.mp member).resolve_right notOld
      exact typed
    · dsimp only at member
      rw [success] at member
      rcases mem_cons.mp member with same | earlier
      · exact .inr (same ▸ mem_cons_self)
      · exact .inl earlier

/-- A new port of a client has a server that `NtCreatePort` has made, as no other
object has a name. -/
theorem LpcInvariant.connectPort {serverPortName : Option (List Cm.WChar)}
    (done : lpcStep system (.connectPort outPortHandle serverPortName memory) = some next) :
    LpcInvariant next creators references := by
  obtain ⟨status, handle, after, answered, outcome⟩ := ntConnectPort_outcome invariant.accounts
    invariant.few outPortHandle serverPortName fresh
  obtain ⟨-, unnamed, newPort⟩ := ntConnectPort_ports invariant.accounts fresh answered
  have unborn : ∀ body ∈ memory.toList, body ∉ system.objects.manager.live :=
    fun body member => (fresh body (Option.mem_toList.mp member)).2
  have ports : ∀ body ∈ system.objects.manager.live,
      (system.objects.manager.headers body).type ≠ none →
        after.ports body = system.objects.ports body := by
    intro body live typed
    exact unnamed body (fun given => (fresh body given).2 live) (invariant.nameless body live typed)
  rw [lpcStep, answered] at done
  cases done
  cases outcome with
  | failed failure accounts evolves gone =>
    refine invariant.create unborn evolves accounts (List.Subset.refl creators)
      invariant.once invariant.holders (fun thread => ?_) ports
      (fun body member live => ?_) (fun _ member notMember => absurd member notMember)
      (fun _ member => .inl member) rfl rfl
    · exact (invariant.threads thread).kept rfl
        (fun port reference => evolves.type port (invariant.heldOld unborn reference))
        (fun _ => Iff.rfl) (List.Subset.refl creators)
    · exact absurd live (gone body (Option.mem_toList.mp member))
  | created body success given accounts evolves live ticket typed named =>
    cases given
    obtain ⟨empty, server, serverLive, serverNamed, connected⟩ := newPort success body rfl
    have made : server ∈ creators := by
      refine invariant.servers server serverLive (by_contra fun isTyped => ?_)
      exact serverNamed (invariant.nameless server serverLive isTyped)
    refine invariant.create unborn evolves accounts (List.Subset.refl creators)
      invariant.once invariant.holders (fun thread => ?_) ports
      (fun other member _ => ?_) (fun _ member notMember => absurd member notMember)
      (fun _ member => .inl member) rfl rfl
    · exact (invariant.threads thread).kept rfl
        (fun port reference => evolves.type port (invariant.heldOld unborn reference))
        (fun _ => Iff.rfl) (List.Subset.refl creators)
    · cases mem_singleton.mp member
      refine ⟨fun _ => ⟨named, empty, fun other given => ?_⟩, fun untyped => ?_⟩
      · rw [connected] at given
        cases given
        exact made
      · rw [typed] at untyped
        cases untyped

end Fresh

end Invariant

/-- Every step keeps the references of ports and messages right. -/
theorem LpcInvariant.step (invariant : LpcInvariant system creators references) {label : LpcStep}
    (onPort : ServerOnPort system label) (done : lpcStep system label = some next) :
    ∃ makers after, LpcInvariant next makers after := by
  cases label with
  | createPort outPortHandle portName memory =>
    obtain ⟨makers, kept⟩ := invariant.createPort onPort done
    exact ⟨makers, references, kept⟩
  | connectPort outPortHandle serverPortName memory =>
    exact ⟨creators, references, invariant.connectPort onPort done⟩
  | request client portHandle requestMessage replyMessage processId thread memory =>
    rw [lpcStep] at done
    split at done
    · rename_i idle
      obtain ⟨answer, called, same⟩ := Option.map_eq_some_iff.mp done
      obtain ⟨after, kept⟩ := invariant.request idle called
      rw [same] at kept
      exact ⟨creators, after, kept⟩
    · cases done
  | receive server portHandle replyMessage =>
    obtain ⟨manager, denied, _, kept⟩ := invariant.receive onPort
    rw [lpcStep, denied] at done
    split at done
    · cases done
      exact ⟨creators, references, kept⟩
    · cases done
  | run thread =>
    obtain ⟨after, kept⟩ := invariant.run done
    exact ⟨creators, after, kept⟩

/-- The port system as it starts: nobody has called, over any memory. -/
structure LpcStart (system : LpcSystem) : Prop where
  manager : ∃ memory deleteProcedures,
    system.objects.manager = obInitSystem memory deleteProcedures
  allocated : system.allocated = []
  threads : ∀ thread, system.threads thread = .idle
  serverPorts : system.serverPorts = []
  sent : system.sent = 0
  received : system.received = []
  timedOut : system.timedOut = []
  returned : system.returned = []
  notFreed : system.readFreed = false

theorem LpcStart.invariant (start : LpcStart system) : LpcInvariant system [] [] := by
  obtain ⟨memory, deleteProcedures, manager⟩ := start.manager
  have noObject : ∀ body, body ∉ system.objects.manager.live := by
    rw [manager]
    exact fun _ => not_mem_nil
  constructor
  · rw [manager]
    exact .init memory deleteProcedures
  · exact nodup_nil
  · exact nodup_nil
  · intro thread
    rw [ThreadSound, start.threads thread]
    exact not_mem_nil
  · exact fun body live => absurd live (noObject body)
  · exact fun body live => absurd live (noObject body)
  · exact fun body live => absurd live (noObject body)
  · exact fun body live => absurd live (noObject body)
  · exact fun _ member => absurd member not_mem_nil
  · rw [start.serverPorts]
    exact fun _ member => absurd member not_mem_nil
  · exact start.received
  · exact start.returned

/-- Some creators have not dropped their references, and some threads are in a call. -/
def LpcSound (system : LpcSystem) : Prop :=
  ∃ creators references, LpcInvariant system creators references

theorem LpcSound.step (sound : LpcSound system) {label : LpcStep}
    (onPort : ServerOnPort system label) (done : lpcStep system label = some next) :
    LpcSound next := by
  obtain ⟨creators, references, invariant⟩ := sound
  exact invariant.step onPort done

theorem LpcStart.sound {start : LpcSystem} (initial : LpcStart start)
    (run : Reaches lpcStep ServerOnPort start system) : LpcSound system :=
  run.invariant ⟨[], [], initial.invariant⟩ (fun _ _ _ sound onPort done =>
    sound.step onPort done)

end MinNT.Lpc
