import MinNT.Lpc.RequestInvariant

namespace MinNT.Lpc

open List Function Ob Transition

variable {system next : LpcSystem} {creators : List Address}
  {references : List (Holder × Address)}

/-- What is on the queues of the ports is allocated, and so is what a client is
about to queue. No client has given up. -/
structure MessagesKept (system : LpcSystem) : Prop where
  queued : ∀ body ∈ system.objects.manager.live,
    ∀ head ∈ (system.objects.ports body).msgQueueHead, head ∈ system.allocated
  linked : ∀ message ∈ system.allocated,
    ∀ next ∈ (system.messages message).next, next ∈ system.allocated
  sending : ∀ thread clientPort serverPort queuedMsg,
    system.threads thread = .sending clientPort serverPort queuedMsg →
      queuedMsg ∈ system.allocated
  notFreed : system.readFreed = false
  timedOut : system.timedOut = []

theorem walkQueue_allocated {messages : Address → LpcMessage} {allocated : List Address}
    (linked : ∀ message ∈ allocated, ∀ next ∈ (messages message).next, next ∈ allocated)
    {fuel : Nat} {head : Address} (present : head ∈ allocated) {visited : List Address}
    (walked : walkQueue messages fuel head = some visited) :
    ∀ message ∈ visited, message ∈ allocated := by
  induction fuel generalizing head visited with
  | zero => cases walked
  | succ fuel ih =>
    rw [walkQueue] at walked
    split at walked
    · cases walked
      intro message member
      rwa [mem_singleton.mp member]
    · rename_i next follows
      obtain ⟨rest, walkedRest, same⟩ := Option.map_eq_some_iff.mp walked
      subst same
      intro message member
      rcases mem_cons.mp member with first | later
      · rwa [first]
      · exact ih (linked head present next follows) walkedRest message later

theorem reads_allocated {visited : List Address}
    (present : ∀ message ∈ visited, message ∈ system.allocated) :
    system.reads visited = system := by
  have none : (visited.any fun message => message ∉ system.allocated) = false := by
    rw [any_eq_false]
    intro message member freed
    exact of_decide_eq_true freed (present message member)
  rw [LpcSystem.reads, none, Bool.or_false]

theorem MessagesKept.move (kept : MessagesKept system)
    (memory : next.messages = system.messages) (blocks : next.allocated = system.allocated)
    (ports : ∀ body ∈ next.objects.manager.live,
      body ∈ system.objects.manager.live ∧
          (next.objects.ports body).msgQueueHead = (system.objects.ports body).msgQueueHead ∨
        (next.objects.ports body).msgQueueHead = none)
    (threads : ∀ thread clientPort serverPort queuedMsg,
      next.threads thread = .sending clientPort serverPort queuedMsg →
        system.threads thread = .sending clientPort serverPort queuedMsg)
    (reads : next.readFreed = system.readFreed) (gaveUp : next.timedOut = system.timedOut) :
    MessagesKept next := by
  constructor
  · intro body live head isHead
    rw [blocks]
    rcases ports body live with ⟨earlier, same⟩ | empty
    · rw [same] at isHead
      exact kept.queued body earlier head isHead
    · rw [empty] at isHead
      cases isHead
  · rw [blocks, memory]
    exact kept.linked
  · intro thread clientPort serverPort queuedMsg phase
    rw [blocks]
    exact kept.sending thread clientPort serverPort queuedMsg
      (threads thread clientPort serverPort queuedMsg phase)
  · rw [reads]
    exact kept.notFreed
  · rw [gaveUp]
    exact kept.timedOut

theorem MessagesKept.setPhase (kept : MessagesKept system) (thread : Holder) {phase : LpcPhase}
    (queues : ∀ clientPort serverPort queuedMsg,
      phase = .sending clientPort serverPort queuedMsg → queuedMsg ∈ system.allocated) :
    MessagesKept (system.setPhase thread phase) := by
  refine ⟨kept.queued, kept.linked, ?_, kept.notFreed, kept.timedOut⟩
  intro other clientPort serverPort queuedMsg sending
  by_cases same : other = thread
  · rw [same, setPhase_self] at sending
    exact queues clientPort serverPort queuedMsg sending
  · rw [setPhase_other _ same] at sending
    exact kept.sending other clientPort serverPort queuedMsg sending

theorem MessagesKept.allocate (kept : MessagesKept system) {message : Address}
    {written : LpcMessage} (last : written.next = none) :
    MessagesKept { system with
      messages := update system.messages message written
      allocated := message :: system.allocated } := by
  refine ⟨fun body live head isHead => mem_cons_of_mem _ (kept.queued body live head isHead),
    fun other present next isNext => ?_, fun thread clientPort serverPort queuedMsg sending =>
      mem_cons_of_mem _ (kept.sending thread clientPort serverPort queuedMsg sending),
    kept.notFreed, kept.timedOut⟩
  dsimp only at isNext present
  by_cases same : other = message
  · rw [same, update_self, last] at isNext
    cases isNext
  · rw [update_of_ne same] at isNext
    have earlier := (mem_cons.mp present).resolve_left same
    exact mem_cons_of_mem _ (kept.linked other earlier next isNext)

/-- A message that is allocated and linked to nothing, or to what is allocated, may
be written. -/
theorem MessagesKept.write (kept : MessagesKept system) {message : Address}
    {written : LpcMessage} (follows : ∀ next ∈ written.next, next ∈ system.allocated) :
    MessagesKept { system with messages := update system.messages message written } := by
  refine ⟨kept.queued, fun other present next isNext => ?_, kept.sending, kept.notFreed,
    kept.timedOut⟩
  dsimp only at isNext
  by_cases same : other = message
  · rw [same, update_self] at isNext
    exact follows next isNext
  · rw [update_of_ne same] at isNext
    exact kept.linked other present next isNext

theorem MessagesKept.append (kept : MessagesKept system) {body message : Address}
    (live : body ∈ system.objects.manager.live) (present : message ∈ system.allocated)
    (done : appendMessage system body message = some next) : MessagesKept next := by
  unfold appendMessage at done
  dsimp only at done
  split at done
  · cases done
    refine ⟨fun other otherLive head isHead => ?_, kept.linked, kept.sending, kept.notFreed,
      kept.timedOut⟩
    unfold LpcSystem.setPort SystemObjects.setPort at isHead
    dsimp only at isHead
    by_cases same : other = body
    · rw [same, update_self] at isHead
      cases isHead
      exact present
    · rw [update_of_ne same] at isHead
      exact kept.queued other otherLive head isHead
  · rename_i head isHead
    obtain ⟨visited, walked, same⟩ := Option.map_eq_some_iff.mp done
    have allocated := walkQueue_allocated kept.linked (kept.queued body live head isHead) walked
    rw [reads_allocated allocated] at same
    cases same
    have linked : MessagesKept (system.setNext (visited.getLast?.getD head) (some message)) :=
      kept.write (fun next isNext => by
        cases isNext
        exact present)
    refine linked.move rfl rfl (fun other otherLive => .inl ⟨otherLive, ?_⟩)
      (fun _ _ _ _ => id) rfl rfl
    unfold LpcSystem.setPort SystemObjects.setPort
    dsimp only
    by_cases same : other = body
    · rw [same, update_self]
      rfl
    · rw [update_of_ne same]

theorem dereference_shape {body : Address} (done : system.dereference body = some next) :
    ∃ manager, Evolves system.objects.manager manager [] ∧
      next = { system with objects := { system.objects with manager := manager } } := by
  unfold LpcSystem.dereference SystemObjects.dereference at done
  cases dropped : obDereferenceObject system.objects.manager body with
  | error crash =>
    rw [dropped] at done
    cases done
  | ok after =>
    rw [dropped] at done
    cases done
    exact ⟨after, evolves_dereference dropped, rfl⟩

variable {client : Holder} {start : LpcSystem}

/-- A request is refused, or queued at the server's port. -/
theorem ntRequestWaitReplyPort_shape {portHandle : Handle}
    {requestMessage : Option LpcMessage} {replyMessage : Bool} {processId thread : Nat}
    {memory : Option Address} {answer : NtStatus × LpcSystem}
    (done : ntRequestWaitReplyPort system client portHandle requestMessage replyMessage processId
      thread memory = some answer) :
    ∃ manager, Evolves system.objects.manager manager [] ∧
      (answer.2 = { system with objects := { system.objects with manager := manager } } ∨
        ∃ clientPort serverPort queuedMsg message, message.next = none ∧
          answer.2 = { system with
            objects := { system.objects with manager := manager }
            messages := update system.messages queuedMsg message
            allocated := queuedMsg :: system.allocated }.setPhase client
              (.sending clientPort serverPort queuedMsg)) := by
  have unchanged := Evolves.refl system.objects.manager
  unfold ntRequestWaitReplyPort at done
  split at done
  · cases done
    exact ⟨_, unchanged, .inl rfl⟩
  split at done
  · cases done
    exact ⟨_, unchanged, .inl rfl⟩
  split at done
  · cases done
  · rename_i status manager answered
    cases done
    exact ⟨manager, evolves_referenceByHandle answered, .inl rfl⟩
  rename_i clientPort manager answered
  have evolves := evolves_referenceByHandle answered
  have fails : ∀ status, ((({ system with
      objects := { system.objects with manager := manager } } : LpcSystem).dereference
        clientPort).map fun system => (status, system)) = some answer →
      ∃ after, Evolves system.objects.manager after [] ∧
        answer.2 = { system with objects := { system.objects with manager := after } } := by
    intro status failed
    obtain ⟨final, dropped, same⟩ := Option.map_eq_some_iff.mp failed
    obtain ⟨after, later, shape⟩ := dereference_shape dropped
    subst same
    exact ⟨after, evolves.andThen later, shape⟩
  dsimp only at done
  split at done
  · obtain ⟨after, whole, shape⟩ := fails _ done
    exact ⟨after, whole, .inl shape⟩
  split at done
  · obtain ⟨after, whole, shape⟩ := fails _ done
    exact ⟨after, whole, .inl shape⟩
  rename_i serverPort connected
  split at done
  · obtain ⟨after, whole, shape⟩ := fails _ done
    exact ⟨after, whole, .inl shape⟩
  cases done
  exact ⟨manager, evolves, .inr ⟨clientPort, serverPort, _, _, rfl, rfl⟩⟩

section Kept

variable (kept : MessagesKept system)
include kept

theorem MessagesKept.withManager {manager : ObjectManager}
    (evolves : Evolves system.objects.manager manager []) :
    MessagesKept { system with objects := { system.objects with manager := manager } } :=
  kept.move rfl rfl (fun body live => .inl
    ⟨(evolves.born body live).resolve_right not_mem_nil, rfl⟩) (fun _ _ _ _ => id) rfl rfl

theorem MessagesKept.created {objects : SystemObjects} {held : List Address} {type : Option Nat}
    {name : List Cm.WChar} {memory : Option Address} {leaves : Bool} {status : NtStatus}
    (outcome : Outcome system.objects.manager held type name memory leaves status objects.manager)
    (old : ∀ body ∈ system.objects.manager.live,
      (objects.ports body).msgQueueHead = (system.objects.ports body).msgQueueHead)
    (new : ntSuccess status = true → ∀ body ∈ memory, (objects.ports body).msgQueueHead = none)
    (serverPorts : List Address) :
    MessagesKept { system with objects := objects, serverPorts := serverPorts } := by
  refine kept.move rfl rfl (fun body live => ?_) (fun _ _ _ _ => id) rfl rfl
  cases outcome with
  | failed failure accounts evolves gone =>
    rcases evolves.born body live with earlier | isNew
    · exact .inl ⟨earlier, old body earlier⟩
    · exact absurd live (gone body (Option.mem_toList.mp isNew))
  | created made success given accounts evolves _ ticket typed named =>
    rcases evolves.born body live with earlier | isNew
    · exact .inl ⟨earlier, old body earlier⟩
    · rw [mem_singleton.mp isNew]
      exact .inr (new success made given)

/-- Calls of clients and server keep queued messages allocated. -/
theorem MessagesKept.call (invariant : LpcInvariant system creators references) {label : LpcStep}
    (onPort : ServerOnPort system label) (calls : ∀ thread, label ≠ .run thread)
    (done : lpcStep system label = some next) : MessagesKept next := by
  cases label with
  | createPort outPortHandle portName memory =>
    obtain ⟨status, handle, after, answered, outcome⟩ := ntCreatePort_outcome
      invariant.accounts invariant.few outPortHandle portName onPort
    have shape := ntCreatePort_ports answered
    rw [lpcStep, answered] at done
    cases done
    refine kept.created outcome (fun body live => ?_) (fun success body given => ?_) _
    · rcases shape with ⟨same, _⟩ | ⟨new, port, given, _, same⟩
      · rw [same]
      · have different : body ≠ new := by
          rintro rfl
          exact (onPort body given).2 live
        rw [same, update_of_ne different]
    · rcases shape with ⟨_, failure⟩ | ⟨new, port, isNew, empty, same⟩
      · rw [failure] at success
        cases success
      · cases given.symm.trans isNew
        rw [same, update_self]
        exact empty
  | connectPort outPortHandle serverPortName memory =>
    obtain ⟨status, handle, after, answered, outcome⟩ := ntConnectPort_outcome
      invariant.accounts invariant.few outPortHandle serverPortName onPort
    obtain ⟨queues, -, newPort⟩ := ntConnectPort_ports invariant.accounts onPort answered
    rw [lpcStep, answered] at done
    cases done
    exact kept.created outcome
      (fun body live => queues body (fun given => (onPort body given).2 live))
      (fun success body given => (newPort success body given).1) _
  | request client portHandle requestMessage replyMessage processId thread memory =>
    rw [lpcStep] at done
    split at done
    · obtain ⟨answer, called, same⟩ := Option.map_eq_some_iff.mp done
      obtain ⟨manager, evolves, shape⟩ := ntRequestWaitReplyPort_shape called
      subst same
      rcases shape with failed | ⟨clientPort, serverPort, queuedMsg, message, last, sent⟩
      · rw [failed]
        exact kept.withManager evolves
      · rw [sent]
        refine ((kept.withManager evolves).allocate last).setPhase client ?_
        intro _ _ _ same
        cases same
        exact mem_cons_self
    · cases done
  | receive server portHandle replyMessage =>
    obtain ⟨manager, denied, evolves, _⟩ := invariant.receive onPort
    rw [lpcStep, denied] at done
    split at done
    · cases done
      exact kept.withManager evolves
    · cases done
  | run thread => exact absurd rfl (calls thread)

theorem MessagesKept.queueRequest (invariant : LpcInvariant system creators references)
    {clientPort serverPort queuedMsg : Address}
    (phase : system.threads client = .sending clientPort serverPort queuedMsg)
    (done : queueRequest system client clientPort serverPort queuedMsg = some next) :
    MessagesKept next := by
  have sound := invariant.threads client
  rw [ThreadSound, phase] at sound
  have live := invariant.accounts.heldLive serverPort (mem_append_left _ sound.2.2)
  have present := kept.sending client clientPort serverPort queuedMsg phase
  obtain ⟨queued, appended, same⟩ := Option.map_eq_some_iff.mp done
  subst same
  have written : MessagesKept { system with
      messages := update system.messages queuedMsg
        { system.messages queuedMsg with request := system.sent } } :=
    kept.write (kept.linked queuedMsg present)
  have numbered : MessagesKept { system with
      messages := update system.messages queuedMsg
        { system.messages queuedMsg with request := system.sent }
      sent := system.sent + 1 } :=
    ⟨written.queued, written.linked, written.sending, written.notFreed, written.timedOut⟩
  exact (numbered.append live present appended).setPhase client (fun _ _ _ same => by cases same)

end Kept

theorem pollReply_empty {clientPort queuedMsg : Address}
    {request timeout : Nat} (empty : takeMessage system clientPort = none) :
    pollReply system client clientPort queuedMsg request timeout =
      if timeout > 10000 then
        (system.dereference clientPort).map fun system =>
          { system.free queuedMsg with
            timedOut := system.timedOut ++ [request] }.setPhase client .idle
      else some (system.setPhase client (.waiting clientPort queuedMsg request (timeout + 1))) := by
  rw [pollReply, empty]

theorem MessagesKept.run (kept : MessagesKept system)
    (invariant : LpcInvariant system creators references) {thread : Holder}
    (noTimeout : NoTimeout system (.run thread)) (done : runThread system thread = some next) :
    MessagesKept next := by
  have sound := invariant.threads thread
  unfold runThread at done
  unfold ThreadSound at sound
  cases phase : system.threads thread with
  | idle =>
    rw [phase] at done
    cases done
  | sending clientPort serverPort queuedMsg =>
    rw [phase] at done
    exact kept.queueRequest invariant phase done
  | waiting clientPort queuedMsg request timeout =>
    rw [phase] at done sound
    obtain ⟨reference, typed⟩ := sound
    have empty := invariant.takeMessage reference typed
    have inTime := noTimeout.2 clientPort queuedMsg request timeout phase
      (Option.map_eq_none_iff.mp empty)
    dsimp only at done
    rw [pollReply_empty empty, if_neg (Nat.not_lt.mpr inTime)] at done
    cases done
    exact kept.setPhase thread (fun _ _ _ same => by cases same)
  | replied | replying | receiving | received =>
    rw [phase] at sound
    exact sound.elim

/-- Every step without a timeout keeps the messages. -/
theorem MessagesKept.step (kept : MessagesKept system)
    (invariant : LpcInvariant system creators references) {label : LpcStep}
    (noTimeout : NoTimeout system label) (done : lpcStep system label = some next) :
    MessagesKept next := by
  cases label with
  | run thread => exact kept.run invariant noTimeout done
  | createPort | connectPort | request | receive =>
    exact kept.call invariant noTimeout.1 (fun _ same => by cases same) done

/-- A step that times out is recorded. -/
theorem LpcInvariant.timedOut (invariant : LpcInvariant system creators references)
    {label : LpcStep} (onPort : ServerOnPort system label)
    (done : lpcStep system label = some next) :
    next.timedOut = system.timedOut ∧ NoTimeout system label ∨ next.timedOut ≠ [] := by
  cases label with
  | createPort outPortHandle portName memory | connectPort outPortHandle serverPortName memory =>
    obtain ⟨_, _, same⟩ := Option.map_eq_some_iff.mp done
    subst same
    exact .inl ⟨rfl, onPort, trivial⟩
  | request client portHandle requestMessage replyMessage processId thread memory =>
    rw [lpcStep] at done
    split at done
    · obtain ⟨answer, called, same⟩ := Option.map_eq_some_iff.mp done
      obtain ⟨manager, _, shape⟩ := ntRequestWaitReplyPort_shape called
      subst same
      left
      rcases shape with failed | ⟨_, _, _, _, _, sent⟩
      · rw [failed]
        exact ⟨rfl, onPort, trivial⟩
      · rw [sent]
        exact ⟨rfl, onPort, trivial⟩
    · cases done
  | receive server portHandle replyMessage =>
    obtain ⟨manager, denied, _⟩ := invariant.receive onPort
    rw [lpcStep, denied] at done
    split at done
    · cases done
      exact .inl ⟨rfl, onPort, trivial⟩
    · cases done
  | run thread =>
    have sound := invariant.threads thread
    rw [lpcStep, runThread] at done
    unfold ThreadSound at sound
    cases phase : system.threads thread with
    | idle =>
      rw [phase] at done
      cases done
    | sending clientPort serverPort queuedMsg =>
      rw [phase] at done
      obtain ⟨queued, appended, same⟩ := Option.map_eq_some_iff.mp done
      obtain ⟨port, messages, readFreed, shape⟩ := appendMessage_shape appended
      subst shape
      subst same
      refine .inl ⟨rfl, onPort, fun _ _ _ _ waits => ?_⟩
      rw [phase] at waits
      cases waits
    | waiting clientPort queuedMsg request timeout =>
      rw [phase] at done sound
      dsimp only at done
      rw [pollReply_empty (invariant.takeMessage sound.1 sound.2)] at done
      split at done
      · obtain ⟨dropped, _, same⟩ := Option.map_eq_some_iff.mp done
        subst same
        exact .inr (append_ne_nil_of_right_ne_nil _ (cons_ne_nil request []))
      · rename_i inTime
        cases done
        refine .inl ⟨rfl, onPort, fun _ _ _ _ waits _ => ?_⟩
        rw [phase] at waits
        cases waits
        exact Nat.le_of_not_lt inTime
    | replied | replying | receiving | received =>
      rw [phase] at sound
      exact sound.elim

theorem LpcStart.messages (start : LpcStart system) : MessagesKept system := by
  obtain ⟨memory, deleteProcedures, manager⟩ := start.manager
  refine ⟨fun body live => ?_, fun message present => ?_, fun thread _ _ _ sending => ?_,
    start.notFreed, start.timedOut⟩
  · rw [manager] at live
    cases live
  · rw [start.allocated] at present
    cases present
  · rw [start.threads thread] at sending
    cases sending

theorem reaches_onPort (run : Reaches lpcStep NoTimeout start system) :
    Reaches lpcStep ServerOnPort start system :=
  run.mono fun _ _ noTimeout => noTimeout.1

theorem LpcStart.kept (initial : LpcStart start)
    (run : Reaches lpcStep NoTimeout start system) : MessagesKept system := by
  induction run with
  | start => exact initial.messages
  | step before noTimeout done ih =>
    obtain ⟨creators, references, invariant⟩ := initial.sound (reaches_onPort before)
    exact ih.step invariant noTimeout done

theorem LpcStart.noTimeout (initial : LpcStart start)
    (run : Reaches lpcStep ServerOnPort start system) :
    Reaches lpcStep NoTimeout start system ∨ system.timedOut ≠ [] := by
  induction run with
  | start => exact .inl .start
  | step before onPort done ih =>
    obtain ⟨creators, references, invariant⟩ := initial.sound before
    rcases invariant.timedOut onPort done with ⟨same, noTimeout⟩ | gaveUp
    · rw [same]
      exact ih.imp_left (fun reached => .step reached noTimeout done)
    · exact .inr gaveUp

theorem LpcInvariant.not_matched (invariant : LpcInvariant system creators references)
    (gaveUp : system.timedOut ≠ []) : ¬ Matched system := by
  intro matched
  obtain ⟨request, member⟩ := exists_mem_of_ne_nil _ gaveUp
  have received := matched.complete request (.inl member)
  rw [invariant.received] at received
  cases received

/-- Nothing is ever received. So requests and replies match in the runs in which
no client has waited for 10 seconds, where every request is still waiting, and in
no others. -/
theorem requests_matched (start system : LpcSystem) (initial : LpcStart start)
    (run : Reaches lpcStep ServerOnPort start system) :
    system.received = [] ∧ (Matched system ↔ Reaches lpcStep NoTimeout start system) := by
  obtain ⟨creators, references, invariant⟩ := initial.sound run
  refine ⟨invariant.received, fun matched => ?_, fun inTime => ?_⟩
  · exact (initial.noTimeout run).resolve_right
      (fun gaveUp => invariant.not_matched gaveUp matched)
  · have kept := initial.kept inTime
    constructor
    · rw [invariant.received]
      exact nil_prefix
    · rw [kept.timedOut, invariant.returned]
      intro request member
      exact (member.elim not_mem_nil not_mem_nil).elim
    · rw [invariant.returned]
      exact fun _ member => absurd member not_mem_nil
    · exact kept.notFreed

/-- Memory of zeros. -/
def LpcSystem.zeroed : LpcSystem where
  objects := ⟨obInitSystem (fun _ => ⟨0, 0, none, [], 0⟩) (fun _ => false), fun _ => ⟨0, false⟩,
    fun _ => ⟨0, [], none, none, false, 0⟩⟩
  messages := fun _ => ⟨0, 0, 0, [], none, none, 0⟩
  allocated := []
  threads := fun _ => .idle
  serverPorts := []
  sent := 0
  received := []
  timedOut := []
  returned := []
  readFreed := false

theorem zeroed_start : LpcStart .zeroed :=
  ⟨⟨_, _, rfl⟩, rfl, fun _ => rfl, rfl, rfl, rfl, rfl, rfl, rfl⟩

theorem walkQueue_last {messages : Address → LpcMessage} {last : Address}
    (ends : (messages last).next = none) : walkQueue messages pointerSteps last = some [last] := by
  have steps : pointerSteps = 18446744073709551615 + 1 := by rw [pointerSteps]; rfl
  rw [steps, walkQueue, ends]

/-- A request goes behind the one message that is queued. -/
theorem reaches_behind (run : Reaches lpcStep NoTimeout start system) {client : Holder}
    {clientPort serverPort queuedMsg head : Address}
    (phase : system.threads client = .sending clientPort serverPort queuedMsg)
    (other : head ≠ queuedMsg) (first : (system.objects.ports serverPort).msgQueueHead = some head)
    (ends : (system.messages head).next = none) :
    ∃ next, Reaches lpcStep NoTimeout start next ∧ next.sent = system.sent + 1 := by
  have noTimeout : NoTimeout system (.run client) :=
    ⟨trivial, fun _ _ _ _ waits => by rw [phase] at waits; cases waits⟩
  have turn : ∀ {next}, lpcStep system (.run client) = some next →
      Reaches lpcStep NoTimeout start next := run.step noTimeout
  rw [lpcStep, runThread, phase] at turn
  dsimp only [queueRequest, appendMessage] at turn
  rw [first] at turn
  dsimp only at turn
  rw [walkQueue_last (by rwa [update_of_ne other])] at turn
  exact ⟨_, turn rfl, rfl⟩

/-- A further client sends a request on a port on which one is queued. -/
theorem reaches_second (run : Reaches lpcStep NoTimeout start system) {client : Holder}
    {portHandle : Handle} {status : NtStatus} {manager : ObjectManager}
    {clientPort serverPort queuedMsg head : Address} (idle : system.threads client = .idle)
    (referenced : obReferenceObjectByHandle system.objects.manager portHandle
      (some lpcPortObjectType) = .ok (status, some clientPort, manager))
    (typed : (system.objects.ports clientPort).type = lpcPortType)
    (connected : (system.objects.ports clientPort).connectedPort = some serverPort)
    (fresh : queuedMsg ∉ system.allocated) (other : head ≠ queuedMsg)
    (first : (system.objects.ports serverPort).msgQueueHead = some head)
    (ends : (system.messages head).next = none) :
    ∃ next, Reaches lpcStep NoTimeout start next ∧ next.sent = system.sent + 1 := by
  have noTimeout : NoTimeout system (.request client portHandle
      (some ⟨1, 0, 0, [8], none, none, 0⟩) true 2 2 (some queuedMsg)) :=
    ⟨fun message same => by
      obtain rfl := Option.some.inj same
      exact fresh, trivial⟩
  have sent : ∀ {next}, lpcStep system (.request client portHandle
      (some ⟨1, 0, 0, [8], none, none, 0⟩) true 2 2 (some queuedMsg)) = some next →
      Reaches lpcStep NoTimeout start next := run.step noTimeout
  rw [lpcStep, if_pos idle, ntRequestWaitReplyPort, referenced] at sent
  simp only [reduceCtorEq, if_false] at sent
  rw [if_neg (not_not.mpr typed), connected] at sent
  dsimp only at sent
  have sending := sent rfl
  apply @reaches_behind _ _ sending client clientPort serverPort queuedMsg head
    (update_self ..) other first
  exact (congrArg LpcMessage.next (update_of_ne other ..)).trans ends

set_option maxRecDepth 4096 in
theorem zeroed_waits : ∃ system, Reaches lpcStep NoTimeout .zeroed system ∧
    system.sent = 1 ∧ system.threads 5#61 = .waiting 16#64 24#64 0 0 ∧
    ∃ later, Reaches lpcStep NoTimeout .zeroed later ∧ later.sent = 2 := by
  have initial : Reaches lpcStep NoTimeout .zeroed _ := .start
  have created := initial.step
    (show NoTimeout _ (.createPort true (some [0x61#16]) (some 8#64)) from
      ⟨fun body same => by
        cases same
        exact ⟨by decide, not_mem_nil⟩, trivial⟩) rfl
  have connected := created.step
    (show NoTimeout _ (.connectPort true (some [0x61#16]) (some 16#64)) from
      ⟨fun body same => by
        cases same
        exact ⟨by decide, fun member => absurd (mem_singleton.mp member) (by decide)⟩, trivial⟩) rfl
  have requested := connected.step
    (show NoTimeout _ (.request 5#61 8#64 (some ⟨1, 0, 0, [7], none, none, 0⟩) true 1 1
      (some 24#64)) from ⟨fun message _ => not_mem_nil, trivial⟩) rfl
  have queued := requested.step (show NoTimeout _ (.run 5#61) from
    ⟨trivial, fun _ _ _ _ waits => by cases waits⟩) rfl
  refine ⟨_, queued, rfl, rfl, ?_⟩
  have fresh : 32#64 ∉ [24#64] := by decide
  exact @reaches_second _ _ queued 6#61 8#64 _ _ 16#64 8#64 32#64 24#64 rfl rfl rfl rfl fresh
    (by decide) rfl rfl

/-- Two requests that are still waiting are matched. -/
theorem requests_matched_waiting : ∃ system : LpcSystem, system.sent = 2 ∧ Matched system := by
  obtain ⟨_, _, _, _, system, run, sent⟩ := zeroed_waits
  exact ⟨system, sent, (requests_matched .zeroed system zeroed_start
    (reaches_onPort run)).2.mpr run⟩

theorem LpcStart.polls {start : LpcSystem} (initial : LpcStart start) {client : Holder}
    {clientPort queuedMsg : Address} {request timeout : Nat}
    (run : Reaches lpcStep ServerOnPort start system)
    (phase : system.threads client = .waiting clientPort queuedMsg request timeout) :
    ∃ next, Reaches lpcStep ServerOnPort start next ∧ next.sent = system.sent ∧
      if timeout > 10000 then request ∈ next.timedOut
      else next.threads client = .waiting clientPort queuedMsg request (timeout + 1) := by
  obtain ⟨creators, references, invariant⟩ := initial.sound run
  have sound := invariant.threads client
  rw [ThreadSound, phase] at sound
  obtain ⟨reference, typed⟩ := sound
  have turn : ∀ {next}, lpcStep system (.run client) = some next →
      Reaches lpcStep ServerOnPort start next := run.step trivial
  rw [lpcStep, runThread, phase] at turn
  dsimp only at turn
  rw [pollReply_empty (invariant.takeMessage reference typed)] at turn
  split
  · rename_i late
    obtain ⟨after, dropped, _⟩ := invariant.dereference reference
    rw [if_pos late, LpcSystem.dereference, SystemObjects.dereference, dropped] at turn
    exact ⟨_, turn rfl, rfl, mem_append_right _ mem_cons_self⟩
  · rename_i inTime
    rw [if_neg inTime] at turn
    exact ⟨_, turn rfl, rfl, setPhase_self ..⟩

/-- A request that waits can time out. -/
theorem LpcStart.givesUp (initial : LpcStart start) {clientPort queuedMsg : Address}
    {request timeout : Nat} (run : Reaches lpcStep ServerOnPort start system)
    (phase : system.threads client = .waiting clientPort queuedMsg request timeout) :
    ∃ last, Reaches lpcStep ServerOnPort start last ∧ last.sent = system.sent ∧
      request ∈ last.timedOut := by
  -- on the turns that are left
  induction left : 10001 - timeout generalizing system timeout with
  | zero =>
    obtain ⟨next, reached, sent, outcome⟩ := initial.polls run phase
    rw [if_pos (by omega)] at outcome
    exact ⟨next, reached, sent, outcome⟩
  | succ left ih =>
    obtain ⟨next, reached, sent, outcome⟩ := initial.polls run phase
    rw [if_neg (by omega)] at outcome
    obtain ⟨last, reachedLast, sentLast, gaveUp⟩ := ih reached outcome (by omega)
    exact ⟨last, reachedLast, sentLast.trans sent, gaveUp⟩

/-- A request whose client gives up after 10 seconds is not received. -/
theorem request_timesOut : ∃ system, Reaches lpcStep ServerOnPort .zeroed system ∧
    system.sent = 1 ∧ 0 ∈ system.timedOut ∧ system.received = [] ∧ ¬ Matched system := by
  obtain ⟨waiting, run, sent, phase, _⟩ := zeroed_waits
  obtain ⟨last, reached, same, gaveUp⟩ := zeroed_start.givesUp (reaches_onPort run) phase
  obtain ⟨creators, references, invariant⟩ := zeroed_start.sound reached
  exact ⟨last, reached, same.trans sent, gaveUp, invariant.received,
    invariant.not_matched (ne_nil_of_mem gaveUp)⟩

end MinNT.Lpc
