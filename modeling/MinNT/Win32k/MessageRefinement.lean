import MinNT.Lib.Transition
import MinNT.Win32k.MessageQueue

namespace MinNT.Win32k

open Function Transition

/-- A post appends its message exactly if the queue is not full. -/
def listPost (capacity : Nat) (list : List W32kMsg) (msg : W32kMsg) : NtStatus × List W32kMsg :=
  if list.length < capacity then (statusSuccess, list ++ [msg])
  else (statusInsufficientResources, list)

/-- The first message that matches, and the list without exactly that message. -/
def listFind (list : List W32kMsg) (accepts : W32kMsg → Bool) (remove : Bool) :
    Option (W32kMsg × List W32kMsg) :=
  (list.find? accepts).map fun msg => (msg, if remove then list.eraseP accepts else list)

/-- What the calls on the system message queue do to a list of messages. -/
def listCall (list : List W32kMsg) : QueueCall → Option MsgReply × List W32kMsg
  | .post hWnd posted keTickCount =>
      let result := listPost w32MsgqueueSize list
        ⟨hWnd, posted.msg, posted.wParam, posted.lParam, keTickCount, ⟨0, 0⟩⟩
      (some (result.1, none), result.2)
  | .peek out filter removeMsg =>
      if out then
        match listFind list filter.accepts (decide (removeMsg &&& pmRemove ≠ 0)) with
        | none => (some (statusNoMoreEntries, none), list)
        | some (msg, list) => (some (statusSuccess, some msg), list)
      else (some (statusInvalidParameter, none), list)
  | .get out filter =>
      if out then
        match listFind list filter.accepts true with
        | none => (none, list)
        | some (msg, list) => (some (statusSuccess, some msg), list)
      else (some (statusInvalidParameter, none), list)

/-- A call on the thread queues, and the `pt` that a post finds in its slot. -/
abbrev DetailedCall := ThreadCall × W32kPoint

/-- What the calls on the thread queues do to a table of lists. -/
def listThreadCall (lists : ThreadQueues (List W32kMsg)) :
    DetailedCall → Option MsgReply × ThreadQueues (List W32kMsg)
  | (.post threadId posted keTickCount, pt) =>
      match queueFindOrCreate [] lists threadId true with
      | none => (some (statusInsufficientResources, none), lists)
      | some (slot, lists) =>
          let result := listPost queueSize (lists slot).messages
            ⟨0, posted.msg, posted.wParam, posted.lParam, keTickCount, pt⟩
          (some (result.1, none), lists.setMessages slot result.2)
  | (.get threadId out msgFilterMin msgFilterMax, _) =>
      if out then
        match queueFindOrCreate [] lists threadId false with
        | none => (some (statusNotFound, none), lists)
        | some (slot, lists) =>
            match listFind (lists slot).messages (threadAccepts msgFilterMin msgFilterMax) true with
            | none => (none, lists)
            | some (msg, messages) =>
                (some (statusSuccess, some msg), lists.setMessages slot messages)
      else (some (statusInvalidParameter, none), lists)
  | (.destroy threadId, _) =>
      match queueFindOrCreate [] lists threadId false with
      | none => (some (statusSuccess, none), lists)
      | some (slot, lists) =>
          (some (statusSuccess, none),
            update lists slot { lists slot with inUse := false, messages := [] })

/-- `Head`, `Tail` and `Count` are in order, and the ring holds the list. -/
structure Represents (capacity : Nat) (ring : MsgRing) (list : List W32kMsg) : Prop where
  contents : ring.contents capacity = list
  count : ring.count ≤ capacity
  head : ring.head < capacity
  tail : ring.tail = (ring.head + ring.count) % capacity

section Ring

variable {capacity : Nat} {ring : MsgRing} {list : List W32kMsg}

theorem Represents.sound (holds : Represents capacity ring list) : RingBuffer.Sound capacity ring :=
  ⟨holds.head, holds.count, holds.tail⟩

theorem represents_of_sound (sound : RingBuffer.Sound capacity ring)
    (contents : ring.contents capacity = list) : Represents capacity ring list :=
  ⟨contents, sound.count, sound.head, sound.tail⟩

theorem Represents.length (holds : Represents capacity ring list) : list.length = ring.count := by
  rw [← holds.contents, RingBuffer.length_contents]

theorem represents_zero (positive : 0 < capacity) : Represents capacity zeroRing [] :=
  represents_of_sound (RingBuffer.sound_empty positive _) (RingBuffer.contents_empty _ _ _)

theorem Represents.post (holds : Represents capacity ring list) (write : W32kMsg → W32kMsg) :
    (ring.push capacity write = none ∧
        listPost capacity list (write (ring.slots ring.tail)) =
          (statusInsufficientResources, list)) ∨
      ∃ after, ring.push capacity write = some after ∧
        Represents capacity after (list ++ [write (ring.slots ring.tail)]) ∧
        listPost capacity list (write (ring.slots ring.tail)) =
          (statusSuccess, list ++ [write (ring.slots ring.tail)]) := by
  unfold listPost
  rw [holds.length]
  by_cases room : ring.count < capacity
  · right
    obtain ⟨after, pushed, sound, contents⟩ := RingBuffer.push_room write holds.sound room
    rw [holds.contents] at contents
    exact ⟨after, pushed, represents_of_sound sound contents, if_pos room⟩
  · left
    exact ⟨RingBuffer.push_full write (Nat.le_of_not_lt room), if_neg room⟩

theorem Represents.find (holds : Represents capacity ring list) (accepts : W32kMsg → Bool)
    (remove : Bool) :
    (ring.find capacity accepts remove = none ∧ listFind list accepts remove = none) ∨
      ∃ msg after list', ring.find capacity accepts remove = some (msg, after) ∧
        listFind list accepts remove = some (msg, list') ∧ Represents capacity after list' := by
  unfold listFind
  rcases RingBuffer.find_spec accepts remove holds.sound with
    ⟨missing, absent⟩ | ⟨msg, after, found, present, sound, contents⟩
  · left
    rw [holds.contents] at absent
    rw [absent]
    exact ⟨missing, rfl⟩
  · right
    rw [holds.contents] at present contents
    rw [present]
    exact ⟨msg, after, _, found, rfl, represents_of_sound sound contents⟩

end Ring

/-- One call on a ring does what it does on a list. -/
theorem queueCall_simulates {queue : MsgRing} {list : List W32kMsg}
    (holds : Represents w32MsgqueueSize queue list) (call : QueueCall) :
    (queueCall queue call).1 = (listCall list call).1 ∧
      Represents w32MsgqueueSize (queueCall queue call).2 (listCall list call).2 := by
  cases call with
  | post hWnd posted keTickCount =>
    simp only [queueCall, listCall, win32kQueuePostMessage]
    rcases holds.post
        (fun _ => ⟨hWnd, posted.msg, posted.wParam, posted.lParam, keTickCount, ⟨0, 0⟩⟩) with
      ⟨full, same⟩ | ⟨after, pushed, later, same⟩
    · rw [full, same]
      exact ⟨rfl, holds⟩
    · rw [pushed, same]
      exact ⟨rfl, later⟩
  | peek out filter removeMsg =>
    simp only [queueCall, listCall, userPeekMessage, win32kMsgQueueFind]
    cases out with
    | false => exact ⟨rfl, holds⟩
    | true =>
      rcases holds.find filter.accepts (decide (removeMsg &&& pmRemove ≠ 0)) with
        ⟨missing, absent⟩ | ⟨msg, after, list', found, present, later⟩
      · simp only [missing, absent]
        exact ⟨rfl, holds⟩
      · simp only [found, present]
        exact ⟨rfl, later⟩
  | get out filter =>
    simp only [queueCall, listCall, userGetMessage, win32kMsgQueueFind]
    cases out with
    | false => exact ⟨rfl, holds⟩
    | true =>
      rcases holds.find filter.accepts true with
        ⟨missing, absent⟩ | ⟨msg, after, list', found, present, later⟩
      · simp only [missing, absent]
        exact ⟨rfl, holds⟩
      · simp only [found, present]
        exact ⟨rfl, later⟩

/-- The slots of two tables agree, and each ring in use holds its list. -/
def TableRepresents (queues : ThreadQueues MsgRing) (lists : ThreadQueues (List W32kMsg)) : Prop :=
  ∀ slot, (queues slot).threadId = (lists slot).threadId ∧
    (queues slot).inUse = (lists slot).inUse ∧
    ((queues slot).inUse = true →
      Represents queueSize (queues slot).messages (lists slot).messages)

theorem setMessages_self {γ : Type} (queues : ThreadQueues γ) (slot : Nat) :
    queues.setMessages slot (queues slot).messages = queues :=
  update_eq_self slot queues

section Table

variable {queues : ThreadQueues MsgRing} {lists : ThreadQueues (List W32kMsg)}

section Holds

variable (holds : TableRepresents queues lists)
include holds

theorem TableRepresents.setMessages (slot : Nat)
    {ring : MsgRing} {list : List W32kMsg} (later : Represents queueSize ring list) :
    TableRepresents (queues.setMessages slot ring) (lists.setMessages slot list) := by
  intro other
  unfold ThreadQueues.setMessages
  by_cases same : other = slot
  · subst same
    simp only [update_self]
    exact ⟨(holds other).1, (holds other).2.1, fun _ => later⟩
  · simp only [update_of_ne same]
    exact holds other

theorem TableRepresents.create (slot : Nat) (threadId : UInt32) :
    TableRepresents (update queues slot ⟨threadId, zeroRing, true⟩)
      (update lists slot ⟨threadId, [], true⟩) := by
  intro other
  by_cases same : other = slot
  · subst same
    simp only [update_self]
    exact ⟨trivial, trivial, fun _ => represents_zero (by decide)⟩
  · simp only [update_of_ne same]
    exact holds other

theorem TableRepresents.findOrCreate (threadId : UInt32) (create : Bool) :
    (queueFindOrCreate zeroRing queues threadId create = none ∧
        queueFindOrCreate [] lists threadId create = none) ∨
      ∃ slot queues' lists', queueFindOrCreate zeroRing queues threadId create =
          some (slot, queues') ∧
        queueFindOrCreate [] lists threadId create = some (slot, lists') ∧
        TableRepresents queues' lists' ∧ (queues' slot).inUse = true := by
  have slots : (fun slot => (queues slot).inUse && decide ((queues slot).threadId = threadId)) =
      fun slot => (lists slot).inUse && decide ((lists slot).threadId = threadId) := by
    funext slot
    rw [(holds slot).1, (holds slot).2.1]
  have free : (fun slot => !(queues slot).inUse) = fun slot => !(lists slot).inUse := by
    funext slot
    rw [(holds slot).2.1]
  unfold queueFindOrCreate
  rw [slots, free]
  cases found : (List.range maxThreadQueues).find? fun slot =>
      (lists slot).inUse && decide ((lists slot).threadId = threadId) with
  | some slot =>
    right
    have hit := List.find?_some found
    rw [Bool.and_eq_true, ← (holds slot).2.1] at hit
    exact ⟨slot, queues, lists, rfl, rfl, holds, hit.1⟩
  | none =>
    cases create with
    | false => exact .inl ⟨rfl, rfl⟩
    | true =>
      cases (List.range maxThreadQueues).find? fun slot => !(lists slot).inUse with
      | none => exact .inl ⟨rfl, rfl⟩
      | some slot =>
        right
        exact ⟨slot, _, _, rfl, rfl, holds.create slot threadId, by
          rw [update_self]⟩

theorem TableRepresents.close (slot : Nat) :
    TableRepresents
      (update queues slot
        { queues slot with
          inUse := false, messages := { (queues slot).messages with count := 0 } })
      (update lists slot { lists slot with inUse := false, messages := [] }) := by
  intro other
  by_cases same : other = slot
  · subst same
    simp only [update_self]
    exact ⟨(holds other).1, trivial, fun used => by cases used⟩
  · simp only [update_of_ne same]
    exact holds other

/-- One call on the table of queues does what it does on lists. -/
theorem threadCall_simulates (call : ThreadCall) :
    ∃ detailed : DetailedCall, detailed.1 = call ∧
      (threadCall queues call).1 = (listThreadCall lists detailed).1 ∧
      TableRepresents (threadCall queues call).2 (listThreadCall lists detailed).2 := by
  cases call with
  | post threadId posted keTickCount =>
    simp only [threadCall, userPostThreadMessage]
    rcases holds.findOrCreate threadId true with
      ⟨missing, absent⟩ | ⟨slot, queues', lists', found, present, later, used⟩
    · refine ⟨(.post threadId posted keTickCount, ⟨0, 0⟩), rfl, ?_⟩
      simp only [listThreadCall, missing, absent]
      exact ⟨trivial, holds⟩
    · have ring := (later slot).2.2 used
      refine ⟨(.post threadId posted keTickCount,
        ((queues' slot).messages.slots (queues' slot).messages.tail).pt), rfl, ?_⟩
      simp only [listThreadCall, found, present]
      rcases ring.post (posted.write keTickCount) with
        ⟨full, same⟩ | ⟨after, pushed, next, same⟩
      · simp only [PostedMsg.write] at same
        simp only [full, same]
        rw [setMessages_self]
        exact ⟨trivial, later⟩
      · simp only [PostedMsg.write] at same
        simp only [pushed, same]
        exact ⟨trivial, later.setMessages slot next⟩
  | get threadId out msgFilterMin msgFilterMax =>
    refine ⟨(.get threadId out msgFilterMin msgFilterMax, ⟨0, 0⟩), rfl, ?_⟩
    simp only [threadCall, listThreadCall, userGetMessageForThread]
    cases out with
    | false => exact ⟨rfl, holds⟩
    | true =>
      rcases holds.findOrCreate threadId false with
        ⟨missing, absent⟩ | ⟨slot, queues', lists', found, present, later, used⟩
      · simp only [missing, absent]
        exact ⟨rfl, holds⟩
      · simp only [found, present]
        rcases ((later slot).2.2 used).find (threadAccepts msgFilterMin msgFilterMax) true with
          ⟨none, absent⟩ | ⟨msg, after, list', hit, also, next⟩
        · simp only [none, absent]
          exact ⟨rfl, later⟩
        · simp only [hit, also]
          exact ⟨rfl, later.setMessages slot next⟩
  | destroy threadId =>
    refine ⟨(.destroy threadId, ⟨0, 0⟩), rfl, ?_⟩
    simp only [threadCall, listThreadCall, userDestroyThreadQueue]
    rcases holds.findOrCreate threadId false with
      ⟨missing, absent⟩ | ⟨slot, queues', lists', found, present, later, used⟩
    · simp only [missing, absent]
      exact ⟨trivial, holds⟩
    · simp only [found, present]
      exact ⟨trivial, later.close slot⟩

end Holds

end Table

/-- Both kinds of message queues answer every sequence of calls as lists of
messages do. For the thread queues the lists also keep the `pt` that a post found
in its slot. -/
theorem messageQueues_refine :
    (∀ calls : List QueueCall,
      (runCalls queueCall win32kInitMessageQueue calls).1 = (runCalls listCall [] calls).1 ∧
      Represents w32MsgqueueSize (runCalls queueCall win32kInitMessageQueue calls).2
        (runCalls listCall [] calls).2) ∧
    ∀ calls : List ThreadCall, ∃ detailed : List DetailedCall, detailed.map Prod.fst = calls ∧
      (runCalls threadCall queueInit calls).1 =
        (runCalls listThreadCall (fun _ => ⟨0, [], false⟩) detailed).1 ∧
      TableRepresents (runCalls threadCall queueInit calls).2
        (runCalls listThreadCall (fun _ => ⟨0, [], false⟩) detailed).2 := by
  constructor
  · intro calls
    have first : Represents w32MsgqueueSize win32kInitMessageQueue [] :=
      represents_zero (by decide)
    obtain ⟨detailed, same, answers, last⟩ := runCalls_simulates queueCall listCall id
      (Represents w32MsgqueueSize)
      (fun _ _ call holds => ⟨call, rfl, queueCall_simulates holds call⟩) first calls
    rw [List.map_id] at same
    rw [← same] at answers last ⊢
    exact ⟨answers, last⟩
  · intro calls
    have first : TableRepresents queueInit (fun _ => ⟨0, [], false⟩) :=
      fun _ => ⟨rfl, rfl, fun used => by cases used⟩
    exact runCalls_simulates threadCall listThreadCall Prod.fst TableRepresents
      (fun _ _ call holds => threadCall_simulates holds call) first calls

end MinNT.Win32k
