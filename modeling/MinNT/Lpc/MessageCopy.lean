import MinNT.Lib.ByteMemory
import MinNT.Lpc.Request

namespace MinNT.Lpc

open ByteMemory

/-! The bytes of `LPC_MESSAGE`. A message is the memory from its address on. -/

def sizeofLpcMessage : Nat := 248

def offsetofTotalLength : Nat := 2
def offsetofMessageType : Nat := 4
def offsetofProcessId : Nat := 8
def offsetofMessageId : Nat := 12
def offsetofSenderPort : Nat := 32
def offsetofNext : Nat := 40
def offsetofData : Nat := 48

def totalLength (message : ByteMemory) : Nat := message.load 2 offsetofTotalLength

/-- How many bytes were copied, and the target behind the copy. -/
structure MessageCopy where
  length : Nat
  target : ByteMemory

/-- `RtlCopyMemory(target, source, source->TotalLength)`. -/
def copyMessage (target source : ByteMemory) : MessageCopy :=
  ⟨totalLength source, target.write 0 (source.read 0 (totalLength source))⟩

/-- What the kernel knows about the caller of `NtRequestWaitReplyPort`: its port,
`PsGetCurrentProcessId()` and `KeGetCurrentThread()`. -/
structure LpcCaller where
  clientPort : UInt64
  processId : UInt64
  thread : UInt64

/-- `NtRequestWaitReplyPort` from its copy of the request to the queue. -/
def copyRequest (queuedMsg msg : ByteMemory) (caller : LpcCaller) : MessageCopy :=
  let copy := copyMessage queuedMsg msg
  let queued := copy.target.store 8 offsetofSenderPort caller.clientPort.toNat
  let queued := queued.store 8 offsetofNext 0
  let queued := queued.store 4 offsetofProcessId caller.processId.toNat
  ⟨copy.length, queued.store 4 offsetofMessageId caller.thread.toNat⟩

/-- A message that is taken from a queue: `Next` has been set when the following
message was queued, and is cleared. -/
def takenMessage (message : ByteMemory) (following : UInt64) : ByteMemory :=
  (message.store 8 offsetofNext following.toNat).store 8 offsetofNext 0

/-- A request with the pool block for its copy, and the reply to it. -/
structure LpcExchange where
  msg : ByteMemory
  queuedMsg : ByteMemory
  caller : LpcCaller
  replyMsg : ByteMemory

namespace LpcExchange

variable (exchange : LpcExchange)

/-- The copy into the queued message. -/
def queued : MessageCopy := copyRequest exchange.queuedMsg exchange.msg exchange.caller

/-- The copy of the request into the server's buffer, in `NtReplyWaitReceivePort`. -/
def received (following : UInt64) (receiveMsg : ByteMemory) : MessageCopy :=
  copyMessage receiveMsg (takenMessage exchange.queued.target following)

/-- The copy of the reply into the client's buffer, in `NtRequestWaitReplyPort`. -/
def returned (following : UInt64) (reply : ByteMemory) : MessageCopy :=
  copyMessage reply (takenMessage exchange.replyMsg following)

end LpcExchange

/-- The message carries what the kernel records for the request of this caller. -/
structure SentBy (message : ByteMemory) (caller : LpcCaller) : Prop where
  senderPort : message.load 8 offsetofSenderPort = caller.clientPort.toNat
  processId : message.load 4 offsetofProcessId = caller.processId.toNat % 2 ^ 32
  messageId : message.load 4 offsetofMessageId = caller.thread.toNat % 2 ^ 32

/-- No copy of an exchange is longer than a message, and the server receives the
identifiers of the caller, whatever the buffers hold and the queues are. -/
structure CopiesStay (exchange : LpcExchange) : Prop where
  queued : exchange.queued.length ≤ sizeofLpcMessage
  received : ∀ following receiveMsg,
    (exchange.received following receiveMsg).length ≤ sizeofLpcMessage
  returned : ∀ following reply, (exchange.returned following reply).length ≤ sizeofLpcMessage
  identified : ∀ following receiveMsg,
    SentBy (exchange.received following receiveMsg).target exchange.caller

/-- The bytes from the identifiers on are copied, and not more than a message. -/
def FitsMessage (length : Nat) : Prop :=
  offsetofSenderPort + 8 ≤ length ∧ length ≤ sizeofLpcMessage

/-- The length of the request fits; or it is too small to be copied itself, and the one
that the pool block still holds fits. The reply is no longer than a message. -/
def LengthsFit (exchange : LpcExchange) : Prop :=
  (FitsMessage (totalLength exchange.msg) ∨
    totalLength exchange.msg ≤ 2 ∧ FitsMessage (totalLength exchange.queuedMsg)) ∧
  totalLength exchange.replyMsg ≤ sizeofLpcMessage

section Copies

variable {target source : ByteMemory} {length width address : Nat}

theorem load_copied (inside : address + width ≤ length) :
    (target.write 0 (source.read 0 length)).load width address = source.load width address := by
  apply load_congr
  intro index _ upper
  rw [write_inside _ _ _ _ (by omega) (by rw [read_length]; omega), List.getD_eq_getElem?_getD,
    read_getElem? _ _ _ _ (by omega), Option.getD_some, Nat.sub_zero, Nat.zero_add]

theorem load_notCopied (outside : length ≤ address) :
    (target.write 0 (source.read 0 length)).load width address = target.load width address := by
  apply load_congr
  intro index lower _
  apply write_outside
  rw [read_length]
  omega

theorem taken_load (message : ByteMemory) (following : UInt64)
    (apart : address + width ≤ offsetofNext) :
    (takenMessage message following).load width address = message.load width address := by
  unfold takenMessage
  rw [load_store_disjoint _ _ _ _ _ _ (.inl apart), load_store_disjoint _ _ _ _ _ _ (.inl apart)]

theorem taken_totalLength (message : ByteMemory) (following : UInt64) :
    totalLength (takenMessage message following) = totalLength message :=
  taken_load message following (by decide)

theorem totalLength_bytes (message : ByteMemory) :
    totalLength message = (message 2).toNat + 256 * (message 3).toNat := by
  have bytes := load_add message 1 1 offsetofTotalLength
  rw [load_one, load_one] at bytes
  exact bytes

end Copies

section Exchange

variable (exchange : LpcExchange)

theorem queued_totalLength : totalLength exchange.queued.target =
    totalLength (copyMessage exchange.queuedMsg exchange.msg).target := by
  show ByteMemory.load (copyRequest _ _ _).target 2 offsetofTotalLength = _
  unfold copyRequest
  dsimp only
  rw [load_store_disjoint _ _ _ _ _ _ (by decide), load_store_disjoint _ _ _ _ _ _ (by decide),
    load_store_disjoint _ _ _ _ _ _ (by decide), load_store_disjoint _ _ _ _ _ _ (by decide)]
  rfl

theorem queued_sentBy : SentBy exchange.queued.target exchange.caller := by
  unfold LpcExchange.queued copyRequest
  constructor <;> dsimp only
  · rw [load_store_disjoint _ _ _ _ _ _ (by decide), load_store_disjoint _ _ _ _ _ _ (by decide),
      load_store_disjoint _ _ _ _ _ _ (by decide), load_store_same]
    exact Nat.mod_eq_of_lt exchange.caller.clientPort.toNat_lt
  · rw [load_store_disjoint _ _ _ _ _ _ (by decide), load_store_same]
    rfl
  · rw [load_store_same]
    rfl

/-- The length that the server finds: that of the request if it was copied, a piece of
it, or what the pool block held. -/
theorem queued_totalLength_cases :
    4 ≤ totalLength exchange.msg ∧
        totalLength exchange.queued.target = totalLength exchange.msg ∨
      totalLength exchange.msg = 3 ∧ totalLength exchange.queued.target % 256 = 3 ∨
      totalLength exchange.msg ≤ 2 ∧
        totalLength exchange.queued.target = totalLength exchange.queuedMsg := by
  rw [queued_totalLength]
  by_cases whole : 4 ≤ totalLength exchange.msg
  · exact .inl ⟨whole, load_copied whole⟩
  by_cases piece : totalLength exchange.msg = 3
  · refine .inr (.inl ⟨piece, ?_⟩)
    have low : (copyMessage exchange.queuedMsg exchange.msg).target 2 = exchange.msg 2 := by
      have copied := @load_copied exchange.queuedMsg exchange.msg (totalLength exchange.msg) 1 2
        (by omega)
      rw [load_one, load_one] at copied
      exact UInt8.toNat_inj.mp copied
    rw [totalLength_bytes, low]
    have bytes := totalLength_bytes exchange.msg
    omega
  · exact .inr (.inr ⟨by omega, load_notCopied (show _ ≤ 2 by omega)⟩)

/-- The bytes that the copy keeps. -/
theorem queued_byte {index : Nat} (inside : index < totalLength exchange.msg)
    (apart : index < offsetofProcessId ∨ offsetofMessageId + 4 ≤ index ∧
      (index < offsetofSenderPort ∨ offsetofData ≤ index)) :
    exchange.queued.target index = exchange.msg index := by
  unfold offsetofProcessId offsetofMessageId offsetofSenderPort offsetofData at apart
  have stored : ∀ (memory : ByteMemory) (width address value : Nat),
      index < address ∨ address + width ≤ index → memory.store width address value index =
        memory index := by
    intro memory width address value outside
    exact store_sameOutside memory width address value address (address + width)
      (Nat.le_refl _) (Nat.le_refl _) index outside
  have copied := @load_copied exchange.queuedMsg exchange.msg (totalLength exchange.msg) 1 index
    (by omega)
  rw [load_one, load_one] at copied
  show (copyRequest _ _ _).target index = _
  unfold copyRequest
  dsimp only
  rw [stored, stored, stored, stored]
  · exact UInt8.toNat_inj.mp copied
  · unfold offsetofSenderPort
    omega
  · unfold offsetofNext
    omega
  · unfold offsetofProcessId
    omega
  · unfold offsetofMessageId
    omega

/-- A pointer of a message, which may be `NULL`. -/
def pointerAt (message : ByteMemory) (offset : Nat) : Option Ob.Address :=
  let pointer := message.load 8 offset
  if pointer = 0 then none else some (BitVec.ofNat 64 pointer)

/-- The message that the bytes are; which request it belongs to is not among them. -/
def recordOf (message : ByteMemory) (request : Nat) : LpcMessage where
  messageType := message.load 2 offsetofMessageType
  processId := message.load 4 offsetofProcessId
  messageId := message.load 4 offsetofMessageId
  data := message.read offsetofData 200
  senderPort := pointerAt message offsetofSenderPort
  next := pointerAt message offsetofNext
  request := request

theorem recordOf_queued (whole : sizeofLpcMessage ≤ totalLength exchange.msg)
    (port : exchange.caller.clientPort ≠ 0) (request : Nat) :
    recordOf exchange.queued.target request = { recordOf exchange.msg request with
      senderPort := some exchange.caller.clientPort.toBitVec
      next := none
      processId := exchange.caller.processId.toNat % 2 ^ 32
      messageId := exchange.caller.thread.toNat % 2 ^ 32 } := by
  have sent := queued_sentBy exchange
  have type : exchange.queued.target.load 2 offsetofMessageType =
      exchange.msg.load 2 offsetofMessageType := by
    apply load_congr
    intro index lower upper
    unfold offsetofMessageType at lower upper
    unfold sizeofLpcMessage at whole
    exact queued_byte exchange (by omega) (.inl (by unfold offsetofProcessId; omega))
  have data : exchange.queued.target.read offsetofData 200 =
      exchange.msg.read offsetofData 200 := by
    apply read_congr
    intro index lower upper
    unfold offsetofData at lower upper
    unfold sizeofLpcMessage at whole
    exact queued_byte exchange (by omega)
      (.inr ⟨by unfold offsetofMessageId; omega, .inr (by unfold offsetofData; omega)⟩)
  have next : pointerAt exchange.queued.target offsetofNext = none := by
    have null : exchange.queued.target.load 8 offsetofNext = 0 := by
      show (copyRequest _ _ _).target.load 8 offsetofNext = 0
      unfold copyRequest
      dsimp only
      rw [load_store_disjoint _ _ _ _ _ _ (by decide),
        load_store_disjoint _ _ _ _ _ _ (by decide), load_store_same, Nat.zero_mod]
    unfold pointerAt
    rw [null]
    rfl
  have senderPort : pointerAt exchange.queued.target offsetofSenderPort =
      some exchange.caller.clientPort.toBitVec := by
    have some : exchange.caller.clientPort.toNat ≠ 0 :=
      fun zero => port (UInt64.toNat_inj.mp zero)
    unfold pointerAt
    rw [sent.senderPort]
    dsimp only
    rw [if_neg some]
    exact congrArg Option.some (BitVec.ofNat_toNat 64 exchange.caller.clientPort.toBitVec)
  unfold recordOf
  rw [type, data, next, senderPort, sent.processId, sent.messageId]

/-- A message of ones. -/
theorem wholeRequest_recordOf :
    recordOf (LpcExchange.queued ⟨fun _ => 1, fun _ => 0, ⟨1, 2, 3⟩, fun _ => 0⟩).target 7 =
      { recordOf (fun _ => 1) 7 with
        senderPort := some 1#64
        next := none
        processId := 2
        messageId := 3 } :=
  recordOf_queued ⟨fun _ => 1, fun _ => 0, ⟨1, 2, 3⟩, fun _ => 0⟩ (by decide) (by decide) 7

theorem fitsMessage_queued_iff : FitsMessage (totalLength exchange.queued.target) ↔
    FitsMessage (totalLength exchange.msg) ∨
      totalLength exchange.msg ≤ 2 ∧ FitsMessage (totalLength exchange.queuedMsg) := by
  unfold FitsMessage offsetofSenderPort sizeofLpcMessage
  rcases queued_totalLength_cases exchange with ⟨whole, same⟩ | ⟨three, low⟩ | ⟨few, same⟩ <;> omega

theorem received_sentBy (reaches : offsetofSenderPort + 8 ≤ totalLength exchange.queued.target)
    (following : UInt64) (receiveMsg : ByteMemory) :
    SentBy (exchange.received following receiveMsg).target exchange.caller := by
  have sent := queued_sentBy exchange
  have got : ∀ {width address : Nat}, address + width ≤ offsetofNext →
      (exchange.received following receiveMsg).target.load width address =
        exchange.queued.target.load width address := by
    intro width address inside
    unfold LpcExchange.received copyMessage
    rw [taken_totalLength, load_copied (Nat.le_trans inside reaches), taken_load _ _ inside]
  constructor
  · rw [got (by decide)]
    exact sent.senderPort
  · rw [got (by decide)]
    exact sent.processId
  · rw [got (by decide)]
    exact sent.messageId

theorem reaches_of_sentBy
    (identified : ∀ receiveMsg, SentBy (exchange.received 0 receiveMsg).target exchange.caller) :
    offsetofSenderPort + 8 ≤ totalLength exchange.queued.target := by
  by_contra short
  have last : ∀ receiveMsg : ByteMemory, exchange.caller.clientPort.toNat =
      (exchange.received 0 receiveMsg).target.load 7 offsetofSenderPort +
        256 ^ 7 * (receiveMsg (offsetofSenderPort + 7)).toNat := by
    intro receiveMsg
    have left : (exchange.received 0 receiveMsg).target.load 1 (offsetofSenderPort + 7) =
        receiveMsg.load 1 (offsetofSenderPort + 7) := by
      have behind : totalLength exchange.queued.target ≤ offsetofSenderPort + 7 := by omega
      unfold LpcExchange.received copyMessage
      dsimp only
      rw [taken_totalLength, load_notCopied behind]
    rw [load_one receiveMsg] at left
    rw [← (identified receiveMsg).senderPort, ← left]
    exact load_add (exchange.received 0 receiveMsg).target 7 1 offsetofSenderPort
  have zero := last (fun _ => 0)
  have one := last (fun _ => 1)
  have less := load_lt (exchange.received 0 (fun _ => 0)).target 7 offsetofSenderPort
  have zeroByte : (0 : UInt8).toNat = 0 := rfl
  have oneByte : (1 : UInt8).toNat = 1 := rfl
  rw [zeroByte] at zero
  rw [oneByte] at one
  omega

end Exchange

/-- The copies of an exchange stay within a message, and its server learns who sent the
request, exactly when the lengths that the parties wrote fit. -/
theorem lpcCopies_iff (exchange : LpcExchange) : CopiesStay exchange ↔ LengthsFit exchange := by
  have returnedLength : ∀ following reply,
      (exchange.returned following reply).length = totalLength exchange.replyMsg :=
    fun following _ => taken_totalLength exchange.replyMsg following
  have receivedLength : ∀ following receiveMsg,
      (exchange.received following receiveMsg).length = totalLength exchange.queued.target :=
    fun following _ => taken_totalLength exchange.queued.target following
  unfold LengthsFit
  rw [← fitsMessage_queued_iff]
  constructor
  · intro stays
    refine ⟨⟨reaches_of_sentBy exchange (stays.identified 0), ?_⟩, ?_⟩
    · rw [← receivedLength 0 (fun _ => 0)]
      exact stays.received 0 (fun _ => 0)
    · rw [← returnedLength 0 (fun _ => 0)]
      exact stays.returned 0 (fun _ => 0)
  · intro fits
    obtain ⟨⟨reaches, most⟩, reply⟩ := fits
    have request : totalLength exchange.msg ≤ sizeofLpcMessage := by
      have length := fitsMessage_queued_iff exchange
      unfold FitsMessage sizeofLpcMessage at length
      unfold sizeofLpcMessage at most ⊢
      omega
    constructor
    · exact request
    · intro following receiveMsg
      rw [receivedLength]
      exact most
    · intro following buffer
      rw [returnedLength]
      exact reply
    · exact received_sentBy exchange reaches

/-- A request whose `TotalLength` is the greatest `USHORT` is copied with all of the
65535 bytes. -/
theorem longRequest_notStay :
    ∃ exchange : LpcExchange, exchange.queued.length = 65535 ∧ ¬ CopiesStay exchange := by
  have length : totalLength (fun _ => 0xFF) = 65535 := by decide
  refine ⟨⟨fun _ => 0xFF, fun _ => 0, ⟨1, 2, 3⟩, fun _ => 0⟩, length, ?_⟩
  intro stays
  have most : totalLength (fun _ => 0xFF) ≤ sizeofLpcMessage := stays.queued
  rw [length] at most
  exact absurd most (by decide)

end MinNT.Lpc
