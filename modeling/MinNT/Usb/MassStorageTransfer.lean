import Mathlib.Algebra.GroupWithZero.Nat
import MinNT.Usb.MassStorage

open ByteMemory

namespace MinNT.UsbMass

/-- The first block of a READ(10) or WRITE(10). -/
def commandLba (cb : List UInt8) : Nat := decodeLE ((cb.drop 2).take 4).reverse

/-- Its number of blocks. -/
def commandCount (cb : List UInt8) : Nat := decodeLE ((cb.drop 7).take 2).reverse

theorem command10_lba (opcode : UInt8) (lba : BitVec 64) (count : BitVec 32) :
    commandLba (command10 opcode lba count) = lba.toNat % 2 ^ 32 := by
  have bytes := congrArg (fun bytes => decodeLE (bytes.take 4)) (encodeLE_shifts lba.toNat)
  exact bytes.symm.trans (decodeLE_encodeLE 4 lba.toNat)

theorem command10_count (opcode : UInt8) (lba : BitVec 64) (count : BitVec 32) :
    commandCount (command10 opcode lba count) = count.toNat % 2 ^ 16 :=
  decodeLE_encodeLE 2 count.toNat

/-- A read or a write of sectors whose three phases were all carried out, by the bytes
that went over the endpoints. -/
structure Complete (isIn : Bool) (d : Disk) (lba : BitVec 64) (count : BitVec 32)
    (sent : Exchange) (moved : List Exchange) (received : Exchange) : Prop where
  wrapper : sent.request.ep = d.bulkOutEndpoint ∧ sent.request.isIn = false ∧
    sent.request.bytes.length = 31
  wrapperSent : sent.succeeds = true ∧ sent.answer.actual = 31
  opcode : sent.request.bytes[15]? = some (if isIn then 0x28 else 0x2A)
  namesLba : commandLba (sent.request.bytes.drop 15) = lba.toNat
  namesCount : commandCount (sent.request.bytes.drop 15) = count.toNat
  data : ∀ exchange ∈ moved, exchange.succeeds = true ∧ exchange.request.isIn = isIn ∧
    exchange.request.ep = if isIn then d.bulkInEndpoint else d.bulkOutEndpoint
  bytes : (moved.map fun exchange => exchange.answer.actual.toNat).sum =
    count.toNat * d.blockSize.toNat
  status : received.request.ep = d.bulkInEndpoint ∧ received.request.isIn = true
  statusReceived : received.succeeds = true ∧ received.answer.actual = 13
  csw : Csw.decode received.answer.data =
    ⟨usbBotCswSignature, decodeLE ((sent.request.bytes.drop 4).take 4), 0, 0⟩

/-- What is claimed of a transfer: a status of success means that it was complete. -/
def SucceedsComplete (isIn : Bool) (driver : Driver) (diskNumber : Nat) (lba : BitVec 64)
    (count : BitVec 32) (outcome : Outcome) : Prop :=
  ntSuccess outcome.status = true →
    ∃ d sent moved received, driver.disks[diskNumber]? = some d ∧
      outcome.exchanges = [sent] ++ moved ++ [received] ∧
      Complete isIn d lba count sent moved received

theorem checkCsw_eq_statusSuccess {csw : Csw} {tag : BitVec 32} :
    checkCsw csw tag = statusSuccess ↔
      csw.signature = usbBotCswSignature ∧ csw.tag = tag.toNat ∧ csw.status = 0 := by
  have failure : statusIoDeviceError ≠ statusSuccess := by decide
  unfold checkCsw
  by_cases signature : csw.signature = usbBotCswSignature
  · by_cases tagged : csw.tag = tag.toNat
    · by_cases passed : csw.status = 0
      · simp [signature, tagged, passed]
      · simp [signature, tagged, passed, failure]
    · simp [signature, tagged, failure]
  · simp [signature, failure]

theorem checkCsw_cases (csw : Csw) (tag : BitVec 32) :
    checkCsw csw tag = statusSuccess ∨ checkCsw csw tag = statusIoDeviceError := by
  unfold checkCsw
  split
  · exact .inr rfl
  split
  · exact .inr rfl
  split
  · exact .inr rfl
  · exact .inl rfl

theorem checkCsw_success {csw : Csw} {tag : BitVec 32}
    (success : ntSuccess (checkCsw csw tag) = true) : checkCsw csw tag = statusSuccess := by
  rcases checkCsw_cases csw tag with passed | failed
  · exact passed
  · rw [failed] at success
    exact absurd success (by decide)

section Answers

variable (isIn : Bool) (endpoints : Endpoints) (driver : Driver) (d : Disk) (lba : BitVec 64)
  (count : BitVec 32) (buffer : Option ByteMemory)

def wrapperOf : Cbw :=
  ⟨usbBotCbwSignature, driver.botTag + 1, (count * d.blockSize).toNat,
    if isIn then 0x80 else 0, 0, 10, command10 (if isIn then 0x28 else 0x2A) lba count⟩

/-- The answer to the command wrapper. -/
def wrapperExchange : Exchange :=
  endpoints.bulkTransfer [] ⟨d.deviceAddress, d.bulkOutEndpoint, d.speed, 31, false,
    (wrapperOf isIn driver d lba count).bytes⟩

/-- The answer to the data transfer, if there is one. -/
def dataExchange : Option Exchange :=
  (dataRequest d.deviceAddress (if isIn then d.bulkInEndpoint else d.bulkOutEndpoint) d.speed buffer
    (count * d.blockSize).toNat isIn).map
      (endpoints.bulkTransfer [wrapperExchange isIn endpoints driver d lba count])

/-- The answer to the transfer of the status wrapper. -/
def statusExchange : Exchange :=
  endpoints.bulkTransfer
    ([wrapperExchange isIn endpoints driver d lba count] ++
      (dataExchange isIn endpoints driver d lba count buffer).toList)
    ⟨d.deviceAddress, d.bulkInEndpoint, d.speed, 13, true, []⟩

/-- No wrapper is cut short under a status of success, and when the status wrapper
passes the test, the command could name its sectors, all the data was moved and
nothing is left over. -/
structure WellAnswered : Prop where
  wrapper : (wrapperExchange isIn endpoints driver d lba count).succeeds = true →
    (wrapperExchange isIn endpoints driver d lba count).answer.actual = 31
  status : (wrapperExchange isIn endpoints driver d lba count).succeeds = true →
    (∀ moved ∈ dataExchange isIn endpoints driver d lba count buffer, moved.succeeds = true) →
    (statusExchange isIn endpoints driver d lba count buffer).succeeds = true →
    (statusExchange isIn endpoints driver d lba count buffer).answer.actual = 13
  whole : (wrapperExchange isIn endpoints driver d lba count).succeeds = true →
    (∀ moved ∈ dataExchange isIn endpoints driver d lba count buffer, moved.succeeds = true) →
    (statusExchange isIn endpoints driver d lba count buffer).succeeds = true →
    checkCsw (Csw.decode (statusExchange isIn endpoints driver d lba count buffer).answer.data)
      (driver.botTag + 1) = statusSuccess →
    lba.toNat < 2 ^ 32 ∧ count.toNat < 2 ^ 16 ∧
      ((dataExchange isIn endpoints driver d lba count buffer).toList.map
        fun moved => moved.answer.actual.toNat).sum = count.toNat * d.blockSize.toNat ∧
      (Csw.decode
        (statusExchange isIn endpoints driver d lba count buffer).answer.data).dataResidue = 0

theorem wrapper_lba :
    commandLba ((wrapperOf isIn driver d lba count).bytes.drop 15) = lba.toNat % 2 ^ 32 :=
  command10_lba (if isIn then 0x28 else 0x2A) lba count

theorem wrapper_count :
    commandCount ((wrapperOf isIn driver d lba count).bytes.drop 15) = count.toNat % 2 ^ 16 :=
  command10_count (if isIn then 0x28 else 0x2A) lba count

theorem wrapper_tag : decodeLE (((wrapperOf isIn driver d lba count).bytes.drop 4).take 4) =
    (driver.botTag + 1).toNat := by
  have bytes : ((wrapperOf isIn driver d lba count).bytes.drop 4).take 4 =
      encodeLE 4 (driver.botTag + 1).toNat := rfl
  rw [bytes, decodeLE_encodeLE]
  exact Nat.mod_eq_of_lt (driver.botTag + 1).isLt

theorem dataExchange_request {moved : Exchange}
    (some : moved ∈ dataExchange isIn endpoints driver d lba count buffer) :
    moved.request.isIn = isIn ∧
      moved.request.ep = if isIn then d.bulkInEndpoint else d.bulkOutEndpoint := by
  unfold dataExchange at some
  obtain ⟨request, requested, rfl⟩ := Option.map_eq_some_iff.mp some
  unfold dataRequest at requested
  split at requested
  · cases requested
  · split at requested
    · cases requested
      exact ⟨rfl, rfl⟩
    · cases requested

/-- When the exchanges make up a complete command. -/
theorem complete_iff :
    let sent := wrapperExchange isIn endpoints driver d lba count
    let moved := dataExchange isIn endpoints driver d lba count buffer
    let received := statusExchange isIn endpoints driver d lba count buffer
    Complete isIn d lba count sent moved.toList received ↔
      (sent.succeeds = true ∧ sent.answer.actual = 31) ∧
      (∀ exchange ∈ moved, exchange.succeeds = true) ∧
      (received.succeeds = true ∧ received.answer.actual = 13) ∧
      checkCsw (Csw.decode received.answer.data) (driver.botTag + 1) = statusSuccess ∧
      lba.toNat < 2 ^ 32 ∧ count.toNat < 2 ^ 16 ∧
      (moved.toList.map fun exchange => exchange.answer.actual.toNat).sum =
        count.toNat * d.blockSize.toNat ∧
      (Csw.decode received.answer.data).dataResidue = 0 := by
  intro sent moved received
  constructor
  · intro complete
    have lba' : lba.toNat % 2 ^ 32 = lba.toNat :=
      (wrapper_lba isIn driver d lba count).symm.trans complete.namesLba
    have count' : count.toNat % 2 ^ 16 = count.toNat :=
      (wrapper_count isIn driver d lba count).symm.trans complete.namesCount
    refine ⟨complete.wrapperSent, ?_, complete.statusReceived, ?_, by omega, by omega,
      complete.bytes, ?_⟩
    · intro exchange member
      exact (complete.data exchange (Option.mem_toList.mpr member)).1
    · rw [checkCsw_eq_statusSuccess, complete.csw]
      exact ⟨rfl, wrapper_tag isIn driver d lba count, rfl⟩
    · rw [complete.csw]
  · rintro ⟨sentWhole, movedWhole, receivedWhole, passed, small, short, bytes, residue⟩
    obtain ⟨signature, tag, status⟩ := checkCsw_eq_statusSuccess.mp passed
    refine ⟨⟨rfl, rfl, rfl⟩, sentWhole, rfl, ?_, ?_, ?_, bytes, ⟨rfl, rfl⟩, receivedWhole, ?_⟩
    · exact (wrapper_lba isIn driver d lba count).trans (Nat.mod_eq_of_lt small)
    · exact (wrapper_count isIn driver d lba count).trans (Nat.mod_eq_of_lt short)
    · intro exchange member
      have some := Option.mem_toList.mp member
      exact ⟨movedWhole exchange some,
        dataExchange_request isIn endpoints driver d lba count buffer some⟩
    · have tag' := tag.trans (wrapper_tag isIn driver d lba count).symm
      cases decoded : Csw.decode received.answer.data with
      | mk signature' tag'' residue' status' =>
        rw [decoded] at signature tag' status residue
        dsimp only at signature tag' status residue
        rw [signature, tag', status, residue]
        rfl

theorem dataPhase_fst (history : List Exchange) (request : Option Request) :
    (dataPhase endpoints history buffer request).1 =
      request.map (endpoints.bulkTransfer history) := by
  cases request with
  | none => rfl
  | some request => rfl

/-- One command, by what the three exchanges bring. -/
theorem sectorsCommand_eq {diskNumber : Nat} (found : driver.disks[diskNumber]? = some d) :
    let sent := wrapperExchange isIn endpoints driver d lba count
    let moved := dataExchange isIn endpoints driver d lba count buffer
    let received := statusExchange isIn endpoints driver d lba count buffer
    let outcome := sectorsCommand (if isIn then 0x28 else 0x2A) isIn endpoints driver diskNumber lba
      count buffer
    (outcome.status, outcome.exchanges) =
      if sent.succeeds = false ∨ sent.answer.actual ≠ 31 then (sent.answer.status, [sent])
      else
        match moved.filter fun exchange => !exchange.succeeds with
        | some failed => (failed.answer.status, [sent] ++ moved.toList)
        | none =>
          if received.succeeds = false ∨ received.answer.actual ≠ 13 then
            (received.answer.status, [sent] ++ moved.toList ++ [received])
          else
            (checkCsw (Csw.decode received.answer.data) (driver.botTag + 1),
              [sent] ++ moved.toList ++ [received]) := by
  intro sent moved received outcome
  let after := (dataPhase endpoints [sent] buffer
    (dataRequest d.deviceAddress (if isIn then d.bulkInEndpoint else d.bulkOutEndpoint) d.speed
      buffer (count * d.blockSize).toNat isIn)).2
  have command : outcome = usbMassBotCommand endpoints driver.botTag d.deviceAddress d.speed
      d.bulkInEndpoint d.bulkOutEndpoint (command10 (if isIn then 0x28 else 0x2A) lba count) buffer
      (count * d.blockSize).toNat isIn := by
    show sectorsCommand _ _ _ _ _ _ _ _ = _
    rw [sectorsCommand, found]
  have opened : outcome =
      if sent.succeeds = false ∨ sent.answer.actual ≠ 31 then
        ⟨sent.answer.status, driver.botTag + 1, buffer, [sent]⟩
      else
        match moved.filter fun exchange => !exchange.succeeds with
        | some failed => ⟨failed.answer.status, driver.botTag + 1, after, [sent] ++ moved.toList⟩
        | none => statusPhase endpoints (driver.botTag + 1) d.deviceAddress d.speed d.bulkInEndpoint
            after ([sent] ++ moved.toList) := by
    rw [command, usbMassBotCommand]
    simp only [dataPhase_fst]
    exact if_neg (Nat.succ_ne_zero 9)
  rw [opened]
  by_cases short : sent.succeeds = false ∨ sent.answer.actual ≠ 31
  · rw [if_pos short, if_pos short]
  rw [if_neg short, if_neg short]
  cases moved.filter fun exchange => !exchange.succeeds with
  | some failed => rfl
  | none =>
    by_cases refused : received.succeeds = false ∨ received.answer.actual ≠ 13
    · rw [if_pos refused]
      exact congrArg (fun outcome : Outcome => (outcome.status, outcome.exchanges)) (if_pos refused)
    · rw [if_neg refused]
      exact congrArg (fun outcome : Outcome => (outcome.status, outcome.exchanges)) (if_neg refused)

theorem phases_inj {sent sent' received received' : Exchange} {moved moved' : List Exchange}
    (same : [sent] ++ moved ++ [received] = [sent'] ++ moved' ++ [received']) :
    sent = sent' ∧ moved = moved' ∧ received = received' := by
  obtain ⟨front, last⟩ := List.append_inj' same rfl
  obtain ⟨first, middle⟩ := List.append_inj front rfl
  exact ⟨List.singleton_inj.mp first, middle, List.singleton_inj.mp last⟩

/-- One command on sectors, for every answer of the endpoints. -/
theorem sectorsCommand_succeedsComplete {diskNumber : Nat}
    (found : driver.disks[diskNumber]? = some d) :
    SucceedsComplete isIn driver diskNumber lba count
        (sectorsCommand (if isIn then 0x28 else 0x2A) isIn endpoints driver diskNumber lba count
          buffer) ↔
      WellAnswered isIn endpoints driver d lba count buffer := by
  have outcome := sectorsCommand_eq isIn endpoints driver d lba count buffer found
  have whole := complete_iff isIn endpoints driver d lba count buffer
  dsimp only at outcome whole
  unfold SucceedsComplete
  generalize (sectorsCommand (if isIn then 0x28 else 0x2A) isIn endpoints driver diskNumber lba
    count buffer) = result at outcome ⊢
  set sent := wrapperExchange isIn endpoints driver d lba count with sentIs
  set moved := dataExchange isIn endpoints driver d lba count buffer with movedIs
  set received := statusExchange isIn endpoints driver d lba count buffer with receivedIs
  have notShort : sent.succeeds = true → sent.answer.actual = 31 →
      ¬ (sent.succeeds = false ∨ sent.answer.actual ≠ 31) := by
    rintro ok all (failed | cut)
    · rw [ok] at failed
      cases failed
    · exact cut all
  have noFailure : (∀ exchange ∈ moved, exchange.succeeds = true) →
      moved.filter (fun exchange => !exchange.succeeds) = none := by
    intro ok
    rw [Option.filter_eq_none_iff]
    intro exchange member
    simp [ok exchange member]
  constructor
  · intro claim
    have wrapper : sent.succeeds = true → sent.answer.actual = 31 := by
      intro ok
      by_contra cut
      rw [if_pos (.inr cut)] at outcome
      obtain ⟨status, exchanges⟩ := Prod.mk.inj outcome
      obtain ⟨_, _, moved', _, _, shape, _⟩ := claim (by rw [status]; exact ok)
      have lengths := congrArg List.length (exchanges.symm.trans shape)
      simp at lengths
    -- Behind the data the claim speaks of these three exchanges.
    have complete : sent.succeeds = true → (∀ exchange ∈ moved, exchange.succeeds = true) →
        received.succeeds = true → (received.answer.actual = 13 →
          checkCsw (Csw.decode received.answer.data) (driver.botTag + 1) = statusSuccess) →
        Complete isIn d lba count sent moved.toList received := by
      intro ok data ok' passed
      rw [if_neg (notShort ok (wrapper ok)), noFailure data] at outcome
      have shape : ntSuccess result.status = true ∧
          result.exchanges = [sent] ++ moved.toList ++ [received] := by
        dsimp only at outcome
        split at outcome
        · obtain ⟨status, exchanges⟩ := Prod.mk.inj outcome
          exact ⟨by rw [status]; exact ok', exchanges⟩
        case isFalse taken =>
          obtain ⟨status, exchanges⟩ := Prod.mk.inj outcome
          rw [passed (not_not.mp (not_or.mp taken).2)] at status
          exact ⟨by rw [status]; rfl, exchanges⟩
      obtain ⟨d', sent', moved', received', found', shape', complete⟩ := claim shape.1
      obtain ⟨rfl, rfl, rfl⟩ := phases_inj (shape'.symm.trans shape.2)
      rw [found] at found'
      cases found'
      exact complete
    refine ⟨wrapper, ?_, ?_⟩
    · intro ok data ok'
      by_contra cut
      exact cut (complete ok data ok' (fun all => absurd all cut)).statusReceived.2
    · intro ok data ok' passed
      exact (whole.mp (complete ok data ok' (fun _ => passed))).2.2.2.2
  · intro well success
    split at outcome
    case isTrue short =>
      obtain ⟨status, _⟩ := Prod.mk.inj outcome
      rw [status] at success
      rcases short with failed | cut
      · exact absurd (failed.symm.trans success) Bool.false_ne_true
      · exact absurd (well.wrapper success) cut
    case isFalse sentWhole =>
      have ok : sent.succeeds = true := eq_true_of_ne_false (not_or.mp sentWhole).1
      have all := not_not.mp (not_or.mp sentWhole).2
      split at outcome
      case h_1 failed found' =>
        obtain ⟨status, _⟩ := Prod.mk.inj outcome
        rw [status] at success
        have failure := (Option.filter_eq_some_iff.mp found').2
        rw [show failed.succeeds = true from success] at failure
        cases failure
      case h_2 none =>
        have data : ∀ exchange ∈ moved, exchange.succeeds = true := by
          intro exchange member
          simpa using Option.filter_eq_none_iff.mp none exchange member
        split at outcome
        case isTrue short =>
          obtain ⟨status, _⟩ := Prod.mk.inj outcome
          rw [status] at success
          rcases short with failed | cut
          · exact absurd (failed.symm.trans success) Bool.false_ne_true
          · exact absurd (well.status ok data success) cut
        case isFalse taken =>
          obtain ⟨status, exchanges⟩ := Prod.mk.inj outcome
          rw [status] at success
          have passed := checkCsw_success success
          have ok' : received.succeeds = true := eq_true_of_ne_false (not_or.mp taken).1
          have all' := not_not.mp (not_or.mp taken).2
          exact ⟨d, sent, moved.toList, received, found, exchanges, whole.mpr
            ⟨⟨ok, all⟩, data, ⟨ok', all'⟩, passed, well.whole ok data ok' passed⟩⟩

end Answers

/-- Read and write report success only on a complete transfer, exactly if the endpoints
answer well on the disk, if there is one. -/
theorem usbMassSectors_succeedsComplete (endpoints : Endpoints) (driver : Driver)
    (diskNumber : Nat) (lba : BitVec 64) (count : BitVec 32) (buffer : Option ByteMemory) :
    (SucceedsComplete true driver diskNumber lba count
        (usbMassReadSectors endpoints driver diskNumber lba count buffer) ↔
      ∀ d, driver.disks[diskNumber]? = some d →
        WellAnswered true endpoints driver d lba count buffer) ∧
    (SucceedsComplete false driver diskNumber lba count
        (usbMassWriteSectors endpoints driver diskNumber lba count buffer) ↔
      ∀ d, driver.disks[diskNumber]? = some d →
        WellAnswered false endpoints driver d lba count buffer) := by
  have both : ∀ isIn, SucceedsComplete isIn driver diskNumber lba count
      (sectorsCommand (if isIn then 0x28 else 0x2A) isIn endpoints driver diskNumber lba count
        buffer) ↔
      ∀ d, driver.disks[diskNumber]? = some d →
        WellAnswered isIn endpoints driver d lba count buffer := by
    intro isIn
    cases found : driver.disks[diskNumber]? with
    | none =>
      constructor
      · intro _ d none
        cases none
      · intro _ success
        rw [sectorsCommand, found] at success
        exact absurd (show ntSuccess statusDeviceDoesNotExist = true from success) (by decide)
    | some d =>
      rw [sectorsCommand_succeedsComplete isIn endpoints driver d lba count buffer found]
      constructor
      · intro well d' same
        cases same
        exact well
      · intro well
        exact well d rfl
  exact ⟨both true, both false⟩

/-- A disk with sectors of 512 bytes. -/
def oneDisk : Driver := ⟨[⟨1, 0x81, 2, 0, 512⟩], 0xDEADBEEF⟩

/-- The device takes the command, moves some of the data of one sector and says what is
left over. -/
def oneSector (bytes : BitVec 32) : Endpoints
  | [], _ => ⟨statusSuccess, 31, fun _ => 0⟩
  | [_], _ => ⟨statusSuccess, bytes, fun _ => 0⟩
  | _, _ => ⟨statusSuccess, 13, write (fun _ => 0) 0
      (encodeLE 4 usbBotCswSignature ++ encodeLE 4 0xDEADBEF0 ++ encodeLE 4 (512 - bytes.toNat))⟩

/-- A read of one sector, all of which comes. -/
theorem usbMassSectors_succeedsComplete_whole :
    SucceedsComplete true oneDisk 0 7 1
      (usbMassReadSectors (oneSector 512) oneDisk 0 7 1 (some fun _ => 0)) := by
  apply (usbMassSectors_succeedsComplete (oneSector 512) oneDisk 0 7 1 (some fun _ => 0)).1.mpr
  intro d found
  cases found
  exact ⟨fun _ => rfl, fun _ _ _ => rfl, fun _ _ _ _ => by decide⟩

/-- A read of one sector, of which half comes, is a success. -/
theorem usbMassReadSectors_half :
    ¬ SucceedsComplete true oneDisk 0 7 1
      (usbMassReadSectors (oneSector 256) oneDisk 0 7 1 (some fun _ => 0)) := by
  intro claim
  obtain ⟨d, sent, moved, received, found, exchanges, complete⟩ := claim (by decide)
  cases found
  obtain ⟨_, rfl, _⟩ := phases_inj (show [_] ++ [_] ++ [_] = [sent] ++ moved ++ [received] from
    exchanges)
  exact absurd complete.bytes (by decide)

end MinNT.UsbMass
