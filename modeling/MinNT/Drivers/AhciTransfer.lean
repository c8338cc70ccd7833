import MinNT.Drivers.AhciNumbering

namespace MinNT.Ahci

open ByteMemory List MinNT.Mm MinNT.Dma

/-- A port of the first controller below `num_ports` has a disk. -/
def FirstServes (controllers : List Controller) : Prop :=
  ∃ ctl, controllers[0]? = some ctl ∧ ∃ i < ctl.numPorts, ctl.attached i = true

/-- No port of the first controller has a disk. -/
def FirstEmpty (controllers : List Controller) : Prop :=
  ∀ ctl, controllers[0]? = some ctl → ∀ i < ahciMaxPorts, ctl.attached i = false

section First

variable {controllers : List Controller}

theorem ahciGetFirstPort_none : ahciGetFirstPort controllers = none ↔ FirstEmpty controllers := by
  cases controllers with
  | nil => simp [ahciGetFirstPort, FirstEmpty]
  | cons ctl rest => simp [ahciGetFirstPort, FirstEmpty]

theorem firstPort_of_serves (bounded : ∀ ctl ∈ controllers, ctl.numPorts ≤ ahciMaxPorts)
    (serves : FirstServes controllers) :
    ahciGetPortByIndex controllers 0 = ahciGetFirstPort controllers := by
  obtain ⟨ctl, first, i, inside, attached⟩ := serves
  cases controllers with
  | nil => cases first
  | cons head rest =>
    cases first
    have range : List.range ahciMaxPorts =
        List.range ctl.numPorts ++ List.range' ctl.numPorts (ahciMaxPorts - ctl.numPorts) := by
      have split := @List.range'_append_1 0 ctl.numPorts (ahciMaxPorts - ctl.numPorts)
      rw [Nat.zero_add, Nat.add_sub_cancel' (bounded ctl mem_cons_self)] at split
      rw [range_eq_range', range_eq_range', split]
    cases found : (List.range ctl.numPorts).find? ctl.attached with
    | none =>
      have none := find?_eq_none.mp found i (mem_range.mpr inside)
      exact absurd attached none
    | some port =>
      rw [ahciGetPortByIndex_eq, numberedPorts, ahciGetFirstPort, range, find?_append,
        found, ← head?_eq_getElem?, head?_append, portsOf, head?_map, head?_filter, found]
      rfl

theorem firstPort_iff (bounded : ∀ ctl ∈ controllers, ctl.numPorts ≤ ahciMaxPorts) {d : Nat}
    {port : PortAddress} (found : ahciGetPortByIndex controllers d = some port) :
    ahciGetFirstPort controllers = some port ↔ d = 0 ∧ FirstServes controllers := by
  constructor
  · intro first
    have serves : FirstServes controllers := by
      cases controllers with
      | nil => cases first
      | cons ctl rest =>
        obtain ⟨i, _, shape⟩ := Option.map_eq_some_iff.mp first
        rw [ahciGetPortByIndex_eq] at found
        obtain ⟨place, other, at', there, inside, attached⟩ :=
          mem_numberedPorts.mp (mem_of_getElem? found)
        have zero : place = 0 := by
          rw [← shape, Nat.zero_add] at there
          exact there.symm
        rw [zero] at at'
        exact ⟨other, at', port.index, inside, attached⟩
    refine ⟨?_, serves⟩
    have zero := (firstPort_of_serves bounded serves).trans first
    rw [ahciGetPortByIndex_eq] at zero found
    have inside := (List.getElem?_eq_some_iff.mp found).1
    exact (getElem?_inj inside (numberedPorts_nodup controllers 0)).mp (found.trans zero.symm)
  · rintro ⟨rfl, serves⟩
    exact (firstPort_of_serves bounded serves).symm.trans found

end First

theorem commandFis_lba (command : UInt8) {lba : Nat} (count : Nat) (small : lba < 2 ^ 48) :
    (commandFis command lba count).lba = lba := by
  have bytes := congrArg decodeLE (encodeLE_shifts lba)
  exact bytes.symm.trans ((decodeLE_encodeLE 6 lba).trans (Nat.mod_eq_of_lt small))

theorem commandFis_count (command : UInt8) (lba : Nat) {count : Nat} (some : 1 ≤ count)
    (small : count ≤ 256) : (commandFis command lba count).count = count := by
  have bytes : decodeLE [UInt8.ofNat count, UInt8.ofNat (count / 2 ^ 8)] = count :=
    (decodeLE_encodeLE 2 count).trans (Nat.mod_eq_of_lt (Nat.lt_of_le_of_lt small (by decide)))
  have value : decodeLE [(commandFis command lba count).countLo,
      (commandFis command lba count).countHi] = count := bytes
  rw [Fis.count, value, if_neg (by omega)]

/-- The window for DMA buffers as the boot stub leaves it: in large pages, which map it to the same
physical addresses. -/
structure BootWindow (dma : AhciDma) (cr3 bytes : Nat) : Prop where
  hintAbove : 0 < dma.mm.hintPfn
  held : TablesHeld dma.mm cr3
  large : LargeWindow dma.mm.memory cr3 dma.dmaVaNext (dmaPages bytes)
  identity : ∀ i < bytes,
    physicalAt dma.mm.memory cr3 (dma.dmaVaNext + i) = some (dma.dmaVaNext + i)

/-- The rest of the machine grants a transfer: there are pages for the buffer, none of them is
refused, and the command completes. -/
structure Granted (dma : AhciDma) (cr3 bytes : Nat) (completes : Bool) : Prop where
  enough : dmaPages bytes ≤ (freeFrames dma.mm).length
  mapped : ∀ k < dmaPages bytes, ¬ Refused dma.mm.memory cr3 (dma.dmaVaNext + k * pageSize)
  completes : completes = true

/-- The first free page is the one that the window leads to. -/
def InPlace (dma : AhciDma) : Prop := (freeFrames dma.mm).head? = some (toPfn dma.dmaVaNext)

section Window

variable {dma : AhciDma} {cr3 bytes : Nat} {memory : ByteMemory}
  (window : BootWindow dma cr3 bytes) (kept : KeepsTables dma.mm.memory memory cr3)

include window kept

/-- No table lies behind the window. -/
theorem BootWindow.keepsTables {after : ByteMemory}
    (same : ∀ address, ¬ (dma.dmaVaNext ≤ address ∧ address < dma.dmaVaNext + bytes) →
      after address = memory address) : KeepsTables memory after cr3 := by
  apply KeepsTables.of_outside
  intro va level slot visits address page
  apply same
  rintro ⟨lower, upper⟩
  obtain ⟨i, rfl⟩ := Nat.exists_eq_add_of_le lower
  have inside : i < bytes := Nat.add_lt_add_iff_left.mp upper
  obtain ⟨entry, found⟩ := window.large.large _ (dmaPages_lt inside)
  have apart := window.large.apart _ (dmaPages_lt inside) _ found va level slot
    (kept.visits_iff.mp visits)
  have samePage : pageOf (dma.dmaVaNext + i) =
      pageOf (dma.dmaVaNext + i / pageSize * pageSize) := by
    have aligned := dma.aligned
    unfold pageOf pageSize at *
    omega
  have there := window.identity i inside
  rw [physicalAt, Dma.translate_page samePage, found, Option.map_some, Option.some.injEq,
    Leaf.physical] at there
  unfold toPfn pageSize at page
  dsimp only at apart there
  omega

theorem BootWindow.physicalAt_eq {i : Nat} (inside : i < bytes) :
    physicalAt memory cr3 (dma.dmaVaNext + i) = some (dma.dmaVaNext + i) := by
  rw [kept.physicalAt]
  exact window.identity i inside

theorem BootWindow.loadVirtual_eq {offset count : Nat} (inside : offset + count ≤ bytes) :
    loadVirtual cr3 memory (dma.dmaVaNext + offset) count =
      .ok (memory.read (dma.dmaVaNext + offset) count) := by
  induction count generalizing offset with
  | zero => rfl
  | succ count ih =>
    have rest := @ih (offset + 1) (by omega)
    rw [← Nat.add_assoc] at rest
    rw [loadVirtual, window.physicalAt_eq kept (by omega)]
    dsimp only
    rw [rest, Nat.add_comm count, read_append]
    rfl

end Window

theorem write_cons (memory : ByteMemory) (address : Nat) (byte : UInt8) (bytes : List UInt8) :
    (memory.write address [byte]).write (address + 1) bytes =
      memory.write address (byte :: bytes) := by
  funext index
  by_cases later : address + 1 ≤ index ∧ index < address + 1 + bytes.length
  · have place : index - address = index - (address + 1) + 1 := by omega
    rw [write_inside _ _ _ _ later.1 later.2,
      write_inside _ _ _ _ (by omega) (by rw [length_cons]; omega), place,
      getD_cons_succ]
  · rw [write_outside _ _ _ _ (by omega)]
    by_cases here : index = address
    · subst here
      rw [write_inside _ _ _ _ (Nat.le_refl _) (by simp), write_inside _ _ _ _ (Nat.le_refl _)
        (by simp), Nat.sub_self]
      rfl
    · rw [write_outside _ _ _ _ (by rw [length_singleton]; omega),
        write_outside _ _ _ _ (by rw [length_cons]; omega)]

theorem BootWindow.storeVirtual_eq {dma : AhciDma} {cr3 size : Nat}
    (window : BootWindow dma cr3 size) (bytes : List UInt8) {memory : ByteMemory}
    (kept : KeepsTables dma.mm.memory memory cr3) {offset : Nat}
    (inside : offset + bytes.length ≤ size) :
    storeVirtual cr3 (dma.dmaVaNext + offset) bytes memory =
      .ok (memory.write (dma.dmaVaNext + offset) bytes) := by
  induction bytes generalizing memory offset with
  | nil =>
    have same : memory.write (dma.dmaVaNext + offset) [] = memory := by
      funext index
      exact write_outside _ _ _ _ (by simp only [length_nil]; omega)
    rw [storeVirtual, same]
  | cons byte bytes ih =>
    rw [length_cons] at inside
    have next := window.keepsTables kept
      (fun address outside => write_outside memory (dma.dmaVaNext + offset) [byte] address
        (by rw [length_singleton]; omega))
    rw [storeVirtual, window.physicalAt_eq kept (by omega)]
    dsimp only
    rw [Nat.add_assoc, ih (kept.trans next) (by omega), ← Nat.add_assoc, write_cons]

section Outcome

variable {controllers : List Controller} {dma : AhciDma} {cr3 lba count : Nat} {completes : Bool}
  {port : PortAddress} {disks : PortAddress → ByteMemory} {buffer : ByteMemory}

theorem clamp_eq (count : Nat) : (if count > 256 then 256 else count) = min count 256 := by
  split
  · omega
  · omega

section Window

variable (window : BootWindow dma cr3 (min count 256 * 512))
include window

/-- The memory and the first page of a granted buffer, and what the two calls do with them. -/
theorem transfers_granted (granted : Granted dma cr3 (min count 256 * 512) completes)
    (first : ahciGetFirstPort controllers = some port) (some : 1 ≤ count) (small : lba < 2 ^ 48) :
    ∃ frame memory, (freeFrames dma.mm).head? = Option.some frame ∧
      KeepsTables dma.mm.memory memory cr3 ∧
      (∀ disks buffer, KeepsTables memory (memory.write (frame * pageSize)
          ((disks port).read (lba * 512) (min count 256 * 512))) cr3 →
        ∃ m, m.disks = disks ∧
          ahciReadSectors completes ⟨controllers, disks, dma, cr3⟩ lba count buffer =
            .ok ⟨statusSuccess, m, buffer.write 0 ((memory.write (frame * pageSize)
              ((disks port).read (lba * 512) (min count 256 * 512))).read dma.dmaVaNext
                (min count 256 * 512))⟩) ∧
      ∀ disks buffer, ∃ m, m.disks = Function.update disks port ((disks port).write (lba * 512)
          ((memory.write dma.dmaVaNext (buffer.read 0 (min count 256 * 512))).read
            (frame * pageSize) (min count 256 * 512))) ∧
        ahciWriteSectors completes ⟨controllers, disks, dma, cr3⟩ lba count buffer =
          .ok ⟨statusSuccess, m, buffer⟩ := by
  have fits : ¬ 256 < dmaPages (min count 256 * 512) := by
    unfold dmaPages pageSize
    omega
  obtain ⟨frame, middle, memory, head, _, kept, alloc⟩ := @ahciAllocDmaBuffer_mapped dma cr3
    (min count 256 * 512) 1 1 (by omega) fits (by unfold pageSize; omega)
    ⟨window.hintAbove, window.held, window.large, granted.enough⟩ granted.mapped
  have success : ntSuccess statusSuccess = true := rfl
  have sectors := @commandFis_count ataCmdReadDmaExt lba (min count 256) (by omega) (by omega)
  have sectorsW := @commandFis_count ataCmdWriteDmaExt lba (min count 256) (by omega) (by omega)
  refine ⟨frame, memory, head, kept, ?_, ?_⟩
  · intro disks buffer quiet
    have load := @BootWindow.loadVirtual_eq _ _ _ _ window (kept.trans quiet) 0 _
      (Nat.le_of_eq (Nat.zero_add (min count 256 * 512)))
    rw [Nat.add_zero] at load
    simp only [ahciReadSectors, first, clamp_eq, alloc, ahciIssueCommand, granted.completes,
      success, carryOut, commandFis_lba _ _ small, sectors, Machine.memory, Machine.withMemory,
      AhciDma.withMm, bind, Except.bind, if_true]
    exact ⟨_, rfl, by
      rw [if_pos (show (commandFis ataCmdReadDmaExt lba (min count 256)).command =
        ataCmdReadDmaExt from rfl), load]⟩
  · intro disks buffer
    have store := window.storeVirtual_eq (buffer.read 0 (min count 256 * 512)) kept
      (show 0 + _ ≤ _ by rw [read_length, Nat.zero_add])
    rw [Nat.add_zero] at store
    simp only [ahciWriteSectors, first, clamp_eq, alloc, ahciIssueCommand, granted.completes,
      success, carryOut, commandFis_lba _ _ small, sectorsW, Machine.memory, Machine.withMemory,
      AhciDma.withMm, bind, Except.bind, if_true, store]
    exact ⟨_, rfl, rfl⟩

theorem alloc_of_not_granted
    (refused : ¬ Granted dma cr3 (min count 256 * 512) completes) (some : 1 ≤ count) :
    ∃ dmaBuf after, ahciAllocDmaBuffer dma cr3 (min count 256 * 512) 1 1 = .ok (dmaBuf, after) ∧
      (ntSuccess dmaBuf.status = true → completes = false) := by
  have noMemory : ¬ ntSuccess statusNoMemory = true := by decide
  have fits : ¬ 256 < dmaPages (min count 256 * 512) := by
    unfold dmaPages pageSize
    omega
  have request : ¬ (min count 256 * 512 = 0 ∨ 1 = 0 ∨ 1 = 0) := by omega
  have word : min count 256 * 512 + (pageSize - 1) < 2 ^ 64 := by
    unfold pageSize
    omega
  by_cases short : (freeFrames dma.mm).length < dmaPages (min count 256 * 512)
  · obtain ⟨after, result, _⟩ := @ahciAllocDmaBuffer_short _ cr3 _ _ _ request fits word
      window.hintAbove short
    exact ⟨_, _, result, fun success => absurd success noMemory⟩
  · have pages : AhciPages dma cr3 (min count 256 * 512) :=
      ⟨window.hintAbove, window.held, window.large, Nat.not_lt.mp short⟩
    by_cases some : ∃ j < dmaPages (min count 256 * 512),
        Refused dma.mm.memory cr3 (dma.dmaVaNext + j * pageSize)
    · obtain ⟨j, inside, last, earlier⟩ := exists_first some
      obtain ⟨after, result, _⟩ :=
        ahciAllocDmaBuffer_refused request fits word pages inside last earlier
      exact ⟨_, _, result, fun success => absurd success noMemory⟩
    · have mapped : ∀ k < dmaPages (min count 256 * 512),
          ¬ Refused dma.mm.memory cr3 (dma.dmaVaNext + k * pageSize) :=
        fun k inside here => some ⟨k, inside, here⟩
      obtain ⟨_, _, _, _, _, _, result⟩ := ahciAllocDmaBuffer_mapped request fits word pages mapped
      refine ⟨_, _, result, fun _ => ?_⟩
      by_contra completes
      exact refused ⟨pages.enough, mapped, by simpa using completes⟩

theorem refused_of_not_granted (refused : ¬ Granted dma cr3 (min count 256 * 512) completes)
    (some : 1 ≤ count) {outcome : Outcome} :
    (ahciReadSectors completes ⟨controllers, disks, dma, cr3⟩ lba count buffer = .ok outcome →
      ¬ ntSuccess outcome.status = true) ∧
    (ahciWriteSectors completes ⟨controllers, disks, dma, cr3⟩ lba count buffer = .ok outcome →
      ¬ ntSuccess outcome.status = true) := by
  have missing : ¬ ntSuccess statusDeviceDoesNotExist = true := by decide
  have timedOut : ¬ ntSuccess statusIoTimeout = true := by decide
  obtain ⟨dmaBuf, after, alloc, gaveUp⟩ := alloc_of_not_granted window refused some
  unfold ahciReadSectors ahciWriteSectors
  cases ahciGetFirstPort controllers with
  | none =>
    refine ⟨fun done => ?_, fun done => ?_⟩
    · cases done
      exact missing
    · cases done
      exact missing
  | some port =>
    simp only [clamp_eq, alloc, bind, Except.bind]
    by_cases success : ntSuccess dmaBuf.status = true
    · obtain rfl := gaveUp success
      simp only [success, ahciIssueCommand, timedOut, Bool.false_eq_true, if_true, if_false]
      refine ⟨fun done => ?_, fun done => ?_⟩
      · cases done
        exact timedOut
      · split at done
        · cases done
        · cases done
          exact timedOut
    · simp only [success, Bool.false_eq_true, if_false]
      refine ⟨fun done => ?_, fun done => ?_⟩
      · cases done
        exact success
      · cases done
        exact success

end Window

end Outcome

/-- Whatever the disks hold, a transfer that succeeds has moved the sectors from `lba` on, all of
them and no others, between the caller's buffer and the disk of the number, and has written to no
other disk. -/
structure TransfersExactly (controllers : List Controller) (dma : AhciDma) (cr3 : Nat)
    (completes : Bool) (d lba count : Nat) : Prop where
  reads : ∀ disks buffer outcome,
    ahciReadSectorsEx completes ⟨controllers, disks, dma, cr3⟩ d lba count buffer = .ok outcome →
    ntSuccess outcome.status = true →
    ∃ port, ahciGetPortByIndex controllers d = some port ∧ outcome.machine.disks = disks ∧
      outcome.buffer = buffer.write 0 ((disks port).read (lba * 512) (count * 512))
  writes : ∀ disks buffer outcome,
    ahciWriteSectorsEx completes ⟨controllers, disks, dma, cr3⟩ d lba count buffer = .ok outcome →
    ntSuccess outcome.status = true →
    ∃ port, ahciGetPortByIndex controllers d = some port ∧
      outcome.machine.disks = Function.update disks port
        ((disks port).write (lba * 512) (buffer.read 0 (count * 512))) ∧
      outcome.buffer = buffer

/-- Bytes of two memories that fill an empty buffer alike. -/
theorem byte_of_copied {first second : ByteMemory} {start place short long : Nat}
    (copied : ByteMemory.write (fun _ => 0) 0 (first.read start short) =
      ByteMemory.write (fun _ => 0) 0 (second.read place long)) {index : Nat}
    (inside : index < long) :
    second (place + index) = if index < short then first (start + index) else 0 := by
  have byte := congrFun copied index
  rw [write_inside _ _ (second.read place long) _ (Nat.zero_le _) (by rw [read_length]; omega),
    getD_eq_getElem?_getD, Nat.sub_zero, read_getElem? _ _ _ _ inside, Option.getD_some]
    at byte
  rw [← byte]
  by_cases loaded : index < short
  · rw [if_pos loaded, write_inside _ _ _ _ (Nat.zero_le _) (by rw [read_length]; omega),
      getD_eq_getElem?_getD, Nat.sub_zero, read_getElem? _ _ _ _ loaded, Option.getD_some]
  · rw [if_neg loaded, write_outside _ _ _ _ (by rw [read_length]; omega)]

section Exact

variable {controllers : List Controller} {dma : AhciDma} {cr3 d lba count : Nat}
  {completes : Bool} {port first : PortAddress}
  (found : ahciGetPortByIndex controllers d = some port) (some : 1 ≤ count) (small : lba < 2 ^ 48)
  (window : BootWindow dma cr3 (min count 256 * 512))
  (granted : Granted dma cr3 (min count 256 * 512) completes)

include found some small window granted

theorem transfersExactly_of_first (same : ahciGetFirstPort controllers = Option.some port)
    (fits : count ≤ 256) (inPlace : InPlace dma) :
    TransfersExactly controllers dma cr3 completes d lba count := by
  obtain ⟨frame, memory, head, kept, reads, writes⟩ :=
    transfers_granted window granted same some small
  rw [Nat.min_eq_left fits] at reads writes window
  have place : frame * pageSize = dma.dmaVaNext := by
    rw [Option.some.inj (head.symm.trans inPlace), toPfn]
    exact Nat.div_mul_cancel (Nat.dvd_of_mod_eq_zero dma.aligned)
  rw [place] at reads writes
  constructor
  · intro disks buffer outcome done _
    obtain ⟨m, kept', result⟩ := reads disks buffer (window.keepsTables kept
      fun address outside => write_outside _ _ _ _ (by rw [read_length]; omega))
    have filled := read_write_same memory dma.dmaVaNext
      ((disks port).read (lba * 512) (count * 512))
    rw [read_length] at filled
    rw [ahciReadSectorsEx, found] at done
    cases result.symm.trans done
    exact ⟨port, found, kept', by rw [filled]⟩
  · intro disks buffer outcome done _
    obtain ⟨m, updated, result⟩ := writes disks buffer
    have stored := read_write_same memory dma.dmaVaNext (buffer.read 0 (count * 512))
    rw [read_length] at stored
    rw [stored] at updated
    rw [ahciWriteSectorsEx, found] at done
    cases result.symm.trans done
    exact ⟨port, found, updated, rfl⟩

section Exact'

variable (exact' : TransfersExactly controllers dma cr3 completes d lba count)
include exact'

/-- What an exact transfer says about a byte of the caller's buffer, when all that the first disk
changes in memory is the first byte of the first free page. -/
theorem TransfersExactly.byte (same : ahciGetFirstPort controllers = Option.some first) :
    ∃ (frame : Nat) (memory : ByteMemory), (freeFrames dma.mm).head? = Option.some frame ∧
      ∀ (value : UInt8) (disks : PortAddress → ByteMemory),
        (∀ i < min count 256 * 512, disks first (lba * 512 + i) =
          if i = 0 then value else memory (frame * pageSize + i)) →
        ∀ index < count * 512, disks port (lba * 512 + index) =
          if index < min count 256 * 512 then
            if dma.dmaVaNext + index = frame * pageSize then value
            else memory (dma.dmaVaNext + index)
          else 0 := by
  obtain ⟨frame, memory, head, kept, reads, _⟩ :=
    transfers_granted window granted same some small
  refine ⟨frame, memory, head, fun value disks holds index inside => ?_⟩
  have written : ∀ address, memory.write (frame * pageSize)
      ((disks first).read (lba * 512) (min count 256 * 512)) address =
        if address = frame * pageSize then value else memory address := by
    intro address
    by_cases within : frame * pageSize ≤ address ∧
        address < frame * pageSize + min count 256 * 512
    · obtain ⟨i, rfl⟩ := Nat.exists_eq_add_of_le within.1
      rw [write_inside _ _ _ _ within.1 (by rw [read_length]; exact within.2),
        Nat.add_sub_cancel_left, getD_eq_getElem?_getD, read_getElem? _ _ _ _ (by omega),
        Option.getD_some, holds i (by omega)]
      by_cases start : i = 0
      · rw [if_pos start, if_pos (by omega)]
      · rw [if_neg start, if_neg (by omega)]
    · rw [write_outside _ _ _ _ (by rw [read_length]; omega), if_neg (by omega)]
  have free : dma.mm.pfnDatabase.Free frame :=
    (mem_freeFrames.mp (mem_of_mem_head? head)).2
  have quiet : KeepsTables memory (memory.write (frame * pageSize)
      ((disks first).read (lba * 512) (min count 256 * 512))) cr3 := by
    apply KeepsTables.of_outside
    intro va level slot visits address page
    have apart := window.held va level slot (kept.visits_iff.mp visits)
    rw [written, if_neg]
    rintro rfl
    rw [toPfn_address] at page
    exact apart (page ▸ free)
  obtain ⟨m, _, result⟩ := reads disks (fun _ => 0) quiet
  have success : ntSuccess statusSuccess = true := rfl
  have call : ahciReadSectorsEx completes ⟨controllers, disks, dma, cr3⟩ d lba count
      (fun _ => 0) = ahciReadSectors completes ⟨controllers, disks, dma, cr3⟩ lba count
        (fun _ => 0) := by
    rw [ahciReadSectorsEx, found]
  obtain ⟨other, shape, _, buffer⟩ :=
    exact'.reads disks (fun _ => 0) _ (call.trans result) success
  obtain rfl := Option.some.inj (found.symm.trans shape)
  have byte := byte_of_copied buffer inside
  rw [written] at byte
  exact byte

/-- Only the first port's disk is reached, and only in place. -/
theorem TransfersExactly.onlyFirst (same : ahciGetFirstPort controllers = Option.some first) :
    first = port ∧ count ≤ 256 ∧ InPlace dma := by
  obtain ⟨frame, memory, head, byte⟩ :=
    exact'.byte found some small window granted same
  have bytes : 0 < min count 256 * 512 := by omega
  have wanted : 0 < count * 512 := Nat.mul_pos some (by decide)
  have differs : ∀ value : UInt8, ∃ other, other ≠ value := by
    intro value
    by_cases zero : value = 0
    · exact ⟨1, by rw [zero]; decide⟩
    · exact ⟨0, fun equal => zero equal.symm⟩
  obtain ⟨image, start, rest⟩ : ∃ image : UInt8 → ByteMemory,
      (∀ value, image value (lba * 512) = value) ∧ ∀ value, ∀ i, i ≠ 0 →
        image value (lba * 512 + i) = memory (frame * pageSize + i) := by
    refine ⟨fun value address => if address = lba * 512 then value
      else memory (frame * pageSize + (address - lba * 512)), fun _ => if_pos rfl, ?_⟩
    intro value i positive
    dsimp only
    rw [if_neg (by omega), Nat.add_sub_cancel_left]
  have holds : ∀ value, ∀ i, image value (lba * 512 + i) =
      if i = 0 then value else memory (frame * pageSize + i) := by
    intro value i
    by_cases zero : i = 0
    · rw [if_pos zero, zero, Nat.add_zero, start]
    · rw [if_neg zero, rest value i zero]
  have port' : first = port := by
    by_contra other
    obtain ⟨value, different⟩ := differs
      (if dma.dmaVaNext = frame * pageSize then 0 else memory dma.dmaVaNext)
    have read := byte 0 (fun disk => if disk = first then image 0 else fun _ => value)
      (fun i _ => by rw [if_pos rfl, holds]) 0 wanted
    rw [if_neg (Ne.symm other), if_pos bytes, Nat.add_zero] at read
    exact different read
  subst port'
  refine ⟨rfl, ?_, ?_⟩
  · by_contra more
    have limit : min count 256 * 512 < count * 512 := by omega
    have read := byte 0
      (fun _ address => if address = lba * 512 + min count 256 * 512 then 1 else image 0 address)
      (fun i inside => by
        have other : lba * 512 + i ≠ lba * 512 + min count 256 * 512 := by omega
        rw [if_neg other, holds])
      (min count 256 * 512) limit
    rw [if_pos rfl, if_neg (Nat.lt_irrefl _)] at read
    cases read
  · obtain ⟨value, different⟩ := differs (memory dma.dmaVaNext)
    have read := byte value (fun _ => image value) (fun i _ => holds value i) 0 wanted
    rw [holds, if_pos rfl, if_pos bytes, Nat.add_zero] at read
    by_cases place : dma.dmaVaNext = frame * pageSize
    · rw [InPlace, head, place, toPfn_address]
    · rw [if_neg place] at read
      exact absurd read different

end Exact'

end Exact

/-- A transfer of a numbered disk is exact when it cannot succeed, and otherwise exactly for disk 0
on the first controller, up to 256 sectors, with the first free page where the window leads. -/
theorem transfersExactly_iff {controllers : List Controller} {dma : AhciDma} {cr3 d lba count : Nat}
    {completes : Bool} (bounded : ∀ ctl ∈ controllers, ctl.numPorts ≤ ahciMaxPorts)
    (inside : d < ahciGetDiskCount controllers) (small : lba < 2 ^ 48) (some : 1 ≤ count)
    (window : BootWindow dma cr3 (min count 256 * 512)) :
    TransfersExactly controllers dma cr3 completes d lba count ↔
      FirstEmpty controllers ∨ ¬ Granted dma cr3 (min count 256 * 512) completes ∨
        d = 0 ∧ FirstServes controllers ∧ count ≤ 256 ∧ InPlace dma := by
  rw [ahciGetDiskCount_eq] at inside
  have found : ahciGetPortByIndex controllers d = Option.some (numberedPorts 0 controllers)[d] := by
    rw [ahciGetPortByIndex_eq, getElem?_eq_getElem inside]
  by_cases granted : Granted dma cr3 (min count 256 * 512) completes
  · cases same : ahciGetFirstPort controllers with
    | none =>
      have missing : ¬ ntSuccess statusDeviceDoesNotExist = true := by decide
      refine iff_of_true ⟨?_, ?_⟩ (.inl (ahciGetFirstPort_none.mp same))
      · intro disks buffer outcome done success
        simp only [ahciReadSectorsEx, found, ahciReadSectors, same] at done
        cases done
        exact absurd success missing
      · intro disks buffer outcome done success
        simp only [ahciWriteSectorsEx, found, ahciWriteSectors, same] at done
        cases done
        exact absurd success missing
    | some first =>
      have occupied : ¬ FirstEmpty controllers := fun empty => by
        rw [ahciGetFirstPort_none.mpr empty] at same
        cases same
      constructor
      · intro exact'
        obtain ⟨port, fits, inPlace⟩ := exact'.onlyFirst found some small window granted same
        obtain ⟨zero, serves⟩ := (firstPort_iff bounded found).mp (same.trans (congrArg _ port))
        exact .inr (.inr ⟨zero, serves, fits, inPlace⟩)
      · rintro (empty | refused | ⟨zero, serves, fits, inPlace⟩)
        · exact absurd empty occupied
        · exact absurd granted refused
        · exact transfersExactly_of_first found some small window granted
            ((firstPort_iff bounded found).mpr ⟨zero, serves⟩) fits inPlace
  · refine iff_of_true ⟨?_, ?_⟩ (.inr (.inl granted))
    · intro disks buffer outcome done success
      rw [ahciReadSectorsEx, found] at done
      exact absurd success ((refused_of_not_granted window granted some).1 done)
    · intro disks buffer outcome done success
      rw [ahciWriteSectorsEx, found] at done
      exact absurd success ((refused_of_not_granted window granted some).2 done)

/-- The controllers, by their implemented ports and the disks found there. -/
def initControllers (machines : List (BitVec 32 × (Nat → Bool))) : List Controller :=
  machines.map fun machine => ahciInitController machine.1 machine.2

theorem initControllers_bounded (machines : List (BitVec 32 × (Nat → Bool))) :
    ∀ ctl ∈ initControllers machines, ctl.numPorts ≤ ahciMaxPorts := by
  intro ctl member
  obtain ⟨machine, _, rfl⟩ := List.mem_map.mp member
  have bound := @countP_le_length _ (fun i => machine.1.getLsbD i) (List.range 32)
  rwa [length_range] at bound

/-- Numbers and ports agree exactly where no disk is at or beyond `num_ports`; the transfers of a
number are exact only for the first disk, up to 256 sectors, and where the window for DMA buffers
leads to the first free page. -/
theorem ahciAddressing_iff (machines : List (BitVec 32 × (Nat → Bool))) :
    (Numbered (initControllers machines) ↔ LowPorts (initControllers machines)) ∧
    ∀ d < ahciGetDiskCount (initControllers machines), ∀ lba < 2 ^ 48, ∀ count ≥ 1,
      ∀ completes dma cr3, BootWindow dma cr3 (min count 256 * 512) →
      (TransfersExactly (initControllers machines) dma cr3 completes d lba count ↔
        FirstEmpty (initControllers machines) ∨
          ¬ Granted dma cr3 (min count 256 * 512) completes ∨
          d = 0 ∧ FirstServes (initControllers machines) ∧ count ≤ 256 ∧ InPlace dma) :=
  ⟨numbered_iff _, fun _ inside _ small _ some _ _ _ window =>
    transfersExactly_iff (initControllers_bounded machines) inside small some window⟩

section BootDma

variable {states : List PageState} {few : states.length ≤ 256}

theorem bootDma_bootWindow : BootWindow (bootDma states few) 0x1000 512 where
  hintAbove := Nat.succ_pos 255
  held := bootDma_tablesHeld
  large := @largeWindow_of_bootTables _ _ 0xD0000000 1 bootTables_bootWord (by decide) (by decide)
  identity := fun i inside => bootDma_physicalAt (show 0xD0000000 + i < 2 ^ 32 by omega)

theorem bootDma_granted (free : states[0]? = some .pfnFree) :
    Granted (bootDma states few) 0x1000 512 true where
  enough := by
    obtain ⟨rest, list⟩ := head?_eq_some_iff.mp (@bootDma_head states few free)
    rw [list]
    exact Nat.le_add_left 1 _
  mapped := by
    rintro k inside ⟨leaf, there, zero⟩
    obtain rfl : k = 0 := Nat.lt_one_iff.mp inside
    have here :=
      bootTables_bootWord.translate_eq (show 0xD0000000 + 0 * pageSize < 2 ^ 36 by decide)
    obtain rfl := Option.some.inj (here.symm.trans there)
    exact absurd zero (by decide)
  completes := rfl

theorem bootDma_not_inPlace (free : states[0]? = some .pfnFree) :
    ¬ InPlace (bootDma states few) := by
  intro inPlace
  have frame : 256 = toPfn 0xD0000000 :=
    Option.some.inj ((@bootDma_head states few free).symm.trans inPlace)
  exact absurd frame (by decide)

end BootDma

/-- After boot, with one free page at 1 MB, not even a transfer of the only disk is exact. -/
theorem onlyDisk_misread :
    Numbered (initControllers [(1#32, fun _ => true)]) ∧
      ¬ TransfersExactly (initControllers [(1#32, fun _ => true)])
        (bootDma [.pfnFree] (by decide)) 0x1000 true 0 0 1 := by
  have all := ahciAddressing_iff [(1#32, fun _ => true)]
  have one : ahciGetDiskCount (initControllers [(1#32, fun _ => true)]) = 1 := by decide
  refine ⟨all.1.mpr ?_, fun exact' => ?_⟩
  · intro ctl member i attached
    obtain rfl := mem_singleton.mp member
    have bit : (1#32).getLsbD i = true := (Bool.and_eq_true_iff.mp attached).1
    rw [BitVec.getLsbD_one] at bit
    obtain rfl : i = 0 := decide_eq_true_iff.mp bit
    decide
  · rcases (all.2 0 (by omega) 0 (by decide) 1 (Nat.le_refl 1) true _ 0x1000
      bootDma_bootWindow).mp exact' with empty | refused | ⟨_, _, _, inPlace⟩
    · have none := empty _ rfl 0 (by decide)
      cases none
    · exact refused (bootDma_granted rfl)
    · exact bootDma_not_inPlace rfl inPlace

/-- With disks at ports 0 and 1 a transfer of disk 1 goes to disk 0; the disk at the only
implemented port 2 has no number. -/
theorem secondDisk_misaddressed :
    ahciGetDiskCount (initControllers [(3#32, fun _ => true)]) = 2 ∧
      ¬ TransfersExactly (initControllers [(3#32, fun _ => true)])
        (bootDma [.pfnFree] (by decide)) 0x1000 true 1 0 1 ∧
      ¬ Numbered (initControllers [(4#32, fun _ => true)]) := by
  have two : ahciGetDiskCount (initControllers [(3#32, fun _ => true)]) = 2 := by decide
  refine ⟨two, ?_, ?_⟩
  · intro exact'
    have condition := (transfersExactly_iff (initControllers_bounded _)
      (show 1 < ahciGetDiskCount (initControllers [(3#32, fun _ => true)]) by omega)
      (by decide) (Nat.le_refl 1) bootDma_bootWindow).mp exact'
    rcases condition with empty | refused | ⟨zero, _⟩
    · have none := empty _ rfl 0 (by decide)
      cases none
    · exact refused (bootDma_granted rfl)
    · cases zero
  · intro numbered
    have inside := (numbered_iff _).mp numbered _ mem_cons_self 2 (by decide)
    revert inside
    decide

end MinNT.Ahci
