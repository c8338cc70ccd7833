import MinNT.Cm.Values
import MinNT.Fs.FileHandles
import MinNT.Ke.SpinLock

/-! The calls of `cm/cm.c` and `FsOpenFile` with the locks they take. What the calls answer is what
`cmCreateKey` and the others say without the locks. -/

namespace MinNT.Cm

open Ke NullTerminated

/-- `sizeof(CM_KEY_NODE)`. -/
def sizeofKeyNode : Nat := 72

/-- `sizeof(CM_KEY_VALUE)`. -/
def sizeofKeyValue : Nat := 56

/-- What the pool answers to the two allocations of a node or of a value. -/
structure PoolAnswers where
  first : PoolAnswer
  second : PoolAnswer

/-- Both allocations succeed. -/
def PoolAnswers.room (pool : PoolAnswers) : Bool := pool.first.room && pool.second.room

/-- The answer where the window over the pool may be used up. -/
def answerWithin (answer : PoolAnswer) (inside : Bool) : PoolAnswer :=
  { answer with room := answer.room && inside }

/-- `CmAllocateKeyNode`. -/
def lockedAllocateKeyNode (cpu : Processor) (registry : Registry) (name : List WChar)
    (pool : PoolAnswers) : Except Halt (Option (Nat × Registry) × Processor) := do
  let (node, cpu) ← exAllocatePoolWithTag cpu sizeofKeyNode
    (answerWithin pool.first (registry.count < cmNodeLimit))
  if !node then return (none, cpu)
  else
    let (nameBuf, cpu) ← exAllocatePoolWithTag cpu (2 * name.length + 2) pool.second
    if !nameBuf then
      let cpu ← exFreePoolWithTag cpu
      return (none, cpu)
    else return (cmAllocateKeyNode registry name true, cpu)

/-- The loop of `CmCreateKey` over the segments, and what follows it. -/
def lockedFindOrCreate (pool : Nat → PoolAnswers) :
    List (List WChar) → Nat → Registry → Processor →
      Except Halt ((NtStatus × Option Nat × Registry) × Processor)
  | [], parent, registry, cpu => do
      let cpu ← keReleaseSpinLock cpu .cmLock 0
      return ((statusSuccess, some parent, registry), cpu)
  | segment :: segments, parent, registry, cpu =>
      match cmFindChild registry parent segment with
      | none => .error .endless
      | some (some node) => lockedFindOrCreate pool segments node registry cpu
      | some none => do
          let (allocated, cpu) ← lockedAllocateKeyNode cpu registry segment (pool registry.count)
          match allocated with
          | none => do
              let cpu ← keReleaseSpinLock cpu .cmLock 0
              return ((statusNoMemory, none, registry), cpu)
          | some (node, registry) =>
              match linkChild registry parent node with
              | none => .error .endless
              | some linked => lockedFindOrCreate pool segments node linked cpu

/-- `CmCreateKey`. -/
def lockedCreateKey (cpu : Processor) (registry : Registry) (keyName : List WChar)
    (pool : Nat → PoolAnswers) :
    Except Halt ((NtStatus × Option Nat × Registry) × Processor) := do
  let (_, cpu) ← keAcquireSpinLock cpu .cmLock
  lockedFindOrCreate pool (pathSegments keyName.length (skipBackslash keyName)) cmGetRootKey
    registry cpu

/-- `CmOpenKey`. -/
def lockedOpenKey (cpu : Processor) (registry : Registry) (keyName : List WChar)
    (pool : Nat → PoolAnswers) :
    Except Halt ((NtStatus × Option Nat × Registry) × Processor) :=
  lockedCreateKey cpu registry keyName pool

/-- `CmSetValue`. -/
def lockedSetValue (cpu : Processor) (registry : Registry) (key : Option Nat)
    (valueName : Option UnicodeString) (dataType : Nat) (data : List UInt8) (pool : PoolAnswers) :
    Except Halt ((NtStatus × Registry) × Processor) :=
  match key, valueName with
  | some key, some valueName => do
      let (dataBuf, cpu) ← exAllocatePoolWithTag cpu data.length pool.first
      if !dataBuf then return ((statusNoMemory, registry), cpu)
      else
        let (value, cpu) ← exAllocatePoolWithTag cpu sizeofKeyValue
          (answerWithin pool.second ((registry.nodes key).values.length < cmValueLimit))
        if !value then
          let cpu ← exFreePoolWithTag cpu
          return ((statusNoMemory, registry), cpu)
        else
          let (_, cpu) ← keAcquireSpinLock cpu .cmLock
          let registry :=
            registry.setNode key ((registry.nodes key).addValue ⟨valueName, dataType, data⟩)
          let cpu ← keReleaseSpinLock cpu .cmLock 0
          return ((statusSuccess, registry), cpu)
  | _, _ => .ok ((statusInvalidParameter, registry), cpu)

/-- `CmQueryValue`. -/
def lockedQueryValue (cpu : Processor) (buffers : Buffers) (registry : Registry)
    (key : Option Nat) (valueName : List WChar) (outDataLength : Option Nat) :
    Except Halt (QueryResult × Processor) :=
  match key with
  | none => .ok (⟨statusInvalidParameter, none, none, none⟩, cpu)
  | some key => do
      let (_, cpu) ← keAcquireSpinLock cpu .cmLock
      match (registry.nodes key).values.find? fun value => value.name.equals buffers valueName with
      | some value => do
          let cpu ← keReleaseSpinLock cpu .cmLock 0
          return (⟨statusSuccess, some value.dataType, some value.data.length,
            if outDataLength.any fun length => value.data.length ≤ length then some value.data
            else none⟩, cpu)
      | none => do
          let cpu ← keReleaseSpinLock cpu .cmLock 0
          return (⟨statusObjectNameNotFound, none, none, none⟩, cpu)

/-- `CmEnumerateSubKey`. -/
def lockedEnumerateSubKey (cpu : Processor) (registry : Registry) (key : Option Nat)
    (index : Nat) : Except Halt ((NtStatus × Option (List WChar)) × Processor) :=
  match key with
  | none => .ok ((statusInvalidParameter, none), cpu)
  | some key => do
      let (_, cpu) ← keAcquireSpinLock cpu .cmLock
      match follow registry.next index (registry.nodes key).childHead with
      | none => do
          let cpu ← keReleaseSpinLock cpu .cmLock 0
          return ((statusNoMoreEntries, none), cpu)
      | some child => do
          let cpu ← keReleaseSpinLock cpu .cmLock 0
          return ((statusSuccess, some (registry.nodes child).name), cpu)

/-- What `CmEnumerateValue` returns and leaves in its out parameters. -/
structure EnumerateResult where
  status : NtStatus
  name : Option UnicodeString
  dataType : Option Nat
  data : Option (List UInt8)
deriving DecidableEq, Repr

/-- `CmEnumerateValue`. -/
def lockedEnumerateValue (cpu : Processor) (registry : Registry) (key : Option Nat) (index : Nat)
    (outDataLength : Option Nat) : Except Halt (EnumerateResult × Processor) :=
  match key with
  | none => .ok (⟨statusInvalidParameter, none, none, none⟩, cpu)
  | some key => do
      let (_, cpu) ← keAcquireSpinLock cpu .cmLock
      match (registry.nodes key).values[index]? with
      | none => do
          let cpu ← keReleaseSpinLock cpu .cmLock 0
          return (⟨statusNoMoreEntries, none, none, none⟩, cpu)
      | some value => do
          let cpu ← keReleaseSpinLock cpu .cmLock 0
          return (⟨statusSuccess, some value.name, some value.dataType,
            if outDataLength.any fun length => value.data.length ≤ length then some value.data
            else none⟩, cpu)

/-- `FsOpenFile`. -/
def lockedOpenFile (cpu : Processor) (files : Fs.FileSystem) (name : Fs.WideString)
    (pool : PoolAnswer) :
    Except Halt ((NtStatus × Option Nat × Fs.FileSystem) × Processor) := do
  let (_, cpu) ← keAcquireSpinLock cpu .fsLock
  match Fs.findOpenFile files name with
  | some fd => do
      let cpu ← keReleaseSpinLock cpu .fsLock 0
      return ((statusSuccess, some fd, files), cpu)
  | none =>
      match files.disk.bind fun disk => Fs.fsFindFile disk name with
      | none => do
          let cpu ← keReleaseSpinLock cpu .fsLock 0
          return ((statusNoSuchFile, none, files), cpu)
      | some entry =>
          match Fs.freeDescriptor files with
          | none => do
              let cpu ← keReleaseSpinLock cpu .fsLock 0
              return ((statusInsufficientResources, none, files), cpu)
          | some fd => do
              let (buffer, cpu) ← exAllocatePoolWithTag cpu (2 * name.length + 2) pool
              if !buffer then
                let cpu ← keReleaseSpinLock cpu .fsLock 0
                return ((statusNoMemory, none, files.setOpenFile fd ⟨false, [], ⟨0, 0⟩⟩), cpu)
              else
                let cpu ← keReleaseSpinLock cpu .fsLock 0
                return ((statusSuccess, some fd,
                  files.setOpenFile fd ⟨true, name, ⟨0, entry⟩⟩), cpu)

inductive LockedCall where
  | createKey (registry : Registry) (keyName : List WChar) (pool : Nat → PoolAnswers)
  | openKey (registry : Registry) (keyName : List WChar) (pool : Nat → PoolAnswers)
  | setValue (registry : Registry) (key : Option Nat) (valueName : Option UnicodeString)
      (dataType : Nat) (data : List UInt8) (pool : PoolAnswers)
  | queryValue (buffers : Buffers) (registry : Registry) (key : Option Nat)
      (valueName : List WChar) (outDataLength : Option Nat)
  | enumerateSubKey (registry : Registry) (key : Option Nat) (index : Nat)
  | enumerateValue (registry : Registry) (key : Option Nat) (index : Nat)
      (outDataLength : Option Nat)
  | openFile (files : Fs.FileSystem) (name : Fs.WideString) (pool : PoolAnswer)

/-- The status and the processor that a call returns with. -/
def LockedCall.run (cpu : Processor) : LockedCall → Except Halt (NtStatus × Processor)
  | .createKey registry keyName pool =>
      (lockedCreateKey cpu registry keyName pool).map fun answer => (answer.1.1, answer.2)
  | .openKey registry keyName pool =>
      (lockedOpenKey cpu registry keyName pool).map fun answer => (answer.1.1, answer.2)
  | .setValue registry key valueName dataType data pool =>
      (lockedSetValue cpu registry key valueName dataType data pool).map fun answer =>
        (answer.1.1, answer.2)
  | .queryValue buffers registry key valueName outDataLength =>
      (lockedQueryValue cpu buffers registry key valueName outDataLength).map fun answer =>
        (answer.1.status, answer.2)
  | .enumerateSubKey registry key index =>
      (lockedEnumerateSubKey cpu registry key index).map fun answer => (answer.1.1, answer.2)
  | .enumerateValue registry key index outDataLength =>
      (lockedEnumerateValue cpu registry key index outDataLength).map fun answer =>
        (answer.1.status, answer.2)
  | .openFile files name pool =>
      (lockedOpenFile cpu files name pool).map fun answer => (answer.1.1, answer.2)

/-- The call returns before it takes its lock: it has no key or no name, or no memory for a
value. -/
def LockedCall.ReturnsEarly : LockedCall → Prop
  | .createKey _ _ _ => False
  | .openKey _ _ _ => False
  | .setValue registry key valueName _ data pool =>
      key = none ∨ valueName = none ∨ data = [] ∨ pool.room = false ∨
        ∃ node ∈ key, cmValueLimit ≤ (registry.nodes node).values.length
  | .queryValue _ _ key _ _ => key = none
  | .enumerateSubKey _ key _ => key = none
  | .enumerateValue _ key _ _ => key = none
  | .openFile _ _ _ => False

section Calls

variable {cpu : Processor} (idle : ∀ lock, cpu.held lock = false)

include idle

theorem locked_free {lock other : SpinLock} (different : other ≠ lock) :
    (cpu.locked lock).held other = false :=
  (Function.update_of_ne different _ _).trans (idle other)

theorem locked_release (lock : SpinLock) :
    keReleaseSpinLock (cpu.locked lock) lock 0 = .ok (cpu.left passiveLevel) :=
  keReleaseSpinLock_ok (idle lock) (Nat.zero_le _)

theorem lockedAllocateKeyNode_eq (registry : Registry) (name : List WChar) (pool : PoolAnswers) :
    lockedAllocateKeyNode (cpu.locked .cmLock) registry name pool =
      .ok (cmAllocateKeyNode registry name pool.room, cpu.locked .cmLock) := by
  have allocate : ∀ numberOfBytes answer, numberOfBytes ≠ 0 →
      exAllocatePoolWithTag (cpu.locked .cmLock) numberOfBytes answer =
        .ok (answer.room, cpu.locked .cmLock) := by
    intro numberOfBytes answer positive
    exact exAllocatePoolWithTag_ok (Nat.le_refl _) (locked_free idle (by decide))
      (locked_free idle (by decide)) positive answer
  have free : exFreePoolWithTag (cpu.locked .cmLock) = .ok (cpu.locked .cmLock) :=
    exFreePoolWithTag_ok (Nat.le_refl _) (locked_free idle (by decide))
  unfold lockedAllocateKeyNode
  rw [allocate _ _ (by decide)]
  simp only [bind, Except.bind, allocate _ _ (Nat.succ_ne_zero _), free]
  unfold cmAllocateKeyNode PoolAnswers.room answerWithin
  by_cases inside : registry.count < cmNodeLimit
  · cases first : pool.first.room
    · simp [inside]
      rfl
    · cases second : pool.second.room
      · simp [inside]
        rfl
      · simp [inside]
        rfl
  · simp [inside]
    rfl

theorem lockedFindOrCreate_eq (pool : Nat → PoolAnswers) (segments : List (List WChar))
    (parent : Nat) (registry : Registry) :
    lockedFindOrCreate pool segments parent registry (cpu.locked .cmLock) =
      (findOrCreate (fun node => (pool node).room) segments parent registry).elim
        (.error .endless) fun answer => .ok (answer, cpu.left passiveLevel) := by
  induction segments generalizing parent registry with
  | nil =>
    rw [lockedFindOrCreate, locked_release idle]
    rfl
  | cons segment segments ih =>
    rw [lockedFindOrCreate, findOrCreate]
    cases cmFindChild registry parent segment with
    | none => rfl
    | some found =>
      cases found with
      | some node => exact ih node registry
      | none =>
        dsimp only
        rw [lockedAllocateKeyNode_eq idle]
        simp only [bind, Except.bind]
        cases cmAllocateKeyNode registry segment (pool registry.count).room with
        | none =>
          dsimp only
          rw [locked_release idle]
          rfl
        | some allocated =>
          dsimp only
          cases linkChild allocated.2 parent allocated.1 with
          | none => rfl
          | some linked => exact ih allocated.1 linked

variable (low : cpu.irql ≤ dispatchLevel)

include low

theorem lockedCreateKey_eq (registry : Registry) (keyName : List WChar) (pool : Nat → PoolAnswers) :
    lockedCreateKey cpu registry keyName pool =
      (cmCreateKey registry keyName fun node => (pool node).room).elim (.error .endless)
        fun answer => .ok (answer, cpu.left passiveLevel) := by
  unfold lockedCreateKey
  rw [keAcquireSpinLock_ok low (idle .cmLock)]
  exact lockedFindOrCreate_eq idle pool _ _ registry

theorem lockedQueryValue_eq (buffers : Buffers) (registry : Registry) (key : Option Nat)
    (valueName : List WChar) (outDataLength : Option Nat) :
    lockedQueryValue cpu buffers registry key valueName outDataLength =
      .ok (cmQueryValue buffers registry key valueName outDataLength,
        if key = none then cpu else cpu.left passiveLevel) := by
  cases key with
  | none => rfl
  | some key =>
    unfold lockedQueryValue cmQueryValue
    dsimp only
    rw [keAcquireSpinLock_ok low (idle .cmLock)]
    simp only [bind, Except.bind, locked_release idle]
    cases (registry.nodes key).values.find? fun value =>
        value.name.equals buffers valueName with
    | none => rfl
    | some value => rfl

theorem lockedEnumerateSubKey_eq (registry : Registry) (key : Option Nat) (index : Nat) :
    lockedEnumerateSubKey cpu registry key index =
      .ok (cmEnumerateSubKey registry key index,
        if key = none then cpu else cpu.left passiveLevel) := by
  cases key with
  | none => rfl
  | some key =>
    unfold lockedEnumerateSubKey cmEnumerateSubKey
    dsimp only
    rw [keAcquireSpinLock_ok low (idle .cmLock)]
    simp only [bind, Except.bind, locked_release idle]
    cases follow registry.next index (registry.nodes key).childHead with
    | none => rfl
    | some child => rfl

theorem lockedEnumerateValue_after (registry : Registry) (key : Option Nat) (index : Nat)
    (outDataLength : Option Nat) :
    (lockedEnumerateValue cpu registry key index outDataLength).map Prod.snd =
      .ok (if key = none then cpu else cpu.left passiveLevel) := by
  cases key with
  | none => rfl
  | some key =>
    unfold lockedEnumerateValue
    dsimp only
    rw [keAcquireSpinLock_ok low (idle .cmLock)]
    simp only [bind, Except.bind, locked_release idle]
    cases (registry.nodes key).values[index]? with
    | none => rfl
    | some value => rfl

theorem lockedOpenFile_eq (files : Fs.FileSystem) (name : Fs.WideString) (pool : PoolAnswer) :
    lockedOpenFile cpu files name pool =
      .ok (Fs.fsOpenFile files name pool.room, cpu.left passiveLevel) := by
  have allocate : exAllocatePoolWithTag (cpu.locked .fsLock) (2 * name.length + 2) pool =
      .ok (pool.room, cpu.locked .fsLock) :=
    exAllocatePoolWithTag_ok (Nat.le_refl _) (locked_free idle (by decide))
      (locked_free idle (by decide)) (Nat.succ_ne_zero _) pool
  unfold lockedOpenFile Fs.fsOpenFile
  rw [keAcquireSpinLock_ok low (idle .fsLock)]
  simp only [bind, Except.bind, locked_release idle, allocate]
  cases Fs.findOpenFile files name with
  | some fd => rfl
  | none =>
    dsimp only
    cases files.disk.bind fun disk => Fs.fsFindFile disk name with
    | none => rfl
    | some entry =>
      dsimp only
      cases Fs.freeDescriptor files with
      | none => rfl
      | some fd =>
        cases pool.room
        · rfl
        · rfl

/-- With its locks, the call answers as it does without. -/
theorem lockedSetValue_eq (registry : Registry) (key : Option Nat)
    (valueName : Option UnicodeString) (dataType : Nat) (data : List UInt8) (pool : PoolAnswers) :
    ∃ after,
      lockedSetValue cpu registry key valueName dataType data pool =
        .ok (cmSetValue registry key valueName dataType data pool.room, after) ∧
      ((LockedCall.setValue registry key valueName dataType data pool).ReturnsEarly →
        after.irql = cpu.irql ∧ after.held = cpu.held) ∧
      (¬ (LockedCall.setValue registry key valueName dataType data pool).ReturnsEarly →
        after = cpu.left passiveLevel) := by
  rw [LockedCall.ReturnsEarly]
  cases key with
  | none => exact ⟨cpu, rfl, fun _ => ⟨rfl, rfl⟩, fun late => absurd (.inl rfl) late⟩
  | some key =>
  cases valueName with
  | none => exact ⟨cpu, rfl, fun _ => ⟨rfl, rfl⟩, fun late => absurd (.inr (.inl rfl)) late⟩
  | some valueName =>
  unfold lockedSetValue cmSetValue
  dsimp only
  by_cases empty : data = []
  · subst empty
    exact ⟨cpu, rfl, fun _ => ⟨rfl, rfl⟩, fun late => absurd (.inr (.inr (.inl rfl))) late⟩
  have length : data.length ≠ 0 := fun zero => empty (List.length_eq_zero_iff.mp zero)
  have free : ∀ lock, (cpu.left cpu.irql).held lock = false := idle
  have allocate : ∀ answer, exAllocatePoolWithTag (cpu.left cpu.irql) sizeofKeyValue answer =
      .ok (answer.room, cpu.left cpu.irql) :=
    exAllocatePoolWithTag_ok low (free _) (free _) (Nat.succ_ne_zero 55)
  have giveBack : exFreePoolWithTag (cpu.left cpu.irql) = .ok (cpu.left cpu.irql) :=
    exFreePoolWithTag_ok low (free _)
  rw [exAllocatePoolWithTag_ok low (idle .expPoolLock) (idle .mmPfnLock) length]
  simp only [bind, Except.bind, allocate, giveBack, answerWithin, PoolAnswers.room,
    @keAcquireSpinLock_ok (cpu.left cpu.irql) _ low (free .cmLock),
    @keReleaseSpinLock_ok (cpu.left cpu.irql) _ (free .cmLock) _ (Nat.zero_le dispatchLevel)]
  obtain ⟨⟨first, _⟩, ⟨second, _⟩⟩ := pool
  dsimp only
  cases first with
  | false =>
    refine ⟨cpu.left cpu.irql, by simp; rfl, fun _ => ⟨rfl, rfl⟩, fun late => ?_⟩
    exact absurd (.inr (.inr (.inr (.inl rfl)))) late
  | true =>
  cases second with
  | false =>
    refine ⟨cpu.left cpu.irql, by simp; rfl, fun _ => ⟨rfl, rfl⟩, fun late => ?_⟩
    exact absurd (.inr (.inr (.inr (.inl rfl)))) late
  | true =>
  by_cases inside : (registry.nodes key).values.length < cmValueLimit
  · refine ⟨cpu.left passiveLevel, by simp [inside, empty]; rfl, ?_, fun _ => rfl⟩
    rintro (early | early | early | early | ⟨node, here, full⟩)
    · cases early
    · cases early
    · exact absurd early empty
    · cases early
    · cases here
      omega
  · refine ⟨cpu.left cpu.irql, by simp [inside]; rfl, fun _ => ⟨rfl, rfl⟩, fun late => ?_⟩
    exact absurd (.inr (.inr (.inr (.inr ⟨key, rfl, by omega⟩)))) late

/-- A call that takes its lock leaves the processor at `PASSIVE_LEVEL`, any other call at the
level it found. -/
theorem LockedCall.run_after (call : LockedCall) {status : NtStatus} {after : Processor}
    (returned : call.run cpu = .ok (status, after)) :
    (call.ReturnsEarly → after.irql = cpu.irql ∧ after.held = cpu.held) ∧
      (¬ call.ReturnsEarly → after = cpu.left passiveLevel) := by
  -- a key that is there takes the lock, no key does not
  have byKey : ∀ key : Option Nat,
      after = (if key = none then cpu else cpu.left passiveLevel) →
        (key = none → after.irql = cpu.irql ∧ after.held = cpu.held) ∧
          (¬ key = none → after = cpu.left passiveLevel) := by
    rintro key rfl
    by_cases absent : key = none
    · rw [if_pos absent]
      exact ⟨fun _ => ⟨rfl, rfl⟩, fun present => absurd absent present⟩
    · rw [if_neg absent]
      exact ⟨fun none => absurd none absent, fun _ => rfl⟩
  have creating : ∀ registry keyName pool,
      (lockedCreateKey cpu registry keyName pool).map (fun answer => (answer.1.1, answer.2)) =
        .ok (status, after) → after = cpu.left passiveLevel := by
    intro registry keyName pool done
    rw [lockedCreateKey_eq idle low] at done
    cases answered : cmCreateKey registry keyName fun node => (pool node).room with
    | none =>
      rw [answered] at done
      cases done
    | some answer =>
      rw [answered] at done
      cases done
      rfl
  cases call with
  | createKey registry keyName pool | openKey registry keyName pool =>
    exact ⟨False.elim, fun _ => creating registry keyName pool returned⟩
  | setValue registry key valueName dataType data pool =>
    obtain ⟨left, answer, early, late⟩ :=
      lockedSetValue_eq idle low registry key valueName dataType data pool
    rw [LockedCall.run, answer] at returned
    cases returned
    exact ⟨early, late⟩
  | queryValue buffers registry key valueName outDataLength =>
    rw [LockedCall.run, lockedQueryValue_eq idle low] at returned
    cases returned
    exact byKey key rfl
  | enumerateSubKey registry key index =>
    rw [LockedCall.run, lockedEnumerateSubKey_eq idle low] at returned
    cases returned
    exact byKey key rfl
  | enumerateValue registry key index outDataLength =>
    have last := lockedEnumerateValue_after idle low registry key index outDataLength
    rw [LockedCall.run] at returned
    cases answered : lockedEnumerateValue cpu registry key index outDataLength with
    | error halt =>
      rw [answered] at returned
      cases returned
    | ok answer =>
      rw [answered] at returned last
      cases returned
      exact byKey key (Except.ok.inj last)
  | openFile files name pool =>
    rw [LockedCall.run, lockedOpenFile_eq idle low] at returned
    cases returned
    exact ⟨False.elim, fun _ => rfl⟩

/-- The level is kept from `PASSIVE_LEVEL`, and from any level if the lock is not taken. -/
theorem irql_kept_iff (call : LockedCall) {status : NtStatus} {after : Processor}
    (returned : call.run cpu = .ok (status, after)) :
    (after.irql = cpu.irql ∧ after.held .cmLock = false ∧ after.held .fsLock = false) ↔
      cpu.irql = passiveLevel ∨ call.ReturnsEarly := by
  obtain ⟨early, late⟩ := call.run_after idle low returned
  by_cases returnsEarly : call.ReturnsEarly
  · obtain ⟨level, locks⟩ := early returnsEarly
    rw [locks]
    exact iff_of_true ⟨level, idle .cmLock, idle .fsLock⟩ (.inr returnsEarly)
  · rw [late returnsEarly]
    constructor
    · intro kept
      exact .inl kept.1.symm
    · rintro (passive | early)
      · exact ⟨passive.symm, idle .cmLock, idle .fsLock⟩
      · exact absurd early returnsEarly

end Calls

/-- The registry that a call may walk along the lists of. -/
def LockedCall.walks : LockedCall → Option Registry
  | .createKey registry _ _ => some registry
  | .openKey registry _ _ => some registry
  | _ => none

/-- Every locked call returns. -/
theorem LockedCall.returns {cpu : Processor} (idle : ∀ lock, cpu.held lock = false)
    (low : cpu.irql ≤ dispatchLevel) (call : LockedCall)
    (tree : ∀ registry ∈ call.walks, RegistryTree registry) :
    ∃ status after, call.run cpu = .ok (status, after) := by
  have creating : ∀ registry keyName pool, RegistryTree registry →
      ∃ status after, (lockedCreateKey cpu registry keyName pool).map
        (fun answer => (answer.1.1, answer.2)) = .ok (status, after) := by
    intro registry keyName pool isTree
    obtain ⟨status, out, registry', created, -⟩ :=
      cmCreateKey_effect isTree keyName fun node => (pool node).room
    rw [lockedCreateKey_eq idle low, created]
    exact ⟨status, _, rfl⟩
  cases call with
  | createKey registry keyName pool
  | openKey registry keyName pool => exact creating registry keyName pool (tree registry rfl)
  | setValue registry key valueName dataType data pool =>
    obtain ⟨after, answer, -⟩ :=
      lockedSetValue_eq idle low registry key valueName dataType data pool
    rw [LockedCall.run, answer]
    exact ⟨_, after, rfl⟩
  | queryValue =>
    rw [LockedCall.run, lockedQueryValue_eq idle low]
    exact ⟨_, _, rfl⟩
  | enumerateSubKey =>
    rw [LockedCall.run, lockedEnumerateSubKey_eq idle low]
    exact ⟨_, _, rfl⟩
  | enumerateValue registry key index outDataLength =>
    have last := lockedEnumerateValue_after idle low registry key index outDataLength
    rw [LockedCall.run]
    cases answered : lockedEnumerateValue cpu registry key index outDataLength with
    | error halt =>
      rw [answered] at last
      cases last
    | ok answer => exact ⟨_, _, rfl⟩
  | openFile =>
    rw [LockedCall.run, lockedOpenFile_eq idle low]
    exact ⟨_, _, rfl⟩

def processorAt (irql : Nat) : Processor := ⟨irql, true, fun _ => false⟩

/-- Opening the root. -/
def openRoot : LockedCall := .openKey cmInitSystem [backslash] fun _ => ⟨⟨true, 0⟩, ⟨true, 0⟩⟩

theorem openRoot_run {irql : Nat} (low : irql ≤ dispatchLevel) :
    openRoot.run (processorAt irql) =
      .ok (statusSuccess, (processorAt irql).left passiveLevel) := by
  rw [openRoot, LockedCall.run, lockedOpenKey, lockedCreateKey_eq (fun _ => rfl) low]
  rfl

/-- Opening the root leaves no lock held. -/
theorem openRoot_kept :
    ((processorAt 0).left passiveLevel).irql = (processorAt 0).irql ∧
      ((processorAt 0).left passiveLevel).held .cmLock = false ∧
      ((processorAt 0).left passiveLevel).held .fsLock = false :=
  (irql_kept_iff (fun _ => rfl) (Nat.zero_le _) openRoot (openRoot_run (Nat.zero_le _))).mpr
    (.inl rfl)

/-- At `DISPATCH_LEVEL` the call drops the caller to `PASSIVE_LEVEL`. -/
theorem openRoot_not_kept : ¬ ∀ (cpu : Processor) (call : LockedCall) (status : NtStatus)
    (after : Processor), (∀ lock, cpu.held lock = false) → cpu.irql ≤ dispatchLevel →
    call.run cpu = .ok (status, after) →
    after.irql = cpu.irql ∧ after.held .cmLock = false ∧ after.held .fsLock = false := by
  intro kept
  obtain ⟨level, -⟩ := kept (processorAt dispatchLevel) openRoot statusSuccess _ (fun _ => rfl)
    (Nat.le_refl _) (openRoot_run (Nat.le_refl _))
  exact absurd level (by decide)

end MinNT.Cm
