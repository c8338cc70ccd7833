import MinNT.Lib.LinkedList
import MinNT.NtStatus

namespace MinNT.Cc

open Function LinkedList

def sectorSize : Nat := 512
def ccHashSize : Nat := 1024
def ccMaxEntries : Nat := 2048

abbrev Sector := Vector UInt8 sectorSize

def zeroSector : Sector := Vector.replicate sectorSize 0

/-- A slot of `g_CcEntries`; pointers to entries are indices. -/
abbrev Slot := Fin ccMaxEntries

/-- `CC_ENTRY` without its four pointers, which `CcState` keeps as two families
of links. -/
structure CcEntry where
  lba : UInt64
  data : Sector
  accessCount : Nat
  dirty : Bool

def CcEntry.zero : CcEntry := ⟨0, zeroSector, 0, false⟩

/-- The statics of the cache. The spin lock is left out: no call is interrupted
by another one here. -/
structure CcState where
  entries : Slot → CcEntry
  hashLinks : Links Slot
  lruLinks : Links Slot
  hash : Fin ccHashSize → Option Slot
  lruHead : Option Slot
  lruTail : Option Slot
  init : Bool
  hits : Nat
  misses : Nat
  evictions : Nat

/-- A status that `NT_SUCCESS` rejects. -/
abbrev FailureStatus := { status : NtStatus // ntSuccess status = false }

/-- The device behind the cache. A failed read may leave anything in the buffer. -/
structure Device where
  read : UInt64 → Except FailureStatus Sector
  torn : UInt64 → Sector → Sector

/-- `underlying_read(lba, 1, buffer)`: the status and the buffer afterwards. -/
def underlyingRead (device : Device) (lba : UInt64) (buffer : Sector) : NtStatus × Sector :=
  match device.read lba with
  | .ok bytes => (statusSuccess, bytes)
  | .error status => (status, device.torn lba buffer)

/-- `CcHashIndex`; the mask is `CC_HASH_SIZE - 1`. -/
def ccHashIndex (lba : UInt64) : Fin ccHashSize :=
  ⟨(lba * 2654435761).toNat % ccHashSize, Nat.mod_lt _ (by decide)⟩

def ccLruInsertFront (cc : CcState) (e : Slot) : CcState :=
  { cc with
    lruLinks := pushFront cc.lruLinks cc.lruHead e
    lruHead := some e
    lruTail := if cc.lruHead = none then some e else cc.lruTail }

def ccLruRemove (cc : CcState) (e : Slot) : CcState :=
  { cc with
    lruLinks := unlink cc.lruLinks e
    lruHead := unlinkHead cc.lruLinks cc.lruHead e
    lruTail := unlinkTail cc.lruLinks cc.lruTail e }

def ccLruMoveFront (cc : CcState) (e : Slot) : CcState :=
  ccLruInsertFront (ccLruRemove cc e) e

/-- `CcHashFind`. The walk depends on the pointer alone, so one that has not
ended after `CC_MAX_ENTRIES` entries never ends: `none`. -/
def ccHashFind (cc : CcState) (lba : UInt64) : Option (Option Slot) :=
  findFrom cc.hashLinks (fun e => (cc.entries e).lba = lba) ccMaxEntries (cc.hash (ccHashIndex lba))

def ccHashInsert (cc : CcState) (e : Slot) : CcState :=
  let idx := ccHashIndex (cc.entries e).lba
  { cc with
    hashLinks := pushFront cc.hashLinks (cc.hash idx) e
    hash := update cc.hash idx (some e) }

def ccHashRemove (cc : CcState) (e : Slot) : CcState :=
  let idx := ccHashIndex (cc.entries e).lba
  { cc with
    hashLinks := unlink cc.hashLinks e
    hash := update cc.hash idx (unlinkHead cc.hashLinks (cc.hash idx) e) }

/-- Empty the table, the entries and the LRU list. -/
def ccClear (cc : CcState) : CcState :=
  { cc with
    entries := fun _ => .zero
    hashLinks := fun _ => detached
    lruLinks := fun _ => detached
    hash := fun _ => none
    lruHead := none
    lruTail := none }

/-- `CcInitSystem`, from any contents of the statics. -/
def ccInitSystem (cc : CcState) : CcState :=
  { ccClear cc with init := true, hits := 0, misses := 0, evictions := 0 }

def freeSlot? (cc : CcState) : Option Slot :=
  (List.finRange ccMaxEntries).find?
    (fun i => (cc.entries i).lba = 0 ∧ (cc.entries i).accessCount = 0)

/-- The slot a miss reads into: the first free one, else the least recently used
one, which is taken off both lists. -/
def ccVictim (cc : CcState) : Option Slot × CcState :=
  match freeSlot? cc with
  | some victim => (some victim, cc)
  | none =>
      match cc.lruTail with
      | some victim =>
          (some victim,
            { ccHashRemove (ccLruRemove cc victim) victim with
              evictions := (cc.evictions + 1) % 2 ^ 32 })
      | none => (none, cc)

/-- The rest of a miss once the victim is known. -/
def ccFill (device : Device) (cc : CcState) (victim : Slot) (lba : UInt64) (buffer : Sector) :
    (NtStatus × Sector) × CcState :=
  let read := underlyingRead device lba (cc.entries victim).data
  if ntSuccess read.1 then
    let filled := { cc with entries := update cc.entries victim ⟨lba, read.2, 1, false⟩ }
    ((statusSuccess, read.2), ccLruInsertFront (ccHashInsert filled victim) victim)
  else
    ((read.1, buffer), { cc with entries := update cc.entries victim ⟨0, read.2, 1, false⟩ })

/-- `CcReadSector`: status and buffer, and the cache afterwards. -/
def ccReadSector (device : Device) (cc : CcState) (lba : UInt64) (buffer : Sector) :
    Option ((NtStatus × Sector) × CcState) :=
  if ¬ cc.init then some (underlyingRead device lba buffer, cc)
  else
    match ccHashFind cc lba with
    | none => none
    | some (some e) =>
        some ((statusSuccess, (cc.entries e).data),
          ccLruMoveFront { cc with hits := (cc.hits + 1) % 2 ^ 32 } e)
    | some none =>
        match ccVictim { cc with misses := (cc.misses + 1) % 2 ^ 32 } with
        | (none, missed) => some (underlyingRead device lba buffer, missed)
        | (some victim, missed) => some (ccFill device missed victim lba buffer)

/-- `CcFlushAll`: the dirty marks are dropped, nothing is written. -/
def ccFlushAll (cc : CcState) : CcState :=
  if ¬ cc.init then cc
  else { cc with entries := fun i => { cc.entries i with dirty := false } }

def ccInvalidate (cc : CcState) : CcState :=
  if ¬ cc.init then cc else ccClear cc

/-- One call on the cache. A read brings its caller's buffer. -/
inductive CcCall where
  | readSector (lba : UInt64) (buffer : Sector)
  | flushAll
  | invalidate

/-- The answers of a sequence of calls, `none` when one of them never returns. -/
def ccRun (device : Device) : CcState → List CcCall → Option (List (NtStatus × Sector) × CcState)
  | cc, [] => some ([], cc)
  | cc, .readSector lba buffer :: calls =>
      (ccReadSector device cc lba buffer).bind fun (answer, cc) =>
        (ccRun device cc calls).map fun (answers, cc) => (answer :: answers, cc)
  | cc, .flushAll :: calls => ccRun device (ccFlushAll cc) calls
  | cc, .invalidate :: calls => ccRun device (ccInvalidate cc) calls

/-- The answers of the same reads made on the device directly. -/
def directRun (device : Device) : List CcCall → List (NtStatus × Sector)
  | [] => []
  | .readSector lba buffer :: calls => underlyingRead device lba buffer :: directRun device calls
  | .flushAll :: calls => directRun device calls
  | .invalidate :: calls => directRun device calls

/-- Same status, and same bytes where the status is a success. -/
def SameAnswer (direct cached : NtStatus × Sector) : Prop :=
  cached.1 = direct.1 ∧ (ntSuccess direct.1 = true → cached.2 = direct.2)

end MinNT.Cc
