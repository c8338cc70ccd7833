import Mathlib.Logic.Function.Basic
import MinNT.Lib.ByteMemory
import MinNT.Lib.Transition
import MinNT.NtStatus

/-! Volume snapshots in `fs/vss.c`: all snapshots keep their differences in one array, each from an
index on that is chosen when the snapshot is created. -/

namespace MinNT.Fs.Vss

open Function ByteMemory Transition

def vssMaxSnapshots : Nat := 32
def vssMaxDiffs : Nat := 4096
def vssMaxVolume : Nat := 32

/-- `sizeof(VSS_DIFF)`, with 3 bytes behind `InUse`. -/
def sizeofDiff : Nat := 272

/-! In `VSS_DIFF`. -/

def offsetofFileId : Nat := 0
def offsetofOffset : Nat := 4
def offsetofLength : Nat := 8
def offsetofOldData : Nat := 12
def offsetofInUse : Nat := 268

/-- A `VSS_DIFF` as it is copied out. -/
structure VssDiff where
  fileId : Nat
  offset : Nat
  length : Nat
  oldData : List UInt8
  inUse : Bool
deriving DecidableEq

structure VssSnapshot where
  id : Nat
  volume : List UInt8
  timestamp : Nat
  diffStart : Nat
  diffCount : Nat
  inUse : Bool
deriving DecidableEq

/-- A snapshot that is all zeros. -/
def zeroSnapshot : VssSnapshot := ⟨0, List.replicate vssMaxVolume 0, 0, 0, 0, false⟩

/-- `g_Snapshots`, `g_Diffs` by its bytes, and `g_NextSnapshotId`. -/
structure Volumes where
  snapshots : Nat → VssSnapshot
  diffs : ByteMemory
  nextSnapshotId : Nat

/-- `VssInit`, with the first identifier. -/
def vssInit : Volumes := ⟨fun _ => zeroSnapshot, fun _ => 0, 1⟩

def diffInUse (diffs : ByteMemory) (slot : Nat) : Bool :=
  diffs (slot * sizeofDiff + offsetofInUse) != 0

def diffAt (diffs : ByteMemory) (slot : Nat) : VssDiff where
  fileId := load diffs 4 (slot * sizeofDiff + offsetofFileId)
  offset := load diffs 4 (slot * sizeofDiff + offsetofOffset)
  length := load diffs 4 (slot * sizeofDiff + offsetofLength)
  oldData := read diffs (slot * sizeofDiff + offsetofOldData) 256
  inUse := diffInUse diffs slot

/-- The first snapshot in use with the identifier. -/
def findSnapshot (volumes : Volumes) (snapshotId : Nat) : Option Nat :=
  (List.range vssMaxSnapshots).find? fun i =>
    (volumes.snapshots i).inUse && (volumes.snapshots i).id == snapshotId

/-- The copy of a volume's name, from character `k` on. -/
def copyVolume (volume : Nat → UInt8) : Nat → Nat → List UInt8 → List UInt8
  | 0, _, stored => stored
  | remaining + 1, k, stored =>
      if volume k = 0 then stored.set k 0
      else copyVolume volume remaining (k + 1) (stored.set k (volume k))

/-- `VssCreateSnapshot`; `timestamp` is what the performance counter shows. -/
def vssCreateSnapshot (volumes : Volumes) (volume : Option (Nat → UInt8)) (outSnapshotId : Bool)
    (timestamp : Nat) : NtStatus × Option Nat × Volumes :=
  match volume with
  | none => (statusInvalidParameter, none, volumes)
  | some volume =>
      if !outSnapshotId then (statusInvalidParameter, none, volumes)
      else
        match (List.range vssMaxSnapshots).find? fun i => !(volumes.snapshots i).inUse with
        | none => (statusNoMemory, none, volumes)
        | some i =>
            let old := volumes.snapshots i
            let free := (List.range vssMaxDiffs).find? fun j => !diffInUse volumes.diffs j
            (statusSuccess, some volumes.nextSnapshotId,
              { volumes with
                snapshots := update volumes.snapshots i
                  { id := volumes.nextSnapshotId
                    volume := copyVolume volume vssMaxVolume 0 old.volume
                    timestamp := timestamp
                    diffStart := free.getD old.diffStart
                    diffCount := if free.isSome then 0 else old.diffCount
                    inUse := true }
                nextSnapshotId := (volumes.nextSnapshotId + 1) % 2 ^ 32 })

/-- The loop that copies differences out, as long as the next one fits. -/
def copyDiffs (diffs : ByteMemory) (diffStart avail : Nat) : Nat → Nat → Nat → List VssDiff
  | 0, _, _ => []
  | remaining + 1, k, copied =>
      if copied + sizeofDiff ≤ avail then
        diffAt diffs (diffStart + k) ::
          copyDiffs diffs diffStart avail remaining (k + 1) (copied + sizeofDiff)
      else []

/-- `VssQuerySnapshot`, with the size of the buffer for the differences if there is one. -/
def vssQuerySnapshot (volumes : Volumes) (snapshotId : Nat) (outDiffLength : Option Nat) :
    NtStatus × Option VssSnapshot × List VssDiff :=
  match findSnapshot volumes snapshotId with
  | none => (statusNotFound, none, [])
  | some i =>
      let snap := volumes.snapshots i
      (statusSuccess, some snap,
        outDiffLength.elim [] fun avail =>
          copyDiffs volumes.diffs snap.diffStart avail snap.diffCount 0 0)

/-- What `VssRecordDiff` stores in a slot. All of `Length` is copied to `OldData`. -/
def storeDiff (diffs : ByteMemory) (slot fileId offset : Nat) (oldData : Option ByteMemory)
    (length : Nat) : ByteMemory :=
  let diffs := store diffs 1 (slot * sizeofDiff + offsetofInUse) 1
  let diffs := store diffs 4 (slot * sizeofDiff + offsetofFileId) fileId
  let diffs := store diffs 4 (slot * sizeofDiff + offsetofOffset) offset
  let diffs := store diffs 4 (slot * sizeofDiff + offsetofLength) length
  match oldData with
  | none => diffs
  | some source => write diffs (slot * sizeofDiff + offsetofOldData) (read source 0 length)

def vssRecordDiff (volumes : Volumes) (snapshotId : Nat) (fileId offset : BitVec 32)
    (oldData : Option ByteMemory) (length : BitVec 32) : NtStatus × Volumes :=
  if length.toNat > sizeofDiff then (statusInvalidParameter, volumes)
  else
    match findSnapshot volumes snapshotId with
    | none => (statusNotFound, volumes)
    | some i =>
        let snap := volumes.snapshots i
        let slot := (snap.diffStart + snap.diffCount) % 2 ^ 32
        if slot ≥ vssMaxDiffs then (statusNoMemory, volumes)
        else
          (statusSuccess,
            { volumes with
              snapshots := update volumes.snapshots i
                { snap with diffCount := (snap.diffCount + 1) % 2 ^ 32 }
              diffs := storeDiff volumes.diffs slot fileId.toNat offset.toNat oldData
                length.toNat })

/-- The loop that frees the differences of a snapshot. -/
def freeDiffs : Nat → Nat → ByteMemory → ByteMemory
  | 0, _, diffs => diffs
  | count + 1, k, diffs =>
      freeDiffs count (k + 1)
        (if diffInUse diffs k then store diffs 1 (k * sizeofDiff + offsetofInUse) 0 else diffs)

def vssRestoreSnapshot (volumes : Volumes) (snapshotId : Nat) : NtStatus × Volumes :=
  match findSnapshot volumes snapshotId with
  | none => (statusNotFound, volumes)
  | some i =>
      let snap := volumes.snapshots i
      (statusSuccess,
        { volumes with
          snapshots := update volumes.snapshots i { snap with diffCount := 0 }
          diffs := freeDiffs snap.diffCount snap.diffStart volumes.diffs })

def vssDeleteSnapshot (volumes : Volumes) (snapshotId : Nat) : NtStatus × Volumes :=
  match findSnapshot volumes snapshotId with
  | none => (statusNotFound, volumes)
  | some i =>
      let snap := volumes.snapshots i
      (statusSuccess,
        { volumes with
          snapshots := update volumes.snapshots i zeroSnapshot
          diffs := freeDiffs snap.diffCount snap.diffStart volumes.diffs })

/-- A difference as it was handed to `VssRecordDiff`; without old data only its place is
recorded. -/
structure RecordedDiff where
  fileId : BitVec 32
  offset : BitVec 32
  length : BitVec 32
  oldData : Option (List UInt8)
deriving DecidableEq

/-- The record says what was recorded. -/
def RecordedDiff.Matches (recorded : RecordedDiff) (diff : VssDiff) : Prop :=
  diff.fileId = recorded.fileId.toNat ∧ diff.offset = recorded.offset.toNat ∧
    diff.length = recorded.length.toNat ∧
    ∀ data ∈ recorded.oldData, diff.oldData.take recorded.length.toNat = data

/-- The volumes, and what was recorded for each snapshot since it was created or restored. -/
structure History where
  volumes : Volumes
  recorded : Nat → List RecordedDiff

def History.start : History := ⟨vssInit, fun _ => []⟩

inductive VssCall where
  | create (volume : Option (Nat → UInt8)) (outSnapshotId : Bool) (timestamp : Nat)
  | record (snapshotId : Nat) (fileId offset : BitVec 32) (oldData : Option ByteMemory)
      (length : BitVec 32)
  | restore (snapshotId : Nat)
  | delete (snapshotId : Nat)

def VssCall.run (history : History) : VssCall → History
  | .create volume outSnapshotId timestamp =>
      let answer := vssCreateSnapshot history.volumes volume outSnapshotId timestamp
      ⟨answer.2.2, match answer.2.1 with
        | none => history.recorded
        | some snapshotId => update history.recorded snapshotId []⟩
  | .record snapshotId fileId offset oldData length =>
      let answer := vssRecordDiff history.volumes snapshotId fileId offset oldData length
      ⟨answer.2,
        if answer.1 = statusSuccess then
          update history.recorded snapshotId (history.recorded snapshotId ++
            [⟨fileId, offset, length, oldData.map fun source => read source 0 length.toNat⟩])
        else history.recorded⟩
  | .restore snapshotId =>
      let answer := vssRestoreSnapshot history.volumes snapshotId
      ⟨answer.2, if answer.1 = statusSuccess then update history.recorded snapshotId []
        else history.recorded⟩
  | .delete snapshotId =>
      let answer := vssDeleteSnapshot history.volumes snapshotId
      ⟨answer.2, if answer.1 = statusSuccess then update history.recorded snapshotId []
        else history.recorded⟩

/-- A query reports what was recorded, in order and as far as the buffer goes. -/
def History.Reports (history : History) (snapshotId : Nat) : Prop :=
  ∀ avail, ∃ info diffs,
    vssQuerySnapshot history.volumes snapshotId (some avail) =
      (statusSuccess, some info, diffs) ∧
    List.Forall₂ RecordedDiff.Matches
      ((history.recorded snapshotId).take (avail / sizeofDiff)) diffs

/-- Every snapshot is reported as it was recorded. -/
def History.Exact (history : History) : Prop :=
  ∀ i < vssMaxSnapshots, (history.volumes.snapshots i).inUse = true →
    history.Reports (history.volumes.snapshots i).id

/-- Where the next difference of a snapshot goes. -/
def Volumes.nextSlot (volumes : Volumes) (i : Nat) : Nat :=
  ((volumes.snapshots i).diffStart + (volumes.snapshots i).diffCount) % 2 ^ 32

/-- The slot has a difference of the snapshot. -/
def VssSnapshot.Has (snapshot : VssSnapshot) (slot : Nat) : Prop :=
  snapshot.inUse = true ∧ snapshot.diffStart ≤ slot ∧
    slot < snapshot.diffStart + snapshot.diffCount

instance (snapshot : VssSnapshot) (slot : Nat) : Decidable (snapshot.Has slot) :=
  inferInstanceAs (Decidable (_ ∧ _))

/-- What a call has to respect: a new snapshot gets an identifier that is not in use, and a
difference has at most 256 bytes of old data and goes to no slot of another snapshot. -/
def VssCall.Respects (history : History) : VssCall → Prop
  | .create _ _ _ =>
      ∀ i < vssMaxSnapshots, (history.volumes.snapshots i).inUse = true →
        (history.volumes.snapshots i).id ≠ history.volumes.nextSnapshotId
  | .record snapshotId _ _ oldData length =>
      ∀ i ∈ findSnapshot history.volumes snapshotId, length.toNat ≤ sizeofDiff →
        history.volumes.nextSlot i < vssMaxDiffs →
        (oldData.isSome → length.toNat ≤ 256) ∧
          ∀ j < vssMaxSnapshots, j ≠ i →
            ¬ (history.volumes.snapshots j).Has (history.volumes.nextSlot i)
  | .restore _ => True
  | .delete _ => True

/-- A difference is written inside of its own record. -/
def VssCall.StaysInside (history : History) : VssCall → Prop
  | .record snapshotId fileId offset oldData length =>
      ∀ i ∈ findSnapshot history.volumes snapshotId,
        SameOutside history.volumes.diffs
          ((VssCall.record snapshotId fileId offset oldData length).run history).volumes.diffs
          (history.volumes.nextSlot i * sizeofDiff)
          (history.volumes.nextSlot i * sizeofDiff + sizeofDiff)
  | _ => True

end MinNT.Fs.Vss
