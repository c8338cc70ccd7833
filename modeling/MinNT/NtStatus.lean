import Mathlib.Algebra.Group.Int.Defs
import Mathlib.Algebra.Group.Nat.Defs
import Mathlib.Data.List.Basic

namespace MinNT

/-- `NTSTATUS`: a signed 32-bit word whose sign is what `NT_SUCCESS` tests. -/
abbrev NtStatus := BitVec 32

def ntSuccess (status : NtStatus) : Bool := !status.msb

def statusSuccess : NtStatus := 0x00000000#32
def statusUnsuccessful : NtStatus := 0xC0000001#32
def statusInvalidHandle : NtStatus := 0xC0000008#32
def statusInvalidParameter : NtStatus := 0xC000000D#32
def statusNoSuchFile : NtStatus := 0xC000000F#32
def statusInvalidDeviceRequest : NtStatus := 0xC0000010#32
def statusEndOfFile : NtStatus := 0xC0000011#32
def statusNoMemory : NtStatus := 0xC0000017#32
def statusAccessDenied : NtStatus := 0xC0000022#32
def statusObjectNameNotFound : NtStatus := 0xC0000034#32
def statusDiskQuotaExceeded : NtStatus := 0xC0000042#32
def statusInvalidImageFormat : NtStatus := 0xC000007B#32
def statusInsufficientResources : NtStatus := 0xC000009A#32
def statusIoTimeout : NtStatus := 0xC00000B5#32
def statusDeviceDoesNotExist : NtStatus := 0xC00000C0#32
def statusPortDisconnected : NtStatus := 0xC000013B#32
def statusDiskFull : NtStatus := 0xC000017F#32
def statusNotFound : NtStatus := 0xC0000227#32
def statusNoMoreEntries : NtStatus := 0x8000001A#32

/-- What a call that does not return hands to `KeBugCheckEx`. -/
inductive BugCheck where
  /-- `ASSERT` crashes with `MANUALLY_INITIATED_CRASH`. -/
  | manuallyInitiatedCrash
  | badPoolHeader (header value expected : Nat) (site : Nat)
deriving DecidableEq, Repr

/-- `value - 1` in unsigned 64-bit arithmetic. -/
def decrement64 (value : Nat) : Nat := if value = 0 then 2 ^ 64 - 1 else value - 1

/-- `left - right` of two 64-bit words. -/
def subtract64 (left right : Nat) : Nat :=
  if right ≤ left then left - right else left + 2 ^ 64 - right

theorem subtract64_of_le {left right : Nat} (ordered : right ≤ left) :
    subtract64 left right = left - right :=
  if_pos ordered

/-- `left - right` of two 32-bit words. -/
def subtract32 (left right : Nat) : Nat :=
  if right ≤ left then left - right else left + 2 ^ 32 - right

theorem subtract32_of_le {left right : Nat} (ordered : right ≤ left) :
    subtract32 left right = left - right :=
  if_pos ordered

/-- A loop whose next step depends on one 64-bit pointer alone visits fewer
different pointers than this; if it has not ended by then it never ends. -/
@[irreducible] def pointerSteps : Nat := 2 ^ 64

end MinNT
