import MinNT.Fs.RamDiskSparse

namespace MinNT.Fs

/-- A write whose result says how much of it the file now holds. -/
def WriteReported (disk : RamDisk) (file : FileObject) (byteOffset : Option Nat)
    (buffer : List UInt8) : Prop :=
  ∃ result file' after,
    ntWriteFile disk file byteOffset buffer = some (result, file', after) ∧
    fileSize after file.fsContext ≤ (fileClusters after file.fsContext).length * fsClusterSize ∧
    fileSize after file.fsContext = max (fileSize disk file.fsContext)
      (requestOffset file byteOffset + result.information) ∧
    ¬ (result.status = statusSuccess ∧ result.information < buffer.length)

/-- The request ends below 4 GB, the free clusters hold all of its bytes, and the
clusters of the file reach up to its new size, those counted that the bytes take
from their offset on or else from the end of the chain. -/
def WriteCovered (disk : RamDisk) (file : FileObject) (byteOffset : Option Nat)
    (buffer : List UInt8) : Prop :=
  let clusters := (fileClusters disk file.fsContext).length
  let position := min (requestOffset file byteOffset) (2048 * clusters)
  requestOffset file byteOffset + buffer.length < 2 ^ 32 ∧
    position + buffer.length ≤ 2048 * (clusters + freeClusters disk) ∧
    max (fileSize disk file.fsContext) (requestOffset file byteOffset + buffer.length) ≤
      2048 * max clusters (clustersFor (position + buffer.length))

instance (disk : RamDisk) (file : FileObject) (byteOffset : Option Nat) (buffer : List UInt8) :
    Decidable (WriteCovered disk file byteOffset buffer) :=
  inferInstanceAs (Decidable (_ ∧ _ ∧ _))

theorem ntWriteFile_status {disk after : RamDisk} {file file' : FileObject}
    {byteOffset : Option Nat} {buffer : List UInt8} {result : IoStatus}
    (done : ntWriteFile disk file byteOffset buffer = some (result, file', after)) :
    result.status = statusSuccess := by
  unfold ntWriteFile at done
  obtain ⟨_, _, same⟩ := Option.map_eq_some_iff.mp done
  cases same
  rfl

/-- A request whose end wraps is reported wrongly: in whole it would need a size of
4 GB or more. -/
theorem not_writeReported_wrap (disk : RamDisk) (file : FileObject) (byteOffset : Option Nat)
    (buffer : List UInt8) (wraps : 2 ^ 32 ≤ requestOffset file byteOffset + buffer.length) :
    ¬ WriteReported disk file byteOffset buffer := by
  intro reported
  obtain ⟨result, file', after, done, _, size, whole⟩ := reported
  have small := fileSize_lt after file.fsContext
  have all : ¬ result.information < buffer.length :=
    fun short => whole ⟨ntWriteFile_status done, short⟩
  omega

end MinNT.Fs
