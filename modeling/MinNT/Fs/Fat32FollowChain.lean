import Mathlib.Data.ENat.Lattice
import Mathlib.Data.Set.Card
import MinNT.Fs.Fat32Delete
import MinNT.Fs.Fat32MountSafe

open ByteMemory

namespace MinNT.Fat32

/-- A cluster number at which the loops of the driver go on. -/
def Proper (cluster : Nat) : Prop := 2 ≤ cluster ∧ cluster < chainEnd

instance (cluster : Nat) : Decidable (Proper cluster) := inferInstanceAs (Decidable (_ ∧ _))

/-- The cluster at a position of the chain from `cur` on, if the chain is that long. -/
def clusterAt (v : Volume) : Nat → Nat → Option Nat
  | cur, 0 => if Proper cur then some cur else none
  | cur, position + 1 =>
      if Proper cur then clusterAt v (fat32GetFatEntry v cur) position else none

/-- The number of clusters of the chain from `cur` on, which is infinite on a cycle. -/
noncomputable def chainLength (v : Volume) (cur : Nat) : ℕ∞ :=
  {position | (clusterAt v cur position).isSome}.encard

variable {v : Volume}

theorem chainLength_improper {cur : Nat} (improper : ¬ Proper cur) : chainLength v cur = 0 := by
  apply Set.encard_eq_zero.mpr
  apply Set.eq_empty_of_forall_notMem
  intro position member
  cases position with
  | zero => simp [clusterAt, improper] at member
  | succ position => simp [clusterAt, improper] at member

theorem chainLength_proper {cur : Nat} (proper : Proper cur) :
    chainLength v cur = chainLength v (fat32GetFatEntry v cur) + 1 := by
  have split : {position | (clusterAt v cur position).isSome} =
      insert 0 (Nat.succ '' {position |
        (clusterAt v (fat32GetFatEntry v cur) position).isSome}) := by
    ext position
    cases position with
    | zero => simp [clusterAt, proper]
    | succ position => simp [clusterAt, proper]
  rw [chainLength, split, Set.encard_insert_of_notMem (by simp),
    Nat.succ_injective.encard_image, chainLength]

/-- A volume with 512-byte sectors as the mount leaves it. -/
structure Sectors512 (v : Volume) : Prop where
  sector : v.bytesPerSector = 512
  cluster : v.bytesPerCluster = v.bytesPerSector * v.sectorsPerCluster
  positive : 0 < v.sectorsPerCluster

theorem fat32MountPartition_sectors {room : Bool} {pool : ByteMemory} {mount after : Mount}
    {lba : Nat} (done : fat32MountPartition room pool mount lba = some (statusSuccess, after))
    (sector : after.bytesPerSector = 512) : Sectors512 after.toVolume := by
  have mounted := fat32MountPartition_mounted done
  exact ⟨sector, mounted.bytesPerCluster, mounted.sectorsPerCluster⟩

theorem Sectors512.bytesPerCluster (sectors : Sectors512 v) :
    v.bytesPerCluster = v.sectorsPerCluster * 512 := by
  rw [sectors.cluster, sectors.sector, Nat.mul_comm]

theorem Sectors512.bytesPerCluster_pos (sectors : Sectors512 v) : 0 < v.bytesPerCluster := by
  have positive := sectors.positive
  rw [sectors.bytesPerCluster]
  omega

theorem Sectors512.clusterBytes_length (sectors : Sectors512 v) (cluster : Nat) :
    (clusterBytes v cluster).length = v.bytesPerCluster := by
  rw [Fat32.clusterBytes_length, sectors.bytesPerCluster]

/-- The byte at a position of the concatenated clusters of the chain from `cur` on. -/
def chainByte (v : Volume) (cur position : Nat) : Option UInt8 :=
  (clusterAt v cur (position / v.bytesPerCluster)).map fun cluster =>
    (clusterBytes v cluster).getD (position % v.bytesPerCluster) 0

theorem chainByte_first {cur position : Nat} (proper : Proper cur)
    (inside : position < v.bytesPerCluster) :
    chainByte v cur position = some ((clusterBytes v cur).getD position 0) := by
  rw [chainByte, Nat.div_eq_of_lt inside, Nat.mod_eq_of_lt inside, clusterAt, if_pos proper]
  rfl

theorem chainByte_later {cur position : Nat} (proper : Proper cur)
    (positive : 0 < v.bytesPerCluster) (behind : v.bytesPerCluster ≤ position) :
    chainByte v cur position =
      chainByte v (fat32GetFatEntry v cur) (position - v.bytesPerCluster) := by
  have quotient : position / v.bytesPerCluster =
      (position - v.bytesPerCluster) / v.bytesPerCluster + 1 :=
    Nat.div_eq_sub_div positive behind
  have remainder : position % v.bytesPerCluster =
      (position - v.bytesPerCluster) % v.bytesPerCluster := Nat.mod_eq_sub_mod behind
  rw [chainByte, chainByte, quotient, remainder, clusterAt, if_pos proper]

/-- The bytes of the chain are copied behind the first `copied`, as many as `left` and the
chain allow, and nothing else of the buffer changes. -/
structure Copied (v : Volume) (cur left copied count : Nat) (buffer after : ByteMemory) : Prop where
  total : (count : ℕ∞) = min (left : ℕ∞) (chainLength v cur * v.bytesPerCluster)
  bytes : ∀ position, position < count →
    chainByte v cur position = some (after (copied + position))
  outside : ∀ index, index < copied ∨ copied + count ≤ index → after index = buffer index

theorem Copied.nothing {cur left copied : Nat} (buffer : ByteMemory)
    (ended : left = 0 ∨ ¬ Proper cur) : Copied v cur left copied 0 buffer buffer := by
  refine ⟨?_, fun position below => absurd below (Nat.not_lt_zero _), fun _ _ => rfl⟩
  rcases ended with rfl | improper
  · simp
  · simp [chainLength_improper improper]

/-- The copy of one cluster in front of the rest. -/
theorem Copied.step {v : Volume} {cur left copied copy more : Nat} {buffer after : ByteMemory}
    (sectors : Sectors512 v) (proper : Proper cur) (counted : copy = min v.bytesPerCluster left)
    (rest : Copied v (fat32GetFatEntry v cur) (left - copy) (copied + copy) more
      (buffer.write copied ((clusterBytes v cur).take copy)) after) :
    Copied v cur left copied (copy + more) buffer after := by
  have positive := sectors.bytesPerCluster_pos
  have length := sectors.clusterBytes_length cur
  have taken : ((clusterBytes v cur).take copy).length = copy := by
    rw [List.length_take]
    omega
  have total := rest.total
  have less : more ≤ left - copy := by
    have bound : (more : ℕ∞) ≤ ((left - copy : Nat) : ℕ∞) := total ▸ min_le_left _ _
    exact_mod_cast bound
  refine ⟨?_, ?_, ?_⟩
  · rw [chainLength_proper proper]
    by_cases last : left ≤ v.bytesPerCluster
    · have none : more = 0 := by omega
      have all : copy = left := by omega
      rw [none, all, Nat.add_zero, min_eq_left]
      calc (left : ℕ∞) ≤ v.bytesPerCluster := by exact_mod_cast last
        _ = 1 * (v.bytesPerCluster : ℕ∞) := (one_mul _).symm
        _ ≤ (chainLength v (fat32GetFatEntry v cur) + 1) * v.bytesPerCluster := by
          gcongr
          exact le_add_self
    · have whole : copy = v.bytesPerCluster := by omega
      have parts : left = left - copy + copy := by omega
      rw [add_mul, one_mul, parts, Nat.cast_add, Nat.cast_add, total, ← whole, min_add_add_right,
        add_comm]
  · intro position below
    by_cases here : position < copy
    · rw [chainByte_first proper (by omega), rest.outside _ (.inl (by omega)),
        write_inside _ _ _ _ (by omega) (by omega), Nat.add_sub_cancel_left,
        List.getD_eq_getElem?_getD, List.getD_eq_getElem?_getD, List.getElem?_take_of_lt here]
    · have whole : copy = v.bytesPerCluster := by omega
      rw [chainByte_later proper positive (by omega), ← whole, rest.bytes _ (by omega)]
      congr 2
      omega
  · intro index apart
    rw [rest.outside index (by omega), write_outside _ _ _ _ (by omega)]

/-- The read loop on any FAT: each turn copies a byte, so the bytes that are asked for
bound the turns. -/
theorem readClusters_copied (sectors : Sectors512 v) {readSize : Nat}
    (noWrap : readSize + v.bytesPerCluster < 2 ^ 32) (fuel : Nat) :
    ∀ cur copied buffer, copied ≤ readSize → readSize - copied < fuel →
      ∃ count after, readClusters v readSize fuel cur copied buffer =
          some ⟨statusSuccess, copied + count, after⟩ ∧
        Copied v cur (readSize - copied) copied count buffer after := by
  have positive := sectors.bytesPerCluster_pos
  induction fuel with
  | zero =>
    intro cur copied buffer _ enough
    exact absurd enough (Nat.not_lt_zero _)
  | succ fuel ih =>
    intro cur copied buffer within enough
    rw [readClusters]
    by_cases going : 2 ≤ cur ∧ cur < chainEnd ∧ copied < readSize
    · have proper : Proper cur := ⟨going.1, going.2.1⟩
      rw [if_pos going, fat32ReadCluster_eq going.1]
      dsimp only
      have copyEq : (if (copied + v.bytesPerCluster) % 2 ^ 32 > readSize then readSize - copied
          else v.bytesPerCluster) = min v.bytesPerCluster (readSize - copied) := by
        rw [Nat.mod_eq_of_lt (by omega)]
        split <;> omega
      rw [copyEq]
      generalize counted : min v.bytesPerCluster (readSize - copied) = copy
      rw [Nat.mod_eq_of_lt (by omega : copied + copy < 2 ^ 32)]
      obtain ⟨more, after, done, rest⟩ := ih (fat32GetFatEntry v cur) (copied + copy)
        (buffer.write copied ((clusterBytes v cur).take copy)) (by omega) (by omega)
      refine ⟨copy + more, after, ?_, ?_⟩
      · rw [done, Nat.add_assoc]
      · rw [← Nat.sub_sub] at rest
        exact rest.step sectors proper counted.symm
    · rw [if_neg going]
      refine ⟨0, buffer, rfl, .nothing buffer ?_⟩
      by_cases proper : Proper cur
      · exact .inl (Nat.sub_eq_zero_of_le (Nat.le_of_not_lt
          fun unfinished => going ⟨proper.1, proper.2, unfinished⟩))
      · exact .inr proper

/-- What `Fat32ReadFile` should do: copy the bytes of the file's chain, as many as the
file and the buffer have and the chain gives, and report their number. -/
def ReadsChain (v : Volume) (entry : DirEntry) (buffer : ByteMemory) (bufsize : Nat)
    (result : ReadResult) : Prop :=
  (result.bytesRead : ℕ∞) = min ((min entry.fileSize bufsize : Nat) : ℕ∞)
      (chainLength v entry.firstCluster * v.bytesPerCluster) ∧
    (∀ position, position < result.bytesRead →
      chainByte v entry.firstCluster position = some (result.buffer position)) ∧
    ∀ index, result.bytesRead ≤ index → result.buffer index = buffer index

theorem readsChain_nothing {entry : DirEntry} {bufsize : Nat} (status : NtStatus)
    (buffer : ByteMemory) (none : entry.fileSize = 0 ∨ ¬ Proper entry.firstCluster) :
    ReadsChain v entry buffer bufsize ⟨status, 0, buffer⟩ := by
  refine ⟨?_, fun position below => absurd below (Nat.not_lt_zero _), fun _ _ => rfl⟩
  rcases none with empty | improper
  · simp [empty]
  · simp [chainLength_improper improper]

/-- `Fat32ReadFile` on any FAT, of a name that is found: without memory for a cluster it
does nothing, and otherwise it returns what the chain holds. -/
theorem fat32ReadFile_readsChain (room : Nat → Bool) (v : Volume) (name : List UInt8)
    (entry : DirEntry) (buffer : ByteMemory) (bufsize : Nat) (valid : v.valid = true)
    (sectors : Sectors512 v) (found : fat32FindEntry (room 0) v v.rootCluster name =
      some (.ok entry)) (noWrap : bufsize + v.bytesPerCluster < 2 ^ 32) :
    ∃ result, fat32ReadFile room v name buffer bufsize = some result ∧
      (ReadsChain v entry buffer bufsize result ∨
        (room 1 = false ∧ result = ⟨statusNoMemory, 0, buffer⟩)) := by
  rw [fat32ReadFile, if_pos valid, found]
  dsimp only
  by_cases empty : entry.fileSize = 0
  · rw [if_pos empty]
    exact ⟨_, rfl, .inl (readsChain_nothing _ buffer (.inl empty))⟩
  rw [if_neg empty]
  by_cases improper : entry.firstCluster < 2
  · rw [if_pos improper]
    exact ⟨_, rfl, .inl (readsChain_nothing _ buffer
      (.inr fun proper => absurd proper.1 (Nat.not_le.mpr improper)))⟩
  · rw [if_neg improper]
    cases memory : room 1 with
    | false => exact ⟨_, rfl, .inr ⟨rfl, rfl⟩⟩
    | true =>
      rw [if_pos rfl]
      obtain ⟨count, after, done, copied⟩ := readClusters_copied sectors
        (by omega : min entry.fileSize bufsize + v.bytesPerCluster < 2 ^ 32) loopSteps
        entry.firstCluster 0 buffer (Nat.zero_le _) (by
          rw [loopSteps]
          omega)
      rw [Nat.zero_add] at done
      refine ⟨_, done, .inl ⟨copied.total, ?_, ?_⟩⟩
      · intro position below
        have byte := copied.bytes position below
        rwa [Nat.zero_add] at byte
      · intro index behind
        exact copied.outside index (.inr (by rwa [Nat.zero_add]))

/-- The entry of a file `A` of 1200 bytes that starts in cluster 3. -/
def cyclicEntry : DirEntry := [0x41] ++ List.replicate 25 0 ++ [3, 0, 0xB0, 4, 0, 0]

/-- A volume with that file, where cluster 3 is followed by itself. -/
def cyclicVolume : Volume :=
  smallVolume 4 (fun cluster => if cluster = 3 then 3 else endOfChain)
    (fun index => cyclicEntry.getD index 0)

/-- The file is read out of the cycle. -/
theorem cyclicVolume_readsChain : ∃ result,
    fat32ReadFile (fun _ => true) cyclicVolume [0x41] (fun _ => 0) 2000 = some result ∧
      ReadsChain cyclicVolume cyclicEntry (fun _ => 0) 2000 result := by
  have geometry : Geometry cyclicVolume := smallVolume_geometry (by decide) _ _
  have chain : ChainOf cyclicVolume cyclicVolume.rootCluster [2] :=
    ⟨⟨rfl, show chainEnd ≤ fat32GetFatEntry cyclicVolume 2 by decide⟩, by decide⟩
  have found : Found cyclicVolume [0x41] cyclicEntry :=
    (found_iff geometry chain).mpr (by decide +kernel)
  obtain ⟨result, done, reads | ⟨noMemory, _⟩⟩ := fat32ReadFile_readsChain (fun _ => true)
    cyclicVolume [0x41] cyclicEntry (fun _ => 0) 2000 rfl ⟨rfl, rfl, by decide⟩ found (by decide)
  · exact ⟨result, done, reads⟩
  · cases noMemory

end MinNT.Fat32
