import MinNT.Fs.Fat32
import MinNT.Lib.Chain
import MinNT.Lib.SlotTable

open ByteMemory
open Chain
open SlotTable

namespace MinNT.Fat32

/-- A mounted volume with sectors of 512 bytes: clusters are of a power of two
of sectors, their numbers are below the marks that end chains, and the FAT lies
in front of the data. -/
structure Geometry (v : Volume) : Prop where
  mounted : v.valid = true
  sector : v.bytesPerSector = 512
  power : ∃ shift, shift ≤ 7 ∧ v.sectorsPerCluster = 2 ^ shift
  cluster : v.bytesPerCluster = v.sectorsPerCluster * 512
  numbers : v.fatEntries ≤ chainEnd
  fatFits : v.fatStart * 512 + v.fatEntries * 4 ≤ v.dataStart * 512

theorem Geometry.positive {v : Volume} (geometry : Geometry v) : 0 < v.sectorsPerCluster := by
  obtain ⟨shift, _, power⟩ := geometry.power
  rw [power]
  exact Nat.two_pow_pos shift

/-- The bytes of a cluster. -/
def clusterBytes (v : Volume) (cluster : Nat) : List UInt8 :=
  fat32ReadSectors v (clusterLba v cluster) v.sectorsPerCluster

variable {v : Volume} {cluster : Nat}

theorem fat32ReadCluster_eq (proper : 2 ≤ cluster) :
    fat32ReadCluster v cluster = .ok (clusterBytes v cluster) :=
  if_neg (by omega)

theorem clusterBytes_length (v : Volume) (cluster : Nat) :
    (clusterBytes v cluster).length = v.sectorsPerCluster * 512 :=
  read_length _ _ _

/-- What a step does not change: the mount, the FAT outside `entries`, and the
data outside `clusters`. -/
structure Changes (v v' : Volume) (entries clusters : List Nat) : Prop where
  mount : ∃ fatCache disk, v' = { v with fatCache, disk }
  fat : ∀ cluster, cluster ∉ entries → v'.fatCache cluster = v.fatCache cluster
  data : ∀ cluster, 2 ≤ cluster → cluster ∉ clusters →
    clusterBytes v' cluster = clusterBytes v cluster

theorem Changes.refl (v : Volume) (entries clusters : List Nat) : Changes v v entries clusters :=
  ⟨⟨v.fatCache, v.disk, rfl⟩, fun _ _ => rfl, fun _ _ _ => rfl⟩

theorem Changes.mono {v v' : Volume} {entries clusters entries' clusters' : List Nat}
    (changes : Changes v v' entries clusters) (more : entries ⊆ entries')
    (more' : clusters ⊆ clusters') : Changes v v' entries' clusters' where
  mount := changes.mount
  fat := fun cluster outside => changes.fat cluster (fun inside => outside (more inside))
  data := fun cluster proper outside =>
    changes.data cluster proper (fun inside => outside (more' inside))

theorem Changes.trans {v v' v'' : Volume} {entries clusters : List Nat}
    (first : Changes v v' entries clusters) (second : Changes v' v'' entries clusters) :
    Changes v v'' entries clusters where
  mount := by
    obtain ⟨_, _, rfl⟩ := first.mount
    obtain ⟨fatCache, disk, rfl⟩ := second.mount
    exact ⟨fatCache, disk, rfl⟩
  fat := fun cluster outside => by rw [second.fat cluster outside, first.fat cluster outside]
  data := fun cluster proper outside => by
    rw [second.data cluster proper outside, first.data cluster proper outside]

section Changed

variable {v v' : Volume} {entries clusters : List Nat}

section Changes

variable (changes : Changes v v' entries clusters)
include changes

theorem Changes.fatEntries : v'.fatEntries = v.fatEntries := by
  obtain ⟨_, _, rfl⟩ := changes.mount
  rfl

theorem Changes.rootCluster : v'.rootCluster = v.rootCluster := by
  obtain ⟨_, _, rfl⟩ := changes.mount
  rfl

theorem Changes.bytesPerCluster : v'.bytesPerCluster = v.bytesPerCluster := by
  obtain ⟨_, _, rfl⟩ := changes.mount
  rfl

theorem Changes.sectorsPerCluster : v'.sectorsPerCluster = v.sectorsPerCluster := by
  obtain ⟨_, _, rfl⟩ := changes.mount
  rfl

theorem Changes.geometry (geometry : Geometry v) : Geometry v' := by
  obtain ⟨_, _, rfl⟩ := changes.mount
  exact ⟨geometry.mounted, geometry.sector, geometry.power, geometry.cluster, geometry.numbers,
    geometry.fatFits⟩

end Changes

theorem Changes.next (changes : Changes v v' entries clusters) {cluster : Nat}
    (outside : cluster ∉ entries) : fat32GetFatEntry v' cluster = fat32GetFatEntry v cluster := by
  unfold fat32GetFatEntry
  rw [changes.fatEntries, changes.fat cluster outside]

end Changed

theorem clusters_apart {cluster other : Nat} (proper : 2 ≤ cluster)
    (proper' : 2 ≤ other) (different : cluster ≠ other) :
    clusterLba v cluster * 512 + v.sectorsPerCluster * 512 ≤ clusterLba v other * 512 ∨
      clusterLba v other * 512 + v.sectorsPerCluster * 512 ≤ clusterLba v cluster * 512 := by
  unfold clusterLba
  rcases Nat.lt_or_gt_of_ne different with before | behind
  · left
    have gap : (cluster - 2 + 1) * v.sectorsPerCluster ≤ (other - 2) * v.sectorsPerCluster :=
      Nat.mul_le_mul_right _ (by omega)
    rw [Nat.add_mul, Nat.one_mul] at gap
    omega
  · right
    have gap : (other - 2 + 1) * v.sectorsPerCluster ≤ (cluster - 2) * v.sectorsPerCluster :=
      Nat.mul_le_mul_right _ (by omega)
    rw [Nat.add_mul, Nat.one_mul] at gap
    omega

theorem fat32WriteCluster_changes (proper : 2 ≤ cluster)
    {bytes : List UInt8} (length : bytes.length = v.sectorsPerCluster * 512) :
    ∃ v', fat32WriteCluster v cluster bytes = (statusSuccess, v') ∧ v'.fatCache = v.fatCache ∧
      Changes v v' [] [cluster] ∧ clusterBytes v' cluster = bytes := by
  refine ⟨fat32WriteSectors v (clusterLba v cluster) bytes, if_neg (by omega), rfl,
    ⟨⟨v.fatCache, _, rfl⟩, fun _ _ => rfl, ?_⟩, ?_⟩
  · intro other proper' outside
    have different : cluster ≠ other := by
      rintro rfl
      exact outside List.mem_cons_self
    have apart : clusterLba v other * 512 + v.sectorsPerCluster * 512 ≤ clusterLba v cluster * 512 ∨
        clusterLba v cluster * 512 + bytes.length ≤ clusterLba v other * 512 := by
      rw [length]
      exact (clusters_apart proper proper' different).symm
    exact read_write_disjoint v.disk (clusterLba v cluster * 512) bytes _ _ apart
  · have same := read_write_same v.disk (clusterLba v cluster * 512) bytes
    rw [length] at same
    exact same

theorem fat32WriteSectors_changes (v : Volume) (lba : Nat) (bytes : List UInt8)
    (before : lba * 512 + bytes.length ≤ v.dataStart * 512) :
    Changes v (fat32WriteSectors v lba bytes) [] [] := by
  refine ⟨⟨v.fatCache, _, rfl⟩, fun _ _ => rfl, ?_⟩
  intro cluster _ _
  have behind : v.dataStart * 512 ≤ clusterLba v cluster * 512 :=
    Nat.mul_le_mul_right _ (Nat.le_add_right _ _)
  have apart : lba * 512 + bytes.length ≤ clusterLba v cluster * 512 := Nat.le_trans before behind
  exact read_write_disjoint v.disk (lba * 512) bytes _ _ (.inr apart)

theorem sectorEnd_le {fatStart dataStart entries cluster sector offset : Nat}
    (inside : cluster < entries) (fits : fatStart * 512 + entries * 4 ≤ dataStart * 512)
    (whole : 512 * sector + offset = cluster * 4) (small : offset < 512) :
    (fatStart + sector) * 512 + (min offset 512 + 4 + (512 - (offset + 4))) ≤ dataStart * 512 := by
  have room : fatStart + sector + 1 ≤ dataStart := by omega
  have last : min offset 512 + 4 + (512 - (offset + 4)) = 512 := by omega
  rw [last]
  have bound := Nat.mul_le_mul_right 512 room
  rwa [Nat.add_mul _ 1 512, Nat.one_mul] at bound

theorem fat32SetFatEntry_changes (geometry : Geometry v) (cluster value : Nat) :
    Changes v (fat32SetFatEntry v cluster value).2 [cluster] [] := by
  unfold fat32SetFatEntry
  split
  · exact .refl v _ _
  have numbers := geometry.numbers
  have fits := geometry.fatFits
  rw [chainEnd] at numbers
  have cached : Changes v
      { v with fatCache := Function.update v.fatCache cluster (value % 2 ^ 28) }
      [cluster] [] := by
    refine ⟨⟨_, v.disk, rfl⟩, ?_, fun _ _ _ => rfl⟩
    intro other outside
    have different : other ≠ cluster := by simpa using outside
    exact Function.update_of_ne different _ _
  refine cached.trans ((fat32WriteSectors_changes _ _ _ ?_).mono (by simp) (by simp))
  simp only [List.length_append, List.length_take, List.length_drop, encodeLE_length,
    fat32ReadSectors, read_length, geometry.sector, Nat.one_mul]
  have offset : cluster * 4 % 2 ^ 32 = cluster * 4 := by omega
  rw [offset]
  exact sectorEnd_le (by omega) fits (Nat.div_add_mod _ _) (Nat.mod_lt _ (by decide))

theorem fat32SetFatEntry_fatCache (inside : cluster < v.fatEntries)
    (value : Nat) : (fat32SetFatEntry v cluster value).2.fatCache =
      Function.update v.fatCache cluster (value % 2 ^ 28) := by
  unfold fat32SetFatEntry
  rw [if_neg (Nat.not_le.mpr inside)]
  rfl

theorem fat32SetFatEntry_fatEntries (v : Volume) (cluster value : Nat) :
    (fat32SetFatEntry v cluster value).2.fatEntries = v.fatEntries := by
  unfold fat32SetFatEntry
  split <;> rfl

theorem fat32SetFatEntry_cache (inside : cluster < v.fatEntries)
    (value : Nat) : (fat32SetFatEntry v cluster value).2.fatCache cluster = value % 2 ^ 28 := by
  rw [fat32SetFatEntry_fatCache inside]
  exact Function.update_self _ _ _

theorem fat32SetFatEntry_other {cluster other : Nat} (different : other ≠ cluster)
    (value : Nat) : (fat32SetFatEntry v cluster value).2.fatCache other = v.fatCache other := by
  rcases Nat.lt_or_ge cluster v.fatEntries with inside | outside
  · rw [fat32SetFatEntry_fatCache inside]
    exact Function.update_of_ne different _ _
  · rw [fat32SetFatEntry, if_pos outside]

end MinNT.Fat32
