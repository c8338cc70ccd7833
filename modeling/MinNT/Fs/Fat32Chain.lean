import Mathlib.Data.List.Nodup
import MinNT.Fs.Fat32Directory

namespace MinNT.Fat32

open ByteMemory Chain List Function

def freeClusters (v : Volume) : List Nat :=
  (List.range' 2 (v.fatEntries - 2)).filter (fun cluster => v.fatCache cluster == 0)

variable {v : Volume}

theorem mem_freeClusters {cluster : Nat} :
    cluster ∈ freeClusters v ↔ (2 ≤ cluster ∧ cluster < v.fatEntries) ∧ v.fatCache cluster = 0 := by
  unfold freeClusters
  rw [mem_filter, mem_range'_1, beq_iff_eq]
  constructor
  · rintro ⟨inside, free⟩
    exact ⟨⟨inside.1, by omega⟩, free⟩
  · rintro ⟨inside, free⟩
    exact ⟨⟨inside.1, by omega⟩, free⟩

theorem freeClusters_nodup (v : Volume) : (freeClusters v).Nodup :=
  List.Nodup.filter _ nodup_range'

theorem fat32FindFreeCluster_eq (v : Volume) :
    fat32FindFreeCluster v =
      match freeClusters v with
      | [] => .error statusDiskFull
      | cluster :: _ => .ok cluster := by
  unfold fat32FindFreeCluster freeClusters
  rw [← head?_filter]
  cases (List.range' 2 (v.fatEntries - 2)).filter (fun cluster => v.fatCache cluster == 0) <;> rfl

theorem freeClusters_taken {v v' : Volume} {next : Nat} {rest : List Nat}
    (free : freeClusters v = next :: rest) (same : v'.fatEntries = v.fatEntries)
    (taken : ∀ cluster, 2 ≤ cluster → cluster < v.fatEntries →
      (v'.fatCache cluster = 0 ↔ v.fatCache cluster = 0 ∧ cluster ≠ next)) :
    freeClusters v' = rest := by
  have once := freeClusters_nodup v
  rw [free] at once
  have without : freeClusters v' = (freeClusters v).filter (fun cluster => cluster != next) := by
    unfold freeClusters
    rw [same, filter_filter]
    apply filter_congr
    intro cluster member
    rw [mem_range'_1] at member
    have known := taken cluster member.1 (by omega)
    rw [Bool.eq_iff_iff]
    simp only [beq_iff_eq, Bool.and_eq_true, bne_iff_ne, ne_eq]
    rw [known]
    exact And.comm
  rw [without, free, filter_cons]
  simp only [bne_self_eq_false, Bool.false_eq_true, if_false]
  apply filter_eq_self.mpr
  intro cluster member
  have different : cluster ≠ next := by
    rintro rfl
    exact (nodup_cons.mp once).1 member
  simpa using different

theorem freeClusters_head {cur next : Nat} {rest : List Nat}
    (free : freeClusters v = next :: rest) (used : v.fatCache cur ≠ 0) :
    (2 ≤ next ∧ next < v.fatEntries) ∧ v.fatCache next = 0 ∧ next ≠ cur := by
  have member : next ∈ freeClusters v := by
    rw [free]
    exact mem_cons_self
  obtain ⟨inside, isFree⟩ := mem_freeClusters.mp member
  refine ⟨inside, isFree, ?_⟩
  rintro rfl
  exact used isFree

theorem notTaken_of_used {cluster : Nat} (used : v.fatCache cluster ≠ 0)
    (count : Nat) : cluster ∉ (freeClusters v).take count :=
  fun member => used (mem_freeClusters.mp (mem_of_mem_take member)).2

theorem endOfChain_mod : endOfChain % 2 ^ 28 = endOfChain ∧ endOfChain ≠ 0 ∧
    chainEnd ≤ endOfChain := by decide

theorem fat32GetFatEntry_inside {cluster : Nat} (inside : cluster < v.fatEntries) :
    fat32GetFatEntry v cluster = v.fatCache cluster % 2 ^ 28 :=
  if_neg (by omega)

section Link

variable {v : Volume} {cur next : Nat} {rest : List Nat}

/-- The volume once the free cluster `next` hangs behind `cur`. -/
def linked (v : Volume) (cur next : Nat) : Volume :=
  (fat32SetFatEntry (fat32SetFatEntry v next endOfChain).2 cur next).2

theorem linked_fatEntries : (linked v cur next).fatEntries = v.fatEntries := by
  rw [linked, fat32SetFatEntry_fatEntries, fat32SetFatEntry_fatEntries]

theorem linked_fatCache (inside : cur < v.fatEntries) (nextInside : next < v.fatEntries)
    (small : next < 2 ^ 28) :
    (linked v cur next).fatCache =
      update (update v.fatCache next endOfChain) cur next := by
  rw [linked, fat32SetFatEntry_fatCache (by rw [fat32SetFatEntry_fatEntries]; exact inside),
    fat32SetFatEntry_fatCache nextInside, Nat.mod_eq_of_lt small, endOfChain_mod.1]

theorem freeClusters_linked (free : freeClusters v = next :: rest) (inside : cur < v.fatEntries)
    (used : v.fatCache cur ≠ 0) (small : next < 2 ^ 28) :
    freeClusters (linked v cur next) = rest := by
  obtain ⟨nextInside, nextFree, different⟩ := freeClusters_head free used
  apply freeClusters_taken free linked_fatEntries
  intro cluster proper _
  rw [linked_fatCache inside nextInside.2 small]
  by_cases isCur : cluster = cur
  · subst isCur
    rw [update_self]
    exact ⟨fun zero => by omega, fun both => absurd both.1 used⟩
  · rw [update_of_ne isCur]
    by_cases isNext : cluster = next
    · subst isNext
      rw [update_self]
      exact ⟨fun zero => absurd zero endOfChain_mod.2.1, fun both => absurd rfl both.2⟩
    · rw [update_of_ne isNext]
      exact ⟨fun zero => ⟨zero, isNext⟩, fun both => both.1⟩

theorem linked_used (inside : cur < v.fatEntries) (nextInside : next < v.fatEntries)
    (small : next < 2 ^ 28) (different : next ≠ cur) : (linked v cur next).fatCache next ≠ 0 := by
  rw [linked_fatCache inside nextInside small, update_of_ne different, update_self]
  exact endOfChain_mod.2.1

theorem linked_changes (geometry : Geometry v) : Changes v (linked v cur next) [cur, next] [] := by
  have first := fat32SetFatEntry_changes geometry next endOfChain
  have second := fat32SetFatEntry_changes (first.geometry geometry) cur next
  exact (first.mono (by simp) (by simp)).trans (second.mono (by simp) (by simp))

end Link

/-- With enough free clusters `Fat32AllocateChain` makes a chain of that many
clusters, of which the first is the one it was given. -/
theorem fat32AllocateChain_eq (geometry : Geometry v) {cur : Nat} (count : Nat)
    (proper : 2 ≤ cur) (inside : cur < v.fatEntries) (used : v.fatCache cur ≠ 0)
    (enough : count ≤ (freeClusters v).length) :
    ∃ v', fat32AllocateChain v cur (count + 1) = (statusSuccess, v') ∧
      ChainOf v' cur (cur :: (freeClusters v).take count) ∧
      Changes v v' (cur :: (freeClusters v).take count) [] := by
  induction count generalizing v cur with
  | zero =>
    have changes := fat32SetFatEntry_changes geometry cur endOfChain
    refine ⟨_, rfl, ⟨⟨rfl, ?_⟩, ?_⟩, changes⟩
    · change chainEnd ≤ fat32GetFatEntry _ cur
      rw [fat32GetFatEntry_inside (by rwa [changes.fatEntries]), fat32SetFatEntry_cache inside,
        endOfChain_mod.1, endOfChain_mod.1]
      exact endOfChain_mod.2.2
    · intro cluster member
      rw [take_zero, mem_singleton] at member
      rw [changes.fatEntries, member]
      exact ⟨proper, inside⟩
  | succ count ih =>
    obtain ⟨next, rest, free⟩ : ∃ next rest, freeClusters v = next :: rest := by
      cases all : freeClusters v with
      | nil => simp [all] at enough
      | cons next rest => exact ⟨next, rest, rfl⟩
    obtain ⟨nextInside, nextFree, different⟩ := freeClusters_head free used
    have numbers := geometry.numbers
    have end28 : chainEnd < 2 ^ 28 := by decide
    have small : next < 2 ^ 28 := by omega
    have changes : Changes v (linked v cur next) [cur, next] [] := linked_changes geometry
    have left := freeClusters_linked free inside used small
    have few : count ≤ (freeClusters (linked v cur next)).length := by
      rw [free, length_cons] at enough
      rw [left]
      omega
    obtain ⟨v', done, chain, later⟩ := ih (changes.geometry geometry) nextInside.1
      (by rw [changes.fatEntries]; exact nextInside.2)
      (linked_used inside nextInside.2 small different) few
    rw [left] at chain later
    have fresh : cur ∉ next :: rest.take count := by
      rw [← take_succ_cons, ← free]
      exact notTaken_of_used used _
    have entries := later.fatEntries.trans changes.fatEntries
    rw [free, take_succ_cons]
    refine ⟨v', ?_, ⟨⟨rfl, ?_⟩, ?_⟩, ?_⟩
    · rw [fat32AllocateChain, fat32FindFreeCluster_eq, free]
      exact done
    · rw [fat32GetFatEntry_inside (by rwa [entries]), later.fat cur fresh,
        linked_fatCache inside nextInside.2 small, update_self, Nat.mod_eq_of_lt small]
      exact chain.linked
    · intro cluster here
      rcases mem_cons.mp here with rfl | behind
      · rw [entries]
        exact ⟨proper, inside⟩
      · exact chain.inside cluster behind
    · refine (changes.mono ?_ (by simp)).trans (later.mono (subset_cons_self _ _) (by simp))
      intro cluster here
      simp only [mem_cons, not_mem_nil, or_false] at here
      rcases here with rfl | rfl
      · exact mem_cons_self
      · exact mem_cons_of_mem _ mem_cons_self

end MinNT.Fat32
