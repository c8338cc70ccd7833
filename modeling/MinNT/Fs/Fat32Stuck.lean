import Mathlib.Data.Finset.Prod
import Mathlib.Data.Int.GCD
import MinNT.Fs.Fat32Cycle
import MinNT.Fs.Fat32Overwrite

namespace MinNT.Fat32

open FuelLoop List

/-- The entries of a cluster in front of no end mark that are not deleted. -/
def liveSlots (v : Volume) (cluster : Nat) : List DirEntry :=
  (clusterSlots v cluster).filter fun slot => !slot.deleted

/-- The number of entries in the first clusters of a chain. -/
def livePassed (v : Volume) : Nat → Nat → Nat
  | _, 0 => 0
  | cur, clusters + 1 => (liveSlots v cur).length + livePassed v (fat32GetFatEntry v cur) clusters

/-- No slot of the cluster ends the directory. -/
abbrev Unmarked (v : Volume) (cluster : Nat) : Prop :=
  ∀ slot ∈ clusterSlots v cluster, slot.ended = false

variable {maxEntries : Nat} {v : Volume} {readSize : Nat}

theorem collectEntries_open (here : List DirEntry) :
    ∀ {entries : List DirEntry}, (∀ slot ∈ here, slot.ended = false) →
      entries.length + (here.filter fun slot => !slot.deleted).length < maxEntries →
      collectEntries maxEntries here entries =
        (entries ++ here.filter fun slot => !slot.deleted, false) := by
  induction here with
  | nil =>
    intro entries _ _
    rw [collectEntries, filter_nil, append_nil]
  | cons slot here ih =>
    intro entries unmarked room
    have first := unmarked slot mem_cons_self
    have rest := fun other member => unmarked other (mem_cons_of_mem _ member)
    rw [collectEntries, if_pos (by omega), first, if_neg Bool.false_ne_true]
    cases deleted : slot.deleted with
    | true =>
      rw [filter_cons_of_neg (by simp [deleted])] at room ⊢
      exact ih rest room
    | false =>
      rw [filter_cons_of_pos (by simp [deleted])] at room ⊢
      rw [if_neg Bool.false_ne_true, ih rest (by
        rw [length_append, length_singleton]
        rw [length_cons] at room
        omega), append_assoc, singleton_append]

theorem collectEntries_open_iff (here : List DirEntry) :
    ∀ {entries found : List DirEntry}, collectEntries maxEntries here entries = (found, false) →
      found.length < maxEntries →
      (∀ slot ∈ here, slot.ended = false) ∧
        entries.length + (here.filter fun slot => !slot.deleted).length < maxEntries := by
  induction here with
  | nil =>
    intro entries found collected room
    rw [collectEntries, Prod.mk.injEq] at collected
    rw [collected.1]
    exact ⟨fun _ member => absurd member not_mem_nil, room⟩
  | cons slot here ih =>
    intro entries found collected room
    rw [collectEntries] at collected
    split at collected
    · cases ended : slot.ended with
      | true =>
        rw [ended, if_pos rfl, Prod.mk.injEq] at collected
        cases collected.2
      | false =>
        rw [ended, if_neg Bool.false_ne_true] at collected
        cases deleted : slot.deleted with
        | true =>
          rw [deleted, if_pos rfl] at collected
          obtain ⟨unmarked, few⟩ := ih collected room
          rw [filter_cons_of_neg (by simp [deleted])]
          exact ⟨forall_mem_cons.mpr ⟨ended, unmarked⟩, few⟩
        | false =>
          rw [deleted, if_neg Bool.false_ne_true] at collected
          obtain ⟨unmarked, few⟩ := ih collected room
          rw [filter_cons_of_pos (by simp [deleted]), length_cons]
          rw [length_append, length_singleton] at few
          exact ⟨forall_mem_cons.mpr ⟨ended, unmarked⟩, by omega⟩
    · rename_i filled
      rw [Prod.mk.injEq] at collected
      rw [← collected.1] at room
      exact absurd room filled

/-- A cluster of the loop of `Fat32ReadDirectory`, with the number of entries before it. -/
def directoryStep (v : Volume) (maxEntries : Nat) (state : Nat × Nat) : Option (Nat × Nat) :=
  if Proper state.1 ∧ Unmarked v state.1 ∧
      state.2 + (liveSlots v state.1).length < maxEntries ∧
      Proper (fat32GetFatEntry v state.1) then
    some (fat32GetFatEntry v state.1, state.2 + (liveSlots v state.1).length)
  else none

theorem directoryStep_eq_some {state next : Nat × Nat} :
    directoryStep v maxEntries state = some next ↔
      (Proper state.1 ∧ Unmarked v state.1 ∧
        state.2 + (liveSlots v state.1).length < maxEntries ∧
        Proper (fat32GetFatEntry v state.1)) ∧
        (fat32GetFatEntry v state.1, state.2 + (liveSlots v state.1).length) = next := by
  unfold directoryStep
  rw [Option.ite_none_right_eq_some, Option.some_inj]

theorem directoryStep_bounds {state following : Nat × Nat}
    (step : directoryStep v maxEntries state = some following) :
    following.1 < chainEnd ∧ following.2 < maxEntries := by
  obtain ⟨all, rfl⟩ := directoryStep_eq_some.mp step
  exact ⟨all.2.2.2.2, all.2.2.1⟩

theorem readDirectoryFrom_controls (v : Volume) (maxEntries : Nat) :
    Controls (fun fuel (state : Nat × List DirEntry) =>
        readDirectoryFrom v maxEntries fuel state.1 state.2)
      (fun state => (state.1, state.2.length)) (directoryStep v maxEntries) where
  zero := fun _ => rfl
  turn := by
    rintro ⟨cur, entries⟩ following step
    obtain ⟨all, rfl⟩ := directoryStep_eq_some.mp step
    obtain ⟨proper, unmarked, room, next⟩ := all
    refine ⟨(fat32GetFatEntry v cur, entries ++ liveSlots v cur), ?_, fun fuel => ?_⟩
    · rw [length_append]
    · have collected := collectEntries_open (clusterSlots v cur) unmarked room
      have low := next.1
      have high := next.2
      dsimp only at low high room ⊢
      rw [readDirectoryFrom, if_pos ⟨proper.2, proper.1, by omega⟩, fat32ReadCluster_eq proper.1]
      dsimp only
      rw [← clusterSlots, collected]
      exact if_neg (by omega)
  stop := by
    rintro ⟨cur, entries⟩ ends fuel
    dsimp only at ends ⊢
    rw [readDirectoryFrom]
    split
    · rename_i going
      rw [fat32ReadCluster_eq going.2.1]
      dsimp only
      rw [← clusterSlots]
      cases collected : collectEntries maxEntries (clusterSlots v cur) entries with
      | mk found finished =>
        cases finished with
        | true => rfl
        | false =>
          dsimp only
          split
          · rfl
          rw [readDirectoryFrom]
          split
          · rename_i more
            obtain ⟨unmarked, few⟩ := collectEntries_open_iff _ collected more.2.2
            rw [directoryStep, if_pos ⟨⟨going.2.1, going.1⟩, unmarked, few,
              more.2.1, more.1⟩] at ends
            cases ends
          · rfl
    · rfl

/-- A search that never ends: the chain comes back, none of its clusters holds an end mark,
and there are never enough entries. -/
def SearchStuck (v : Volume) (dir maxEntries : Nat) : Prop :=
  Cyclic v dir ∧ (∀ cluster, OnChain v dir cluster → Unmarked v cluster) ∧
    ∀ clusters, livePassed v dir clusters < maxEntries

/-- A listing goes on forever on a cycle without a mark and with too few entries. -/
theorem forever_directoryStep {cur count : Nat} :
    Forever (directoryStep v maxEntries) (cur, count) ↔
      Forever (chainStep v fun cluster => decide (Unmarked v cluster)) cur ∧
        ∀ clusters, count + livePassed v cur clusters < maxEntries := by
  constructor
  · intro forever
    constructor
    · intro turns
      induction turns generalizing cur count with
      | zero => rfl
      | succ turns ih =>
        obtain ⟨next, step, later⟩ := forever_step.mp forever
        obtain ⟨all, rfl⟩ := directoryStep_eq_some.mp step
        rw [FuelLoop.after, chainStep, if_pos ⟨all.1, decide_eq_true all.2.1, all.2.2.2⟩]
        exact ih later
    · intro clusters
      induction clusters generalizing cur count with
      | zero =>
        obtain ⟨next, step, _⟩ := forever_step.mp forever
        obtain ⟨all, rfl⟩ := directoryStep_eq_some.mp step
        have room := all.2.2.1
        dsimp only at room
        rw [livePassed]
        omega
      | succ clusters ih =>
        obtain ⟨next, step, later⟩ := forever_step.mp forever
        obtain ⟨_, rfl⟩ := directoryStep_eq_some.mp step
        rw [livePassed, ← Nat.add_assoc]
        exact ih later
  · rintro ⟨forever, few⟩ turns
    induction turns generalizing cur count with
    | zero => rfl
    | succ turns ih =>
      obtain ⟨next, step, later⟩ := forever_step.mp forever
      obtain ⟨all, rfl⟩ := chainStep_eq_some.mp step
      have room := few 1
      rw [livePassed, livePassed, Nat.add_zero] at room
      rw [FuelLoop.after, directoryStep, if_pos ⟨all.1, of_decide_eq_true all.2.1, room, all.2.2⟩]
      refine ih later fun clusters => ?_
      have more := few (clusters + 1)
      rwa [livePassed, ← Nat.add_assoc] at more

theorem directoryStates (v : Volume) (small : maxEntries < 2 ^ 32) :
    ∃ states : Finset (Nat × Nat), states.card + 2 ≤ loopSteps ∧
      ∀ state following, directoryStep v maxEntries state = some following →
        following ∈ states := by
  refine ⟨Finset.range chainEnd ×ˢ Finset.range maxEntries, ?_, fun state following step => ?_⟩
  · rw [Finset.card_product, Finset.card_range, Finset.card_range, loopSteps]
    have bound : chainEnd * maxEntries ≤ chainEnd * 2 ^ 32 :=
      Nat.mul_le_mul_left _ (Nat.le_of_lt small)
    have large : chainEnd * 2 ^ 32 + 2 ≤ 2 ^ 64 := by decide
    omega
  · have bounds := directoryStep_bounds step
    rw [Finset.mem_product, Finset.mem_range, Finset.mem_range]
    exact bounds

theorem readDirectoryFrom_isSome_iff (v : Volume) (dir : Nat) (small : maxEntries < 2 ^ 32) :
    (readDirectoryFrom v maxEntries loopSteps dir []).isSome ↔ ¬ SearchStuck v dir maxEntries := by
  obtain ⟨states, few, image⟩ := directoryStates v small
  have ends := (readDirectoryFrom_controls v maxEntries).isSome_iff states image few (dir, [])
  rw [length_nil, forever_directoryStep, forever_chainStep] at ends
  simp only [decide_eq_true_eq, Nat.zero_add] at ends
  rw [ends, SearchStuck, and_assoc]

/-- The multiples of a size, counted round a modulus, come as close to its end as the greatest
common divisor allows. -/
theorem multiples_below {size modulus bound : Nat} (positive : 0 < modulus) :
    (∀ count, count * size % modulus < bound) ↔ modulus < bound + Nat.gcd size modulus := by
  have divides : Nat.gcd size modulus ∣ modulus := Nat.gcd_dvd_right size modulus
  have some : 0 < Nat.gcd size modulus := Nat.gcd_pos_of_pos_right size positive
  constructor
  · intro below
    rcases Nat.lt_or_ge (Nat.gcd size modulus) modulus with proper | whole
    · obtain ⟨factor, _, hit⟩ := Nat.exists_mul_mod_eq_gcd proper
      obtain ⟨parts, cut⟩ := divides
      have least : modulus - Nat.gcd size modulus = Nat.gcd size modulus * (parts - 1) := by
        rw [Nat.mul_sub, ← cut, Nat.mul_one]
      have last : factor * (parts - 1) * size % modulus = modulus - Nat.gcd size modulus := by
        rw [Nat.mul_comm, ← Nat.mul_assoc, Nat.mul_mod, hit, Nat.mul_mod_mod, ← least,
          Nat.mod_eq_of_lt (by omega)]
      have close := below (factor * (parts - 1))
      omega
    · have first := below 0
      rw [Nat.zero_mul, Nat.zero_mod] at first
      omega
  · intro less count
    have below := Nat.mod_lt (count * size) positive
    have multiple : Nat.gcd size modulus ∣ count * size % modulus :=
      (Nat.dvd_mod_iff divides).mpr (Dvd.dvd.mul_left (Nat.gcd_dvd_left size modulus) count)
    have room : Nat.gcd size modulus ≤ modulus - count * size % modulus :=
      Nat.le_of_dvd (by omega) (Nat.dvd_sub divides multiple)
    omega

/-- A cluster of the loop of `Fat32ReadFile` that is copied whole, with the count before it. -/
def readStep (v : Volume) (readSize : Nat) (state : Nat × Nat) : Option (Nat × Nat) :=
  if Proper state.1 ∧ state.2 < readSize ∧ (state.2 + v.bytesPerCluster) % 2 ^ 32 < readSize ∧
      Proper (fat32GetFatEntry v state.1) then
    some (fat32GetFatEntry v state.1, (state.2 + v.bytesPerCluster) % 2 ^ 32)
  else none

theorem readStep_eq_some {state next : Nat × Nat} :
    readStep v readSize state = some next ↔
      (Proper state.1 ∧ state.2 < readSize ∧
        (state.2 + v.bytesPerCluster) % 2 ^ 32 < readSize ∧
        Proper (fat32GetFatEntry v state.1)) ∧
        (fat32GetFatEntry v state.1, (state.2 + v.bytesPerCluster) % 2 ^ 32) = next := by
  unfold readStep
  rw [Option.ite_none_right_eq_some, Option.some_inj]

theorem readStep_bounds {state following : Nat × Nat}
    (step : readStep v readSize state = some following) :
    following.1 < chainEnd ∧ following.2 < 2 ^ 32 := by
  obtain ⟨all, rfl⟩ := readStep_eq_some.mp step
  exact ⟨all.2.2.2.2, Nat.mod_lt _ (by decide)⟩

theorem readClusters_controls (v : Volume) (small : readSize < 2 ^ 32) :
    Controls (fun fuel (state : Nat × Nat × ByteMemory) =>
        readClusters v readSize fuel state.1 state.2.1 state.2.2)
      (fun state => (state.1, state.2.1)) (readStep v readSize) where
  zero := fun _ => rfl
  turn := by
    rintro ⟨cur, copied, buffer⟩ following step
    obtain ⟨all, rfl⟩ := readStep_eq_some.mp step
    obtain ⟨proper, unfinished, whole, _⟩ := all
    dsimp only at unfinished whole ⊢
    refine ⟨(fat32GetFatEntry v cur, (copied + v.bytesPerCluster) % 2 ^ 32,
      buffer.write copied ((clusterBytes v cur).take v.bytesPerCluster)), rfl, fun fuel => ?_⟩
    rw [readClusters, if_pos ⟨proper.1, proper.2, unfinished⟩, fat32ReadCluster_eq proper.1]
    dsimp only
    rw [if_neg (by omega)]
  stop := by
    rintro ⟨cur, copied, buffer⟩ ends fuel
    dsimp only at ends ⊢
    rw [readClusters]
    split
    · rename_i going
      rw [fat32ReadCluster_eq going.1]
      dsimp only
      by_cases last : (copied + v.bytesPerCluster) % 2 ^ 32 > readSize
      · rw [if_pos last, Nat.add_sub_cancel' (by omega), Nat.mod_eq_of_lt small, readClusters,
          if_neg (by omega)]
        rfl
      · rw [if_neg last, readClusters]
        split
        · rename_i more
          rw [readStep, if_pos ⟨⟨going.1, going.2.1⟩, going.2.2, more.2.2, more.1, more.2.1⟩]
            at ends
          cases ends
        · rfl
    · rfl

/-- A read goes on forever on a cycle where its wrapped count never suffices. -/
theorem forever_readStep {readSize cur copied : Nat} (small : copied < 2 ^ 32) :
    Forever (readStep v readSize) (cur, copied) ↔
      Forever (chainStep v fun _ => true) cur ∧
        ∀ count, (copied + count * v.bytesPerCluster) % 2 ^ 32 < readSize := by
  have add : ∀ copied count, ((copied + v.bytesPerCluster) % 2 ^ 32 +
      count * v.bytesPerCluster) % 2 ^ 32 =
        (copied + (count + 1) * v.bytesPerCluster) % 2 ^ 32 := by
    intro copied count
    rw [Nat.mod_add_mod, Nat.succ_mul, Nat.add_assoc,
      Nat.add_comm v.bytesPerCluster (count * v.bytesPerCluster)]
  constructor
  · intro forever
    constructor
    · intro turns
      induction turns generalizing cur copied with
      | zero => rfl
      | succ turns ih =>
        obtain ⟨next, step, later⟩ := forever_step.mp forever
        obtain ⟨all, rfl⟩ := readStep_eq_some.mp step
        rw [FuelLoop.after, chainStep, if_pos ⟨all.1, rfl, all.2.2.2⟩]
        exact ih (Nat.mod_lt _ (by decide)) later
    · intro count
      induction count generalizing cur copied with
      | zero =>
        obtain ⟨next, step, _⟩ := forever_step.mp forever
        obtain ⟨all, rfl⟩ := readStep_eq_some.mp step
        rw [Nat.zero_mul, Nat.add_zero, Nat.mod_eq_of_lt small]
        exact all.2.1
      | succ count ih =>
        obtain ⟨next, step, later⟩ := forever_step.mp forever
        obtain ⟨_, rfl⟩ := readStep_eq_some.mp step
        rw [← add]
        exact ih (Nat.mod_lt _ (by decide)) later
  · rintro ⟨forever, below⟩ turns
    induction turns generalizing cur copied with
    | zero => rfl
    | succ turns ih =>
      obtain ⟨next, step, later⟩ := forever_step.mp forever
      obtain ⟨all, rfl⟩ := chainStep_eq_some.mp step
      have first := below 0
      have second := below 1
      rw [Nat.zero_mul, Nat.add_zero, Nat.mod_eq_of_lt small] at first
      rw [Nat.one_mul] at second
      rw [FuelLoop.after, readStep, if_pos ⟨all.1, first, second, all.2.2⟩]
      refine ih (Nat.mod_lt _ (by decide)) later fun count => ?_
      rw [add]
      exact below (count + 1)

/-- Reading round a cycle does not end if the count of bytes never comes to the size. -/
def ReadStuck (v : Volume) (start readSize : Nat) : Prop :=
  Cyclic v start ∧ 2 ^ 32 < readSize + Nat.gcd v.bytesPerCluster (2 ^ 32)

theorem readStates (v : Volume) (readSize : Nat) :
    ∃ states : Finset (Nat × Nat), states.card + 2 ≤ loopSteps ∧
      ∀ state following, readStep v readSize state = some following → following ∈ states := by
  refine ⟨Finset.range chainEnd ×ˢ Finset.range (2 ^ 32), ?_, fun state following step => ?_⟩
  · rw [Finset.card_product, Finset.card_range, Finset.card_range, loopSteps]
    decide
  · have bounds := readStep_bounds step
    rw [Finset.mem_product, Finset.mem_range, Finset.mem_range]
    exact bounds

theorem readClusters_isSome_iff (v : Volume) (start : Nat) (buffer : ByteMemory)
    (small : readSize < 2 ^ 32) :
    (readClusters v readSize loopSteps start 0 buffer).isSome ↔ ¬ ReadStuck v start readSize := by
  obtain ⟨states, few, image⟩ := readStates v readSize
  have ends : (readClusters v readSize loopSteps start 0 buffer).isSome ↔
      ¬ Forever (readStep v readSize) (start, 0) :=
    (readClusters_controls v small).isSome_iff states image few (start, 0, buffer)
  rw [forever_readStep (by decide), forever_chainStep] at ends
  simp only [Nat.zero_add, multiples_below (show 0 < 2 ^ 32 by decide)] at ends
  rw [ends, ReadStuck]
  simp

theorem fat32ReadDirectory_returns_iff (v : Volume) (dir : Nat) (small : maxEntries < 2 ^ 32) :
    (∀ room, (fat32ReadDirectory room v dir maxEntries).isSome) ↔
      ¬ SearchStuck v dir maxEntries := by
  rw [← readDirectoryFrom_isSome_iff v dir small]
  constructor
  · exact fun returns => returns true
  · intro ends room
    cases room with
    | false => rfl
    | true => exact ends

theorem fat32FindEntry_isSome (room : Bool) (v : Volume) (dir : Nat) (name : List UInt8) :
    (fat32FindEntry room v dir name).isSome = (fat32ReadDirectory room v dir 64).isSome := by
  unfold fat32FindEntry
  cases fat32ReadDirectory room v dir 64 with
  | none => rfl
  | some result =>
    cases result with
    | error status => rfl
    | ok entries =>
      dsimp only
      cases entries.find? (fun entry => entry.name == searchName name) <;> rfl

theorem fat32FindEntry_returns_iff (v : Volume) (dir : Nat) (name : List UInt8) :
    (∀ room, (fat32FindEntry room v dir name).isSome) ↔ ¬ SearchStuck v dir 64 := by
  rw [← fat32ReadDirectory_returns_iff v dir (by decide)]
  simp only [fat32FindEntry_isSome]

theorem fat32WriteDirectoryEntry_returns_iff (v : Volume) (dir : Nat) (entry : DirEntry) :
    (∀ room, (fat32WriteDirectoryEntry room v dir entry).isSome) ↔ ¬ EntryStuck v dir := by
  rw [← writeEntryFrom_isSome_iff v entry dir]
  constructor
  · exact fun returns => returns true
  · intro ends room
    cases room with
    | false => rfl
    | true => exact ends

theorem Cyclic.proper {start : Nat} (cyclic : Cyclic v start) : Proper start := by
  by_contra improper
  have first := cyclic_iff.mp cyclic 0
  rw [clusterAt_improper improper] at first
  cases first

theorem readStuck_positive {start readSize : Nat}
    (stuck : ReadStuck v start readSize) : readSize ≠ 0 := by
  have divides := Nat.le_of_dvd (show 0 < 2 ^ 32 by decide)
    (Nat.gcd_dvd_right v.bytesPerCluster (2 ^ 32))
  have far := stuck.2
  omega

theorem Found.of_search {room : Bool} {name : List UInt8} {entry : DirEntry}
    (search : fat32FindEntry room v v.rootCluster name = some (.ok entry)) :
    Found v name entry := by
  cases room with
  | true => exact search
  | false => cases search

theorem fat32ReadFile_found_isSome {room : Nat → Bool} {v : Volume} (valid : v.valid = true)
    {name : List UInt8} {entry : DirEntry}
    (found : fat32FindEntry (room 0) v v.rootCluster name = some (.ok entry))
    (buffer : ByteMemory) (bufsize : Nat) :
    (fat32ReadFile room v name buffer bufsize).isSome ↔
      (room 1 = true → ¬ ReadStuck v entry.firstCluster (min entry.fileSize bufsize)) := by
  have small : min entry.fileSize bufsize < 2 ^ 32 :=
    Nat.lt_of_le_of_lt (Nat.min_le_left _ _) entry.fileSize_lt
  rw [fat32ReadFile, if_pos valid, found]
  dsimp only
  by_cases empty : entry.fileSize = 0
  · rw [if_pos empty]
    refine iff_of_true rfl fun _ stuck => readStuck_positive stuck ?_
    rw [empty, Nat.zero_min]
  · rw [if_neg empty]
    by_cases improper : entry.firstCluster < 2
    · rw [if_pos improper]
      exact iff_of_true rfl fun _ stuck => absurd stuck.1.proper.1 (Nat.not_le.mpr improper)
    · rw [if_neg improper]
      cases memory : room 1 with
      | false => exact iff_of_true rfl fun none => absurd none Bool.false_ne_true
      | true =>
        rw [if_pos rfl, readClusters_isSome_iff v entry.firstCluster buffer small]
        exact (imp_iff_right rfl).symm

/-- A read returns unless the search or the chain runs forever. -/
theorem fat32ReadFile_returns_iff (v : Volume) (valid : v.valid = true) (name : List UInt8)
    (buffer : ByteMemory) (bufsize : Nat) :
    (∀ room, (fat32ReadFile room v name buffer bufsize).isSome) ↔
      ¬ SearchStuck v v.rootCluster 64 ∧ ∀ entry, Found v name entry →
        ¬ ReadStuck v entry.firstCluster (min entry.fileSize bufsize) := by
  rw [← fat32FindEntry_returns_iff v v.rootCluster name]
  constructor
  · intro returns
    refine ⟨fun room => ?_, fun entry found => ?_⟩
    · have all := returns fun _ => room
      rw [fat32ReadFile, if_pos valid] at all
      cases search : fat32FindEntry room v v.rootCluster name with
      | none => simp [search] at all
      | some result => rfl
    · exact (@fat32ReadFile_found_isSome (fun _ => true) v valid name entry found buffer bufsize).mp
        (returns fun _ => true) rfl
  · rintro ⟨searches, reads⟩ room
    obtain ⟨result, search⟩ := Option.isSome_iff_exists.mp (searches (room 0))
    cases result with
    | error status =>
      rw [fat32ReadFile, if_pos valid, search]
      rfl
    | ok entry =>
      rw [fat32ReadFile_found_isSome valid search]
      exact fun _ => reads entry (.of_search search)

end MinNT.Fat32
