import MinNT.Cc.SectorCacheSlots

namespace MinNT.Cc

open List LinkedList Recency

/-- How many reads ago the sector was read for the last time. -/
def readsSince (reads : List CcRead) (lba : UInt64) : Nat :=
  age (reads.map CcRead.lba).reverse lba

/-- The LRU list leads through the cached sectors, each once, from the one that was
read last to the one whose last read is the oldest. -/
def LruOrdered (cc : CcState) (reads : List CcRead) : Prop :=
  ∃ lru, Threaded cc.lruLinks cc.lruHead lru ∧ cc.lruTail = lru.getLast? ∧
    (lru.map (fun e => (cc.entries e).lba)).Nodup ∧
    (∀ lba, Cached cc lba ↔ lba ∈ lru.map (fun e => (cc.entries e).lba)) ∧
    (lru.map (fun e => (cc.entries e).lba)).Pairwise
      (fun lba older => readsSince reads lba < readsSince reads older)

/-- A read that takes no sector out of the cache. -/
def EvictsNothing (cc next : CcState) (lba : UInt64) : Prop :=
  ∀ other, Cached next other ↔ other = lba ∨ Cached cc other

/-- A read that takes out the one sector whose last read is the oldest. -/
def EvictsOldest (cc next : CcState) (reads : List CcRead) (lba : UInt64) : Prop :=
  ∃ oldest, Cached cc oldest ∧
    (∀ other, Cached cc other → other ≠ oldest →
      readsSince reads other < readsSince reads oldest) ∧
    ∀ other, Cached next other ↔ other = lba ∨ Cached cc other ∧ other ≠ oldest

section Evictions

variable {cc next : CcState} {lru : List Slot} {bucket : Fin ccHashSize → List Slot}
  {keys : List UInt64} {reads : List CcRead}

theorem Whole.lruOrdered (whole : Whole cc lru bucket keys)
    (sorted : Sorted (reads.map CcRead.lba).reverse keys) : LruOrdered cc reads := by
  refine ⟨lru, whole.lists.lruList, whole.lists.lruLast, ?_⟩
  rw [← whole.sectors]
  exact ⟨whole.once, whole.cached_iff, sorted⟩

variable {answer : NtStatus × Sector}

section Whole

variable (whole : Whole cc lru bucket keys)
include whole

theorem Whole.success {read : CcRead}
    (ran : read.run cc = some (answer, next)) (success : ntSuccess answer.1 = true) :
    ∃ lru' bucket', Whole next lru' bucket' (touch ccMaxEntries keys read.lba) := by
  by_cases good : Cached cc read.lba ∨ ∃ bytes, read.device.read read.lba = .ok bytes
  · obtain ⟨_, _, lru', bucket', ran', _, used⟩ := whole.step good
    rw [ran] at ran'
    cases ran'
    exact ⟨lru', bucket', used⟩
  · obtain ⟨_, _, ran', failed, _⟩ := whole.step_lost good
    rw [ran] at ran'
    cases ran'
    rw [failed] at success
    cases success

theorem Whole.length : keys.length = lru.length := by
  rw [whole.sectors, length_map]

theorem Whole.evictsNothing {read : CcRead} (ran : read.run cc = some (answer, next))
    (success : ntSuccess answer.1 = true) (place : Cached cc read.lba ∨ ∃ e, Free cc e) :
    EvictsNothing cc next read.lba := by
  obtain ⟨lru', bucket', used⟩ := whole.success ran success
  intro other
  rw [used.cached_iff, whole.cached_iff]
  by_cases held : read.lba ∈ keys
  · rw [mem_touch_of_mem whole.once held]
    constructor
    · exact .inr
    · rintro (rfl | member)
      · exact held
      · exact member
  · rcases place with cached | free
    · exact absurd ((whole.cached_iff _).mp cached) held
    · apply mem_touch_of_lt held
      rw [whole.length]
      exact whole.free_iff.mp free

/-- A miss in a full cache evicts the oldest sector. -/
theorem Whole.evictsOldest (sorted : Sorted (reads.map CcRead.lba).reverse keys) {read : CcRead}
    (ran : read.run cc = some (answer, next))
    (success : ntSuccess answer.1 = true) (miss : ¬ Cached cc read.lba)
    (full : ¬ ∃ e, Free cc e) : EvictsOldest cc next reads read.lba := by
  obtain ⟨lru', bucket', used⟩ := whole.success ran success
  rw [whole.cached_iff] at miss
  rw [whole.free_iff, ← whole.length] at full
  have nonempty : keys ≠ [] := by
    rintro rfl
    exact full (show 0 < 2048 by omega)
  refine ⟨keys.getLast nonempty, ?_, ?_, ?_⟩
  · rw [whole.cached_iff]
    exact getLast_mem nonempty
  · intro other cached different
    exact sorted.oldest nonempty ((whole.cached_iff other).mp cached) different
  · intro other
    rw [used.cached_iff, whole.cached_iff]
    exact mem_touch_of_full whole.once miss full nonempty other

end Whole

end Evictions

/-- After any reads that all succeed the LRU list is in the order of the last reads.
A further one evicts nothing if it hits or finds a free slot, and otherwise exactly
the sector whose last read is the oldest. -/
theorem sectorCache_lru (statics : CcState) {reads : List CcRead}
    {answers : List (NtStatus × Sector)} {cc : CcState}
    (ran : ccReads (ccInitSystem statics) reads = some (answers, cc))
    (success : ∀ answer ∈ answers, ntSuccess answer.1 = true) :
    LruOrdered cc reads ∧
      ∀ (read : CcRead) (answer : NtStatus × Sector) (next : CcState),
        read.run cc = some (answer, next) → ntSuccess answer.1 = true →
        (Cached cc read.lba ∨ (∃ e, Free cc e) → EvictsNothing cc next read.lba) ∧
          (¬ Cached cc read.lba → (¬ ∃ e, Free cc e) → EvictsOldest cc next reads read.lba) := by
  obtain ⟨lru, bucket, whole⟩ := (whole_init statics).reads ran success
  have sorted : Sorted (reads.map CcRead.lba).reverse
      ((reads.map CcRead.lba).foldl (touch ccMaxEntries) []) := by
    have all := @Sorted.foldl _ _ [] [] List.Pairwise.nil ccMaxEntries (reads.map CcRead.lba)
    rwa [append_nil] at all
  refine ⟨whole.lruOrdered sorted, ?_⟩
  intro read answer next again good
  exact ⟨whole.evictsNothing again good, whole.evictsOldest sorted again good⟩

/-- A read from a device that serves every sector. -/
def liveRead (lba : UInt64) : CcRead :=
  ⟨⟨fun _ => .ok zeroSector, fun _ buffer => buffer⟩, lba, zeroSector⟩

/-- The sectors 0 to 2047, which fill the cache, and sector 0 again. -/
def fullReads : List CcRead :=
  (range 2048).map (fun i => liveRead (UInt64.ofNat i)) ++ [liveRead 0]

/-- Where every device serves its sector the reads return, all with success. -/
theorem Whole.liveReads {cc : CcState} {lru : List Slot} {bucket : Fin ccHashSize → List Slot}
    {keys : List UInt64} (whole : Whole cc lru bucket keys) {reads : List CcRead}
    (served : ∀ read ∈ reads, ∃ bytes, read.device.read read.lba = .ok bytes) :
    ∃ answers after, ccReads cc reads = some (answers, after) ∧
      ∀ answer ∈ answers, ntSuccess answer.1 = true := by
  induction reads generalizing cc lru bucket keys with
  | nil => exact ⟨[], cc, rfl, fun _ member => absurd member not_mem_nil⟩
  | cons read reads ih =>
    obtain ⟨answer, middle, _, _, ran, success, next⟩ :=
      whole.step (.inr (served read mem_cons_self))
    obtain ⟨answers, after, rest, all⟩ :=
      ih next (fun other member => served other (mem_cons_of_mem _ member))
    refine ⟨answer :: answers, after, ?_, forall_mem_cons.mpr ⟨success, all⟩⟩
    rw [ccReads, ran, Option.bind_some]
    dsimp only
    rw [rest]
    rfl

theorem fullReads_keys :
    ∃ keys : List UInt64, (fullReads.map CcRead.lba).foldl (touch ccMaxEntries) [] = keys ∧
      keys.length = 2048 ∧ 5000 ∉ keys := by
  have values : ∀ i ∈ range 2048, (UInt64.ofNat i).toNat = i := by
    intro i member
    rw [mem_range] at member
    exact UInt64.toNat_ofNat_of_lt (show i < 2 ^ 64 by omega)
  have once : ((range 2048).map UInt64.ofNat).Nodup := by
    apply List.Nodup.map_on _ nodup_range
    intro i first j second same
    rw [← values i first, ← values j second, same]
  have filled : ((range 2048).map UInt64.ofNat).foldl (touch ccMaxEntries) [] =
      ((range 2048).map UInt64.ofNat).reverse ++ [] :=
    foldl_touch_fresh once (fun _ _ => not_mem_nil) (by simp [ccMaxEntries])
  have names : fullReads.map CcRead.lba = (range 2048).map UInt64.ofNat ++ [0] := by
    rw [fullReads, map_append, map_map]
    rfl
  have zero : (0 : UInt64) ∈ ((range 2048).map UInt64.ofNat).reverse := by
    rw [mem_reverse, List.mem_map]
    exact ⟨0, mem_range.mpr (by omega), rfl⟩
  rw [names, foldl_append, filled, append_nil]
  refine ⟨_, rfl, ?_, ?_⟩
  · rw [foldl_cons, foldl_nil, touch, if_pos zero, length_cons,
      length_erase_of_mem zero, length_reverse, length_map, length_range]
  · rw [foldl_cons, foldl_nil, mem_touch_of_mem (nodup_reverse.mpr once) zero,
      mem_reverse, List.mem_map]
    rintro ⟨i, member, same⟩
    have value := values i member
    rw [same] at value
    rw [mem_range, ← value] at member
    exact absurd member (by decide)

theorem sectorCache_lru_liveRead :
    ∃ answers cc answer next, ccReads (ccInitSystem bootStatics) fullReads = some (answers, cc) ∧
      (liveRead 5000).run cc = some (answer, next) ∧ LruOrdered cc fullReads ∧
      EvictsOldest cc next fullReads 5000 := by
  have served : ∀ read ∈ fullReads, ∃ bytes, read.device.read read.lba = .ok bytes := by
    intro read member
    rw [fullReads, mem_append, List.mem_map, mem_singleton] at member
    rcases member with ⟨_, _, rfl⟩ | rfl
    · exact ⟨zeroSector, rfl⟩
    · exact ⟨zeroSector, rfl⟩
  obtain ⟨answers, cc, ran, success⟩ := (whole_init bootStatics).liveReads served
  obtain ⟨lru, bucket, whole⟩ := (whole_init bootStatics).reads ran success
  obtain ⟨answer, next, _, _, again, good, _⟩ := whole.step (.inr ⟨zeroSector, rfl⟩ : _ ∨
    ∃ bytes, (liveRead 5000).device.read (liveRead 5000).lba = .ok bytes)
  obtain ⟨keys, used, length, absent⟩ := fullReads_keys
  rw [used] at whole
  have miss : ¬ Cached cc (liveRead 5000).lba :=
    fun cached => absent ((whole.cached_iff _).mp cached)
  have full : ¬ ∃ e, Free cc e := by
    rw [whole.free_iff, ← whole.length, length]
    exact Nat.lt_irrefl 2048
  have lru := sectorCache_lru bootStatics ran success
  exact ⟨answers, cc, answer, next, ran, again, lru.1, (lru.2 _ _ _ again good).2 miss full⟩

end MinNT.Cc
