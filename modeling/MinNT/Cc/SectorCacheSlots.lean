import MinNT.Cc.SectorCacheInvariant
import MinNT.Lib.NullTerminated
import MinNT.Lib.Recency

namespace MinNT.Cc

open List Function LinkedList NullTerminated Recency

/-- What the search for a free entry accepts. -/
def Free (cc : CcState) (e : Slot) : Prop :=
  (cc.entries e).lba = 0 ∧ (cc.entries e).accessCount = 0

/-- The `lru_next` pointers lead to the slot. -/
def OnLru (cc : CcState) (e : Slot) : Prop :=
  ∃ steps, follow (fun cell => (cc.lruLinks cell).next) steps cc.lruHead = some e

/-- The `hash_next` pointers lead to it in its bucket. -/
def InBucket (cc : CcState) (e : Slot) : Prop :=
  ∃ steps, follow (fun cell => (cc.hashLinks cell).next) steps
    (cc.hash (ccHashIndex (cc.entries e).lba)) = some e

/-- No slot is lost. -/
def SlotsKept (cc : CcState) : Prop := ∀ e, Free cc e ∨ InBucket cc e ∧ OnLru cc e

/-- The sector is in the cache. -/
def Cached (cc : CcState) (lba : UInt64) : Prop := ∃ e, ccHashFind cc lba = some (some e)

/-- A call of `CcReadSector` with what the device is at that moment. -/
structure CcRead where
  device : Device
  lba : UInt64
  buffer : Sector

def CcRead.run (cc : CcState) (read : CcRead) : Option ((NtStatus × Sector) × CcState) :=
  ccReadSector read.device cc read.lba read.buffer

/-- The answers of a sequence of them, `none` when one never returns. -/
def ccReads : CcState → List CcRead → Option (List (NtStatus × Sector) × CcState)
  | cc, [] => some ([], cc)
  | cc, read :: reads =>
      (read.run cc).bind (fun (answer, cc) =>
        (ccReads cc reads).map (fun (answers, cc) => (answer :: answers, cc)))

/-- None of the reads needs the device. -/
def ServedFromCache : CcState → List CcRead → Prop
  | _, [] => True
  | cc, read :: reads =>
      Cached cc read.lba ∧ ∃ answer after, read.run cc = some (answer, after) ∧
        ServedFromCache after reads

/-- Once all sectors of a working set that the cache has place for have been read
with success, further reads of them are served from the cache. -/
def ServesWorkingSets (cc : CcState) : Prop :=
  ∀ round later : List CcRead, (round.map CcRead.lba).dedup.length ≤ ccMaxEntries →
    (∀ read ∈ later, read.lba ∈ round.map CcRead.lba) →
    ∀ answers after, ccReads cc round = some (answers, after) →
      (∀ answer ∈ answers, ntSuccess answer.1 = true) → ServedFromCache after later

/-- Every call of the run returns; before and after each no slot is lost and
working sets are served. -/
def KeepsSlots : CcState → List CcRead → Prop
  | cc, [] => SlotsKept cc ∧ ServesWorkingSets cc
  | cc, read :: reads =>
      SlotsKept cc ∧ ServesWorkingSets cc ∧
        ∃ answer after, read.run cc = some (answer, after) ∧ KeepsSlots after reads

/-- No call both misses the cache and finds that the device fails. -/
def MissesSucceed : CcState → List CcRead → Prop
  | _, [] => True
  | cc, read :: reads =>
      (Cached cc read.lba ∨ ∃ bytes, read.device.read read.lba = .ok bytes) ∧
        ∀ answer after, read.run cc = some (answer, after) → MissesSucceed after reads

section Lists

variable {cc : CcState} {lru : List Slot} {bucket : Fin ccHashSize → List Slot}

theorem CcLists.slotsKept_iff (lists : CcLists cc lru bucket) :
    SlotsKept cc ↔ ∀ e, Free cc e ∨ e ∈ lru := by
  have both : ∀ e, (InBucket cc e ∧ OnLru cc e) ↔ e ∈ lru := by
    intro e
    rw [InBucket, OnLru, (lists.chain _).follow_iff, lists.lruList.follow_iff, lists.hashed]
    simp
  unfold SlotsKept
  simp only [both]

/-- The LRU list with the sectors of its entries, each once, and no slot lost. -/
structure Whole (cc : CcState) (lru : List Slot) (bucket : Fin ccHashSize → List Slot)
    (keys : List UInt64) : Prop where
  lists : CcLists cc lru bucket
  kept : ∀ e, Free cc e ∨ e ∈ lru
  sectors : keys = lru.map (fun e => (cc.entries e).lba)
  once : keys.Nodup

variable {keys : List UInt64}

theorem map_erase_once {lru : List Slot} {sector : Slot → UInt64} (once : (lru.map sector).Nodup)
    {e : Slot} (member : e ∈ lru) :
    (lru.erase e).map sector = (lru.map sector).erase (sector e) := by
  induction lru with
  | nil => cases member
  | cons first lru ih =>
    rw [map_cons, nodup_cons] at once
    by_cases same : first = e
    · subst same
      rw [erase_cons_head, map_cons, erase_cons_head]
    have later : e ∈ lru := by
      rcases mem_cons.mp member with rfl | later
      · exact absurd rfl same
      · exact later
    have apart : sector first ≠ sector e := by
      intro equal
      exact once.1 (equal ▸ mem_map_of_mem later)
    rw [erase_cons_tail (by simpa using same), map_cons, map_cons,
      erase_cons_tail (by simpa using apart), ih once.2 later]

theorem Whole.cached_iff (whole : Whole cc lru bucket keys) (lba : UInt64) :
    Cached cc lba ↔ lba ∈ keys := by
  obtain ⟨found, walk, known, missing⟩ := whole.lists.find lba
  rw [whole.sectors, List.mem_map]
  constructor
  · rintro ⟨e, cached⟩
    rw [walk] at cached
    obtain ⟨member, here⟩ := known e (Option.some.inj cached)
    exact ⟨e, member, here⟩
  · rintro ⟨e, member, here⟩
    cases found with
    | none => exact absurd here (missing rfl e member)
    | some other => exact ⟨other, walk⟩

variable {read : CcRead}

theorem Whole.hit (whole : Whole cc lru bucket keys) (held : read.lba ∈ keys) :
    ∃ answer after lru', read.run cc = some (answer, after) ∧ ntSuccess answer.1 = true ∧
      Whole after lru' bucket (touch ccMaxEntries keys read.lba) := by
  obtain ⟨e, walk⟩ := (whole.cached_iff read.lba).mpr held
  obtain ⟨found, walk', known, _⟩ := whole.lists.find read.lba
  obtain rfl := Option.some.inj (walk'.symm.trans walk)
  obtain ⟨member, here⟩ := known e rfl
  have counted := whole.lists.entries cc.entries cc.misses cc.evictions ((cc.hits + 1) % 2 ^ 32)
    (fun _ _ => ⟨rfl, rfl⟩)
  have once := whole.once
  rw [whole.sectors] at once
  have ran : read.run cc = some ((statusSuccess, (cc.entries e).data),
      ccLruMoveFront { cc with hits := (cc.hits + 1) % 2 ^ 32 } e) := by
    rw [CcRead.run, ccReadSector, if_neg (by simp [whole.lists.started]), walk]
  have kept : ∀ other, Free cc other ∨ other ∈ e :: lru.erase e := by
    intro other
    rcases whole.kept other with free | inside
    · exact .inl free
    · by_cases same : other = e
      · rw [same]
        exact .inr mem_cons_self
      · exact .inr (mem_cons_of_mem _ ((mem_erase_of_ne same).mpr inside))
  have sectors : touch ccMaxEntries keys read.lba =
      (e :: lru.erase e).map (fun e => (cc.entries e).lba) := by
    rw [touch, if_pos held, map_cons, map_erase_once once member, here, whole.sectors]
  exact ⟨_, _, e :: lru.erase e, ran, (by decide : ntSuccess statusSuccess = true),
    counted.moveFront e member, kept, sectors, touch_nodup whole.once read.lba⟩

theorem freeSlot?_eq_some {cc : CcState} {e : Slot} (found : freeSlot? cc = some e) :
    Free cc e := by
  have accepted := find?_some found
  have free : (cc.entries e).lba = 0 ∧ (cc.entries e).accessCount = 0 := of_decide_eq_true accepted
  exact free

theorem freeSlot?_eq_none {cc : CcState} (none : freeSlot? cc = none) (e : Slot) : ¬ Free cc e := by
  intro free
  have refused := find?_eq_none.mp none e (mem_finRange e)
  exact refused (decide_eq_true free)

theorem erase_getLast {lru : List Slot} (once : lru.Nodup) (nonempty : lru ≠ []) :
    lru.erase (lru.getLast nonempty) = lru.dropLast := by
  have shape := dropLast_append_getLast nonempty
  have apart : lru.getLast nonempty ∉ lru.dropLast := by
    intro member
    rw [← shape] at once
    exact (nodup_append.mp once).2.2 _ member _ (mem_singleton.mpr rfl) rfl
  calc lru.erase (lru.getLast nonempty)
      = (lru.dropLast ++ [lru.getLast nonempty]).erase (lru.getLast nonempty) := by rw [shape]
    _ = lru.dropLast := by
        rw [erase_append_right _ apart, erase_cons_head, append_nil]

section Whole

variable (whole : Whole cc lru bucket keys)
include whole

theorem Whole.free_iff : (∃ e, Free cc e) ↔ lru.length < ccMaxEntries := by
  have once := whole.lists.lruList.once
  constructor
  · rintro ⟨e, free⟩
    have fresh : e ∉ lru := fun member => whole.lists.inUse e member free.2
    have length := (nodup_cons.mpr ⟨fresh, once⟩).length_le_card
    rw [Fintype.card_fin, length_cons] at length
    omega
  · intro few
    by_contra none
    have every : lru.toFinset = Finset.univ := by
      ext e
      rcases whole.kept e with free | inside
      · exact absurd ⟨e, free⟩ none
      · simp [inside]
    have full : lru.length = ccMaxEntries := by
      rw [← toFinset_card_of_nodup once, every, Finset.card_univ, Fintype.card_fin]
    omega

/-- The slot that a miss reads into: it is on no list, and no other slot is lost.
Where all slots are on the lists it is the one at the end. -/
theorem Whole.victim :
    ∃ victim missed lru' bucket', ccVictim cc = (some victim, missed) ∧
      CcLists missed lru' bucket' ∧ missed.entries = cc.entries ∧ victim ∉ lru' ∧
      (∀ e, e ≠ victim → Free cc e ∨ e ∈ lru') ∧
      lru' = if lru.length < ccMaxEntries then lru else lru.dropLast := by
  have once := whole.lists.lruList.once
  unfold ccVictim
  cases search : freeSlot? cc with
  | some victim =>
    have fresh : victim ∉ lru := by
      intro member
      exact whole.lists.inUse victim member (freeSlot?_unused search)
    have few := whole.free_iff.mp ⟨victim, freeSlot?_eq_some search⟩
    refine ⟨victim, cc, lru, bucket, rfl, whole.lists, rfl, fresh, fun e _ => whole.kept e, ?_⟩
    rw [if_pos few]
  | none =>
    have all : ∀ e, e ∈ lru := by
      intro e
      rcases whole.kept e with free | inside
      · exact absurd free (freeSlot?_eq_none search e)
      · exact inside
    have full : ¬ lru.length < ccMaxEntries := by
      rw [← whole.free_iff]
      rintro ⟨e, free⟩
      exact freeSlot?_eq_none search e free
    have nonempty : lru ≠ [] := by
      rintro rfl
      exact full (show 0 < 2048 by omega)
    have last := whole.lists.lruLast
    rw [getLast?_eq_getLast_of_ne_nil nonempty] at last
    have member := getLast_mem nonempty
    have erased := erase_getLast once nonempty
    have removed := whole.lists.remove _ member
    rw [last]
    refine ⟨lru.getLast nonempty, _, lru.erase (lru.getLast nonempty), _, rfl,
      removed.entries _ _ ((cc.evictions + 1) % 2 ^ 32) _ (fun _ _ => ⟨rfl, rfl⟩), rfl,
      once.not_mem_erase, ?_, ?_⟩
    · intro e other
      exact .inr ((mem_erase_of_ne other).mpr (all e))
    · rw [if_neg full, erased]

theorem Whole.miss_run (absent : read.lba ∉ keys) {victim : Slot} {missed : CcState}
    (chosen : ccVictim { cc with misses := (cc.misses + 1) % 2 ^ 32 } = (some victim, missed)) :
    read.run cc = some (ccFill read.device missed victim read.lba read.buffer) := by
  obtain ⟨found, walk, known, _⟩ := whole.lists.find read.lba
  have missing : found = none := by
    cases found with
    | none => rfl
    | some e => exact absurd ((whole.cached_iff read.lba).mp ⟨e, walk⟩) absent
  rw [CcRead.run, ccReadSector, if_neg (by simp [whole.lists.started]), walk, missing]
  dsimp only
  rw [chosen]

theorem Whole.counted (misses : Nat) : Whole { cc with misses := misses } lru bucket keys :=
  ⟨whole.lists.entries cc.entries misses cc.evictions cc.hits (fun _ _ => ⟨rfl, rfl⟩), whole.kept,
    whole.sectors, whole.once⟩

end Whole

theorem CcLists.update (lists : CcLists cc lru bucket) {victim : Slot} (fresh : victim ∉ lru)
    (entry : CcEntry) :
    CcLists { cc with entries := Function.update cc.entries victim entry } lru bucket := by
  apply lists.entries _ cc.misses cc.evictions cc.hits
  intro e member
  have other : e ≠ victim := fun same => fresh (same ▸ member)
  rw [update_of_ne other]
  exact ⟨rfl, rfl⟩

/-- A miss that the device serves puts the sector in front, in a free slot or in
that of the least recent sector. -/
theorem Whole.miss (whole : Whole cc lru bucket keys) (absent : read.lba ∉ keys)
    {bytes : Sector} (served : read.device.read read.lba = .ok bytes) :
    ∃ answer after lru' bucket', read.run cc = some (answer, after) ∧
      ntSuccess answer.1 = true ∧ Whole after lru' bucket' (touch ccMaxEntries keys read.lba) := by
  have accepted : ntSuccess statusSuccess = true := by decide
  obtain ⟨victim, missed, lru', bucket', chosen, lists, same, fresh, kept, shape⟩ :=
    (whole.counted ((cc.misses + 1) % 2 ^ 32)).victim
  have ran := whole.miss_run absent chosen
  simp only [ccFill, underlyingRead, served, accepted, if_true] at ran
  have filled := (lists.update fresh ⟨read.lba, bytes, 1, false⟩).insert victim fresh (by simp)
  have entries : ∀ e, e ≠ victim →
      Function.update missed.entries victim ⟨read.lba, bytes, 1, false⟩ e = cc.entries e := by
    intro e other
    rw [update_of_ne other, same]
  have keptAll : ∀ e, Free (ccLruInsertFront (ccHashInsert { missed with
      entries := Function.update missed.entries victim ⟨read.lba, bytes, 1, false⟩ } victim)
      victim) e ∨ e ∈ victim :: lru' := by
    intro e
    by_cases here : e = victim
    · rw [here]
      exact .inr mem_cons_self
    · rcases kept e here with free | inside
      · refine .inl ?_
        show (Function.update missed.entries victim ⟨read.lba, bytes, 1, false⟩ e).lba = 0 ∧
          (Function.update missed.entries victim ⟨read.lba, bytes, 1, false⟩ e).accessCount = 0
        rw [entries e here]
        exact free
      · exact .inr (mem_cons_of_mem _ inside)
  have sectors : touch ccMaxEntries keys read.lba = (victim :: lru').map (fun e =>
      (Function.update missed.entries victim ⟨read.lba, bytes, 1, false⟩ e).lba) := by
    have behind : lru'.map (fun e =>
        (Function.update missed.entries victim ⟨read.lba, bytes, 1, false⟩ e).lba) =
          lru'.map (fun e => (cc.entries e).lba) := by
      apply map_congr_left
      intro e member
      rw [entries e (fun here => fresh (here ▸ member))]
    rw [touch, if_neg absent, map_cons, behind, update_self, shape, whole.sectors, length_map]
    split
    · rfl
    · rw [map_dropLast]
  have whole' : Whole (ccLruInsertFront (ccHashInsert { missed with
      entries := Function.update missed.entries victim ⟨read.lba, bytes, 1, false⟩ } victim)
      victim) (victim :: lru') _ (touch ccMaxEntries keys read.lba) :=
    ⟨filled, keptAll, sectors, touch_nodup whole.once _⟩
  exact ⟨_, _, _, _, ran, accepted, whole'⟩

theorem Whole.lost (whole : Whole cc lru bucket keys) (absent : read.lba ∉ keys)
    {status : FailureStatus} (refused : read.device.read read.lba = .error status) :
    ∃ answer after, read.run cc = some (answer, after) ∧ ntSuccess answer.1 = false ∧
      ¬ SlotsKept after := by
  obtain ⟨victim, missed, lru', bucket', chosen, lists, _, fresh, _, _⟩ :=
    (whole.counted ((cc.misses + 1) % 2 ^ 32)).victim
  have ran := whole.miss_run absent chosen
  simp only [ccFill, underlyingRead, refused, status.property, Bool.false_eq_true, if_false] at ran
  refine ⟨_, _, ran, status.property, ?_⟩
  intro keptAll
  rcases ((lists.update fresh _).slotsKept_iff.mp keptAll) victim with free | member
  · have count := free.2
    dsimp only at count
    rw [update_self] at count
    simp at count
  · exact fresh member

theorem Whole.step (whole : Whole cc lru bucket keys) {read : CcRead}
    (good : Cached cc read.lba ∨ ∃ bytes, read.device.read read.lba = .ok bytes) :
    ∃ answer after lru' bucket', read.run cc = some (answer, after) ∧
      ntSuccess answer.1 = true ∧ Whole after lru' bucket' (touch ccMaxEntries keys read.lba) := by
  by_cases held : read.lba ∈ keys
  · obtain ⟨answer, after, lru', ran, success, next⟩ := whole.hit held
    exact ⟨answer, after, lru', bucket, ran, success, next⟩
  · rcases good with cached | ⟨bytes, served⟩
    · exact absurd ((whole.cached_iff read.lba).mp cached) held
    · exact whole.miss held served

section Whole

variable (whole : Whole cc lru bucket keys)
include whole

theorem Whole.step_lost
    (bad : ¬ (Cached cc read.lba ∨ ∃ bytes, read.device.read read.lba = .ok bytes)) :
    ∃ answer after, read.run cc = some (answer, after) ∧ ntSuccess answer.1 = false ∧
      ¬ SlotsKept after := by
  rw [not_or, whole.cached_iff] at bad
  cases outcome : read.device.read read.lba with
  | ok bytes => exact absurd ⟨bytes, outcome⟩ bad.2
  | error status => exact whole.lost bad.1 outcome

/-- After successful reads the list is that of the recent sectors. -/
theorem Whole.reads {reads : List CcRead} {answers : List (NtStatus × Sector)} {after : CcState}
    (ran : ccReads cc reads = some (answers, after))
    (success : ∀ answer ∈ answers, ntSuccess answer.1 = true) :
    ∃ lru' bucket', Whole after lru' bucket'
      ((reads.map CcRead.lba).foldl (touch ccMaxEntries) keys) := by
  induction reads generalizing cc lru bucket keys answers with
  | nil =>
    cases ran
    exact ⟨lru, bucket, whole⟩
  | cons read reads ih =>
    obtain ⟨⟨answer, middle⟩, first, later⟩ := Option.bind_eq_some_iff.mp ran
    obtain ⟨⟨answers', last⟩, rest, same⟩ := Option.map_eq_some_iff.mp later
    cases same
    by_cases good : Cached cc read.lba ∨ ∃ bytes, read.device.read read.lba = .ok bytes
    · obtain ⟨_, _, lru', bucket', ran', _, next⟩ := whole.step good
      rw [first] at ran'
      cases ran'
      exact ih next rest (fun other member => success other (mem_cons_of_mem _ member))
    · obtain ⟨_, _, ran', failed, _⟩ := whole.step_lost good
      rw [first] at ran'
      cases ran'
      have succeeded := success answer mem_cons_self
      rw [failed] at succeeded
      cases succeeded

theorem Whole.served {reads : List CcRead}
    (held : ∀ read ∈ reads, read.lba ∈ keys) : ServedFromCache cc reads := by
  induction reads generalizing cc lru bucket keys with
  | nil => trivial
  | cons read reads ih =>
    have here := held read mem_cons_self
    obtain ⟨answer, after, lru', ran, _, next⟩ := whole.hit here
    refine ⟨(whole.cached_iff _).mpr here, answer, after, ran, ?_⟩
    apply ih next
    intro other member
    rw [mem_touch_of_mem whole.once here]
    exact held other (mem_cons_of_mem _ member)

theorem Whole.servesWorkingSets : ServesWorkingSets cc := by
  intro round later few within answers after ran success
  obtain ⟨lru', bucket', next⟩ := whole.reads ran success
  apply next.served
  intro read member
  exact mem_foldl_touch whole.once few (within read member)

/-- From any whole cache, over all reads. -/
theorem Whole.keepsSlots_iff (reads : List CcRead) :
    KeepsSlots cc reads ↔ MissesSucceed cc reads := by
  have kept : SlotsKept cc := whole.lists.slotsKept_iff.mpr whole.kept
  induction reads generalizing cc lru bucket keys with
  | nil => exact iff_of_true ⟨kept, whole.servesWorkingSets⟩ trivial
  | cons read reads ih =>
    constructor
    · rintro ⟨_, _, answer, after, ran, rest⟩
      have keptAfter : SlotsKept after := by
        cases reads with
        | nil => exact rest.1
        | cons => exact rest.1
      have good : Cached cc read.lba ∨ ∃ bytes, read.device.read read.lba = .ok bytes := by
        by_contra bad
        obtain ⟨_, _, ran', _, lost⟩ := whole.step_lost bad
        rw [ran] at ran'
        cases ran'
        exact lost keptAfter
      refine ⟨good, ?_⟩
      intro answer' after' again
      obtain ⟨_, _, lru', bucket', ran', _, next⟩ := whole.step good
      rw [ran] at again ran'
      cases again
      cases ran'
      exact (ih next keptAfter).mp rest
    · rintro ⟨good, rest⟩
      obtain ⟨answer, after, lru', bucket', ran, _, next⟩ := whole.step good
      have keptAfter : SlotsKept after := next.lists.slotsKept_iff.mpr next.kept
      exact ⟨kept, whole.servesWorkingSets, answer, after, ran,
        (ih next keptAfter).mpr (rest answer after ran)⟩

end Whole

end Lists

theorem whole_init (statics : CcState) : Whole (ccInitSystem statics) [] (fun _ => []) [] where
  lists := (ccLists_clear { statics with init := true } rfl).entries _ 0 0 0 (fun _ _ => ⟨rfl, rfl⟩)
  kept := fun _ => .inl ⟨rfl, rfl⟩
  sectors := rfl
  once := nodup_nil

/-- After `CcInitSystem` a run of reads loses no slot, and serves working sets from
the cache, exactly if no call of it both misses and finds that the device fails. -/
theorem sectorCache_keepsSlots_iff (statics : CcState) (reads : List CcRead) :
    KeepsSlots (ccInitSystem statics) reads ↔ MissesSucceed (ccInitSystem statics) reads :=
  (whole_init statics).keepsSlots_iff reads

/-- The statics before `CcInitSystem`. -/
def bootStatics : CcState where
  entries := fun _ => .zero
  hashLinks := fun _ => detached
  lruLinks := fun _ => detached
  hash := fun _ => none
  lruHead := none
  lruTail := none
  init := false
  hits := 0
  misses := 0
  evictions := 0

/-- A read from a device that serves nothing. -/
def deadRead : CcRead :=
  ⟨⟨fun _ => .error ⟨statusNoMemory, by decide⟩, fun _ buffer => buffer⟩, 5, zeroSector⟩

/-- It loses a slot. -/
theorem deadRead_losesSlot : ¬ KeepsSlots (ccInitSystem bootStatics) [deadRead] := by
  rintro ⟨_, _, answer, after, ran, kept, _⟩
  have whole := whole_init bootStatics
  have bad : ¬ (Cached (ccInitSystem bootStatics) deadRead.lba ∨
      ∃ bytes, deadRead.device.read deadRead.lba = .ok bytes) := by
    rw [not_or, whole.cached_iff]
    exact ⟨not_mem_nil, fun ⟨_, impossible⟩ => by cases impossible⟩
  obtain ⟨_, _, ran', _, lost⟩ := whole.step_lost bad
  rw [ran] at ran'
  cases ran'
  exact lost kept

end MinNT.Cc
