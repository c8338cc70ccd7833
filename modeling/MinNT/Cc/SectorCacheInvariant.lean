import MinNT.Cc.SectorCache

namespace MinNT.Cc

open List Function LinkedList

/-- The entries on the LRU list and, for each bucket, those on its chain. An
entry is on the LRU list exactly when it is on the chain of its own bucket, and
then it holds what the device has at its LBA. -/
structure CcInv (device : Device) (cc : CcState) (lru : List Slot)
    (bucket : Fin ccHashSize → List Slot) : Prop where
  started : cc.init = true
  lruList : Threaded cc.lruLinks cc.lruHead lru
  lruLast : cc.lruTail = lru.getLast?
  chain : ∀ idx, Threaded cc.hashLinks (cc.hash idx) (bucket idx)
  hashed : ∀ idx e, e ∈ bucket idx ↔ e ∈ lru ∧ ccHashIndex (cc.entries e).lba = idx
  holds : ∀ e ∈ lru, device.read (cc.entries e).lba = .ok (cc.entries e).data
  inUse : ∀ e ∈ lru, (cc.entries e).accessCount ≠ 0

/-- The part of it that does not depend on the device. -/
structure CcLists (cc : CcState) (lru : List Slot) (bucket : Fin ccHashSize → List Slot) :
    Prop where
  started : cc.init = true
  lruList : Threaded cc.lruLinks cc.lruHead lru
  lruLast : cc.lruTail = lru.getLast?
  chain : ∀ idx, Threaded cc.hashLinks (cc.hash idx) (bucket idx)
  hashed : ∀ idx e, e ∈ bucket idx ↔ e ∈ lru ∧ ccHashIndex (cc.entries e).lba = idx
  inUse : ∀ e ∈ lru, (cc.entries e).accessCount ≠ 0

theorem ccInv_iff {device : Device} {cc : CcState} {lru : List Slot}
    {bucket : Fin ccHashSize → List Slot} :
    CcInv device cc lru bucket ↔ CcLists cc lru bucket ∧
      ∀ e ∈ lru, device.read (cc.entries e).lba = .ok (cc.entries e).data := by
  constructor
  · intro inv
    exact ⟨⟨inv.started, inv.lruList, inv.lruLast, inv.chain, inv.hashed, inv.inUse⟩, inv.holds⟩
  · rintro ⟨lists, holds⟩
    exact ⟨lists.started, lists.lruList, lists.lruLast, lists.chain, lists.hashed, holds,
      lists.inUse⟩

theorem ccLists_clear (cc : CcState) (started : cc.init = true) :
    CcLists (ccClear cc) [] (fun _ => []) where
  started := started
  lruList := threaded_nil _
  lruLast := rfl
  chain := fun _ => threaded_nil _
  hashed := by
    intro idx e
    simp
  inUse := by
    intro e member
    cases member

section Lists

variable {cc : CcState} {lru : List Slot} {bucket : Fin ccHashSize → List Slot}

section Lists

variable (lists : CcLists cc lru bucket)
include lists

theorem CcLists.entries (entries : Slot → CcEntry) (misses evictions hits : Nat)
    (same : ∀ e ∈ lru, (entries e).lba = (cc.entries e).lba ∧
      (entries e).accessCount = (cc.entries e).accessCount) :
    CcLists
      { cc with entries := entries, misses := misses, evictions := evictions, hits := hits }
      lru bucket where
  started := lists.started
  lruList := lists.lruList
  lruLast := lists.lruLast
  chain := lists.chain
  hashed := by
    intro idx e
    rw [lists.hashed idx e]
    constructor
    · intro both
      exact ⟨both.1, by rw [(same e both.1).1]; exact both.2⟩
    · intro both
      exact ⟨both.1, by rw [← (same e both.1).1]; exact both.2⟩
  inUse := by
    intro e member
    rw [(same e member).2]
    exact lists.inUse e member

theorem CcLists.apart (e : Slot) (idx idx' : Fin ccHashSize)
    (here : e ∈ bucket idx) (there : e ∈ bucket idx') : idx = idx' := by
  rw [← ((lists.hashed idx e).mp here).2, ((lists.hashed idx' e).mp there).2]

theorem CcLists.remove (e : Slot) (member : e ∈ lru) :
    CcLists (ccHashRemove (ccLruRemove cc e) e) (lru.erase e)
      (fun idx => (bucket idx).erase e) where
  started := lists.started
  lruList := lists.lruList.unlink e member
  lruLast := lists.lruList.unlinkTail lists.lruLast e member
  chain := by
    intro idx
    have own : e ∈ bucket (ccHashIndex (cc.entries e).lba) :=
      (lists.hashed _ e).mpr ⟨member, rfl⟩
    change Threaded (unlink cc.hashLinks e)
      (update cc.hash (ccHashIndex (cc.entries e).lba)
        (unlinkHead cc.hashLinks (cc.hash (ccHashIndex (cc.entries e).lba)) e) idx) _
    by_cases same : idx = ccHashIndex (cc.entries e).lba
    · subst idx
      rw [update_self]
      exact (lists.chain _).unlink e own
    · rw [update_of_ne same]
      have absent : e ∉ bucket idx := fun here => same (lists.apart e _ _ here own)
      rw [erase_of_not_mem absent]
      apply (lists.chain idx).congr
      intro other inside
      apply (lists.chain _).unlink_outside e own
      intro there
      exact same (lists.apart other _ _ inside there)
  hashed := by
    intro idx other
    change other ∈ (bucket idx).erase e ↔
      other ∈ lru.erase e ∧ ccHashIndex (cc.entries other).lba = idx
    rw [(lists.chain idx).once.mem_erase_iff, lists.lruList.once.mem_erase_iff,
      lists.hashed idx other, and_assoc]
  inUse := by
    intro other inside
    exact lists.inUse other (mem_of_mem_erase inside)

/-- A slot goes to the front of the LRU list and of its bucket. -/
theorem CcLists.insert (e : Slot) (fresh : e ∉ lru) (inUse : (cc.entries e).accessCount ≠ 0) :
    CcLists (ccLruInsertFront (ccHashInsert cc e) e) (e :: lru)
      (update bucket (ccHashIndex (cc.entries e).lba)
        (e :: bucket (ccHashIndex (cc.entries e).lba))) where
  started := lists.started
  lruList := lists.lruList.pushFront e fresh
  lruLast := by
    change (if cc.lruHead = none then some e else cc.lruTail) = (e :: lru).getLast?
    rw [lists.lruList.segment.head_eq, lists.lruLast]
    cases lru with
    | nil => rfl
    | cons first lru => simp [getLast?_cons]
  chain := by
    intro idx
    have absent : ∀ idx, e ∉ bucket idx := fun idx here => fresh ((lists.hashed idx e).mp here).1
    change Threaded (pushFront cc.hashLinks (cc.hash (ccHashIndex (cc.entries e).lba)) e)
      (update cc.hash (ccHashIndex (cc.entries e).lba) (some e) idx) _
    by_cases same : idx = ccHashIndex (cc.entries e).lba
    · subst idx
      rw [update_self, update_self]
      exact (lists.chain _).pushFront e (absent _)
    · rw [update_of_ne same, update_of_ne same]
      apply (lists.chain idx).congr
      intro other inside
      apply pushFront_other
      · rintro rfl
        exact absent idx inside
      · intro first
        rw [(lists.chain _).segment.head_eq] at first
        exact same (lists.apart other _ _ inside (mem_of_head? first))
  hashed := by
    intro idx other
    change other ∈ update bucket _ _ idx ↔
      other ∈ e :: lru ∧ ccHashIndex (cc.entries other).lba = idx
    by_cases here : other = e
    · subst other
      by_cases same : idx = ccHashIndex (cc.entries e).lba
      · subst idx
        simp
      · rw [update_of_ne same, lists.hashed idx e]
        simp [fresh, Ne.symm same]
    · by_cases same : idx = ccHashIndex (cc.entries e).lba
      · subst idx
        rw [update_self, mem_cons, mem_cons, lists.hashed _ other]
        simp [here]
      · rw [update_of_ne same, mem_cons, lists.hashed idx other]
        simp [here]
  inUse := by
    intro other inside
    rcases mem_cons.mp inside with rfl | inside
    · exact inUse
    · exact lists.inUse other inside

theorem CcLists.moveFront (e : Slot) (member : e ∈ lru) :
    CcLists (ccLruMoveFront cc e) (e :: lru.erase e) bucket where
  started := lists.started
  lruList := by
    apply (lists.lruList.unlink e member).pushFront e
    exact lists.lruList.once.not_mem_erase
  lruLast := by
    have removed := lists.lruList.unlink e member
    have last := lists.lruList.unlinkTail lists.lruLast e member
    show (if unlinkHead cc.lruLinks cc.lruHead e = none then some e
      else unlinkTail cc.lruLinks cc.lruTail e) = (e :: lru.erase e).getLast?
    rw [removed.segment.head_eq, last]
    cases lru.erase e with
    | nil => rfl
    | cons first rest => simp [getLast?_cons]
  chain := lists.chain
  hashed := by
    intro idx other
    have same : other ∈ e :: lru.erase e ↔ other ∈ lru := by
      rw [mem_cons, lists.lruList.once.mem_erase_iff]
      by_cases here : other = e
      · simp [here, member]
      · simp [here]
    rw [lists.hashed idx other, same]
    rfl
  inUse := by
    intro other inside
    rcases mem_cons.mp inside with same | inside
    · rw [same]
      exact lists.inUse e member
    · exact lists.inUse other (mem_of_mem_erase inside)

theorem CcLists.find (lba : UInt64) :
    ∃ found, ccHashFind cc lba = some found ∧
      (∀ e, found = some e → e ∈ lru ∧ (cc.entries e).lba = lba) ∧
      (found = none → ∀ e ∈ lru, (cc.entries e).lba ≠ lba) := by
  have walk := (lists.chain (ccHashIndex lba)).find (fun e => (cc.entries e).lba = lba)
  rw [Fintype.card_fin] at walk
  refine ⟨_, walk, ?_, ?_⟩
  · intro e found
    refine ⟨((lists.hashed _ e).mp (mem_of_find?_eq_some found)).1, ?_⟩
    simpa using find?_some found
  · rintro missing e member rfl
    have own := (lists.hashed _ e).mpr ⟨member, rfl⟩
    have wrong := find?_eq_none.mp missing e own
    simp at wrong

end Lists

theorem freeSlot?_unused {cc : CcState} {e : Slot} (found : freeSlot? cc = some e) :
    (cc.entries e).accessCount = 0 := by
  have accepted := find?_some found
  exact (of_decide_eq_true accepted).2

theorem CcLists.victim (lists : CcLists cc lru bucket) :
    ∃ lru' bucket', CcLists (ccVictim cc).2 lru' bucket' ∧ lru' ⊆ lru ∧
      (ccVictim cc).2.entries = cc.entries ∧ ∀ e, (ccVictim cc).1 = some e → e ∉ lru' := by
  unfold ccVictim
  cases free : freeSlot? cc with
  | some victim =>
    refine ⟨lru, bucket, lists, List.Subset.refl _, rfl, ?_⟩
    intro e same member
    cases same
    exact lists.inUse victim member (freeSlot?_unused free)
  | none =>
    cases last : cc.lruTail with
    | some victim =>
      have member : victim ∈ lru := by
        apply mem_of_getLast?
        rw [← lists.lruLast, last]
      have removed := lists.remove victim member
      refine ⟨_, _, removed.entries _ _ ((cc.evictions + 1) % 2 ^ 32) _
        (fun _ _ => ⟨rfl, rfl⟩), erase_subset, rfl, ?_⟩
      intro e same
      cases same
      exact lists.lruList.once.not_mem_erase
    | none =>
      refine ⟨lru, bucket, lists, List.Subset.refl _, rfl, ?_⟩
      intro e same
      cases same

end Lists

section Device

variable {device : Device} {cc : CcState} {lru : List Slot}
  {bucket : Fin ccHashSize → List Slot}

theorem ccInv_clear (device : Device) (cc : CcState) (started : cc.init = true) :
    CcInv device (ccClear cc) [] (fun _ => []) :=
  ccInv_iff.mpr ⟨ccLists_clear cc started, fun _ member => absurd member not_mem_nil⟩

section Inv

variable (inv : CcInv device cc lru bucket)
include inv

theorem CcInv.entries (entries : Slot → CcEntry) (misses evictions hits : Nat)
    (same : ∀ e ∈ lru, (entries e).lba = (cc.entries e).lba ∧
      (entries e).data = (cc.entries e).data ∧
      (entries e).accessCount = (cc.entries e).accessCount) :
    CcInv device
      { cc with entries := entries, misses := misses, evictions := evictions, hits := hits }
      lru bucket := by
  obtain ⟨lists, holds⟩ := ccInv_iff.mp inv
  refine ccInv_iff.mpr ⟨lists.entries _ _ _ _ (fun e member => ?_), ?_⟩
  · exact ⟨(same e member).1, (same e member).2.2⟩
  · intro e member
    dsimp only
    rw [(same e member).1, (same e member).2.1]
    exact holds e member

theorem CcInv.insert (e : Slot) (fresh : e ∉ lru)
    (holds : device.read (cc.entries e).lba = .ok (cc.entries e).data)
    (inUse : (cc.entries e).accessCount ≠ 0) :
    CcInv device (ccLruInsertFront (ccHashInsert cc e) e) (e :: lru)
      (update bucket (ccHashIndex (cc.entries e).lba)
        (e :: bucket (ccHashIndex (cc.entries e).lba))) := by
  refine ccInv_iff.mpr ⟨(ccInv_iff.mp inv).1.insert e fresh inUse, ?_⟩
  intro other inside
  rcases mem_cons.mp inside with rfl | inside
  · exact holds
  · exact inv.holds other inside

theorem CcInv.moveFront (e : Slot) (member : e ∈ lru) :
    CcInv device (ccLruMoveFront cc e) (e :: lru.erase e) bucket := by
  refine ccInv_iff.mpr ⟨(ccInv_iff.mp inv).1.moveFront e member, ?_⟩
  intro other inside
  rcases mem_cons.mp inside with same | inside
  · rw [same]
    exact inv.holds e member
  · exact inv.holds other (mem_of_mem_erase inside)

theorem CcInv.victim :
    ∃ lru' bucket', CcInv device (ccVictim cc).2 lru' bucket' ∧
      ∀ e, (ccVictim cc).1 = some e → e ∉ lru' := by
  obtain ⟨lists, holds⟩ := ccInv_iff.mp inv
  obtain ⟨lru', bucket', kept, fewer, same, fresh⟩ := lists.victim
  refine ⟨lru', bucket', ccInv_iff.mpr ⟨kept, ?_⟩, fresh⟩
  intro e member
  rw [same]
  exact holds e (fewer member)

end Inv

theorem sameAnswer_refl (answer : NtStatus × Sector) : SameAnswer answer answer :=
  ⟨rfl, fun _ => rfl⟩

/-- Reading into a slot that is on neither list. After a failure the slot stays
off the lists, after a success it is on both. -/
theorem CcInv.fill (inv : CcInv device cc lru bucket) (victim : Slot)
    (fresh : victim ∉ lru) (lba : UInt64) (buffer : Sector) :
    SameAnswer (underlyingRead device lba buffer) (ccFill device cc victim lba buffer).1 ∧
      ∃ lru' bucket', CcInv device (ccFill device cc victim lba buffer).2 lru' bucket' := by
  have elsewhere : ∀ (entry : CcEntry) (e : Slot), e ∈ lru →
      update cc.entries victim entry e = cc.entries e := by
    intro entry e member
    apply update_of_ne
    intro same
    exact fresh (same ▸ member)
  have kept : ∀ entry, CcInv device
      { cc with entries := update cc.entries victim entry } lru bucket := by
    intro entry
    apply inv.entries _ cc.misses cc.evictions cc.hits
    intro e member
    rw [elsewhere entry e member]
    exact ⟨rfl, rfl, rfl⟩
  cases result : device.read lba with
  | ok bytes =>
    have stored := (kept ⟨lba, bytes, 1, false⟩).insert victim fresh
      (by simpa using result) (by simp)
    have accepted : ntSuccess statusSuccess = true := by decide
    simp only [ccFill, underlyingRead, result, accepted, ↓reduceIte]
    exact ⟨sameAnswer_refl _, _, _, stored⟩
  | error status =>
    have refused := status.property
    simp only [ccFill, underlyingRead, result, refused, Bool.false_eq_true, ↓reduceIte]
    refine ⟨⟨rfl, ?_⟩, _, _, kept _⟩
    intro accepted
    rw [refused] at accepted
    cases accepted

/-- A read keeps the lists and answers as the device. -/
theorem CcInv.read (inv : CcInv device cc lru bucket) (lba : UInt64) (buffer : Sector) :
    ∃ answer cc' lru' bucket', ccReadSector device cc lba buffer = some (answer, cc') ∧
      SameAnswer (underlyingRead device lba buffer) answer ∧
      CcInv device cc' lru' bucket' := by
  obtain ⟨found, walk, known, _⟩ := (ccInv_iff.mp inv).1.find lba
  unfold ccReadSector
  rw [if_neg (by simp [inv.started]), walk]
  cases found with
  | some e =>
    obtain ⟨member, here⟩ := known e rfl
    have content := inv.holds e member
    rw [here] at content
    have counted := inv.entries cc.entries cc.misses cc.evictions ((cc.hits + 1) % 2 ^ 32)
      (fun _ _ => ⟨rfl, rfl, rfl⟩)
    refine ⟨_, _, _, _, rfl, ?_, counted.moveFront e member⟩
    simp only [underlyingRead, content]
    exact sameAnswer_refl _
  | none =>
    have counted := inv.entries cc.entries ((cc.misses + 1) % 2 ^ 32) cc.evictions cc.hits
      (fun _ _ => ⟨rfl, rfl, rfl⟩)
    obtain ⟨lru', bucket', kept, fresh⟩ := counted.victim
    dsimp only
    split
    · rename_i missed none
      rw [none] at kept
      exact ⟨_, _, _, _, rfl, sameAnswer_refl _, kept⟩
    · rename_i victim missed some
      rw [some] at kept fresh
      obtain ⟨same, filled⟩ := kept.fill victim (fresh victim rfl) lba buffer
      obtain ⟨lru'', bucket'', after⟩ := filled
      exact ⟨_, _, _, _, rfl, same, after⟩

end Device

/-- Every run answers as the device does. -/
theorem ccRun_sameAnswers (device : Device) (calls : List CcCall) :
    ∀ (cc : CcState) (lru : List Slot) (bucket : Fin ccHashSize → List Slot),
      CcInv device cc lru bucket →
      ∃ answers cc', ccRun device cc calls = some (answers, cc') ∧
        List.Forall₂ SameAnswer (directRun device calls) answers := by
  induction calls with
  | nil =>
    intro cc lru bucket inv
    exact ⟨[], cc, rfl, .nil⟩
  | cons call calls ih =>
    intro cc lru bucket inv
    cases call with
    | readSector lba buffer =>
      obtain ⟨answer, after, lru', bucket', done, same, kept⟩ := inv.read lba buffer
      obtain ⟨answers, last, rest, agree⟩ := ih after lru' bucket' kept
      refine ⟨answer :: answers, last, ?_, .cons same agree⟩
      simp only [ccRun, done, Option.bind_some, rest, Option.map_some]
    | flushAll =>
      have kept := inv.entries (fun i => { cc.entries i with dirty := false }) cc.misses
        cc.evictions cc.hits (fun _ _ => ⟨rfl, rfl, rfl⟩)
      have flushed : ccFlushAll cc =
          { cc with entries := fun i => { cc.entries i with dirty := false } } := by
        simp only [ccFlushAll, inv.started, not_true_eq_false, ↓reduceIte]
      rw [ccRun, flushed]
      exact ih _ lru bucket kept
    | invalidate =>
      have cleared : ccInvalidate cc = ccClear cc := by
        simp only [ccInvalidate, inv.started, not_true_eq_false, ↓reduceIte]
      rw [ccRun, cleared]
      exact ih _ _ _ (ccInv_clear device cc inv.started)

/-- After `CcInitSystem` every sequence of calls returns, and each read answers
as the device would: the same status, and after a success the same bytes. -/
theorem sectorCache_transparent (device : Device) (statics : CcState) (calls : List CcCall) :
    ∃ answers cc, ccRun device (ccInitSystem statics) calls = some (answers, cc) ∧
      List.Forall₂ SameAnswer (directRun device calls) answers :=
  ccRun_sameAnswers device calls _ _ _
    ((ccInv_clear device { statics with init := true } rfl).entries _ 0 0 0
      (fun _ _ => ⟨rfl, rfl, rfl⟩))

end MinNT.Cc
