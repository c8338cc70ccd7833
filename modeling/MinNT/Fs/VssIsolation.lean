import MinNT.Fs.Vss

/-! The snapshots of `fs/vss.c` while every difference goes to a slot of its own. -/

namespace MinNT.Fs.Vss

open List Function History VssCall ByteMemory Transition

section Records

variable {diffs after : ByteMemory} {slot : Nat}

theorem RecordedDiff.Matches.congr {recorded : RecordedDiff}
    (matched : recorded.Matches (diffAt diffs slot))
    (same : SameInside diffs after (slot * sizeofDiff) (slot * sizeofDiff + offsetofInUse)) :
    recorded.Matches (diffAt after slot) := by
  have word : ∀ offset, offset + 4 ≤ offsetofInUse →
      load after 4 (slot * sizeofDiff + offset) = load diffs 4 (slot * sizeofDiff + offset) := by
    intro offset inside
    apply same.load_eq (Nat.le_add_right _ _)
    omega
  have data : read after (slot * sizeofDiff + offsetofOldData) 256 =
      read diffs (slot * sizeofDiff + offsetofOldData) 256 := by
    apply read_congr
    intro index lower upper
    unfold offsetofOldData at lower upper
    apply same index
    · omega
    · unfold offsetofInUse
      omega
  unfold RecordedDiff.Matches diffAt at matched ⊢
  dsimp only at matched ⊢
  rw [word offsetofFileId (by decide), word offsetofOffset (by decide),
    word offsetofLength (by decide), data]
  exact matched

theorem freeDiffs_sameInside (slot count k : Nat) (diffs : ByteMemory) :
    SameInside diffs (freeDiffs count k diffs) (slot * sizeofDiff)
      (slot * sizeofDiff + offsetofInUse) := by
  induction count generalizing k diffs with
  | zero => exact fun _ _ _ => rfl
  | succ count ih =>
    intro index lower upper
    rw [freeDiffs, ih (k + 1) _ index lower upper]
    split
    · apply store_sameOutside _ _ _ _ _ _ (Nat.le_refl _) (Nat.le_refl _) index
      unfold sizeofDiff offsetofInUse at *
      omega
    · rfl

variable {fileId offset length : Nat} {oldData : Option ByteMemory}

theorem storeDiff_sameOutside (fits : oldData.isSome → length ≤ 256) :
    SameOutside diffs (storeDiff diffs slot fileId offset oldData length) (slot * sizeofDiff)
      (slot * sizeofDiff + sizeofDiff) := by
  have field : ∀ memory width start value, start + width ≤ sizeofDiff →
      SameOutside memory (store memory width (slot * sizeofDiff + start) value)
        (slot * sizeofDiff) (slot * sizeofDiff + sizeofDiff) := by
    intro memory width start value inside
    apply store_sameOutside
    · omega
    · omega
  have fixed := (((field diffs 1 offsetofInUse 1 (by decide)).trans
    (field _ 4 offsetofFileId fileId (by decide))).trans
    (field _ 4 offsetofOffset offset (by decide))).trans
    (field _ 4 offsetofLength length (by decide))
  unfold storeDiff
  cases oldData with
  | none => exact fixed
  | some source =>
    have short := fits rfl
    apply fixed.trans
    apply write_sameOutside
    · omega
    · rw [read_length]
      unfold offsetofOldData sizeofDiff
      omega

/-- A stored difference is the one that was recorded. -/
theorem storeDiff_matches (fileId offset length : BitVec 32)
    (fits : oldData.isSome → length.toNat ≤ 256) :
    RecordedDiff.Matches ⟨fileId, offset, length,
      oldData.map fun source => read source 0 length.toNat⟩
      (diffAt (storeDiff diffs slot fileId.toNat offset.toNat oldData length.toNat) slot) := by
  -- the old data lies behind the fields
  have fields : ∃ memory,
      (load memory 4 (slot * sizeofDiff + offsetofFileId) = fileId.toNat ∧
        load memory 4 (slot * sizeofDiff + offsetofOffset) = offset.toNat ∧
        load memory 4 (slot * sizeofDiff + offsetofLength) = length.toNat) ∧
      storeDiff diffs slot fileId.toNat offset.toNat oldData length.toNat =
        oldData.elim memory fun source =>
          write memory (slot * sizeofDiff + offsetofOldData) (read source 0 length.toNat) := by
    refine ⟨storeDiff diffs slot fileId.toNat offset.toNat none length.toNat, ?_, ?_⟩
    · have word : ∀ value : BitVec 32, value.toNat % 256 ^ 4 = value.toNat :=
        fun value => Nat.mod_eq_of_lt value.isLt
      unfold storeDiff offsetofFileId offsetofOffset offsetofLength
      dsimp only
      refine ⟨?_, ?_, ?_⟩
      · rw [load_store_disjoint _ _ _ _ _ _ (by omega),
          load_store_disjoint _ _ _ _ _ _ (by omega), load_store_same, word]
      · rw [load_store_disjoint _ _ _ _ _ _ (by omega), load_store_same, word]
      · rw [load_store_same, word]
    · cases oldData <;> rfl
  obtain ⟨memory, ⟨isFile, isOffset, isLength⟩, stored⟩ := fields
  rw [stored]
  unfold RecordedDiff.Matches diffAt
  dsimp only
  cases oldData with
  | none => exact ⟨isFile, isOffset, isLength, fun data absent => by cases absent⟩
  | some source =>
    have short := fits rfl
    have below : ∀ start, start + 4 ≤ offsetofOldData →
        load (write memory (slot * sizeofDiff + offsetofOldData) (read source 0 length.toNat)) 4
          (slot * sizeofDiff + start) = load memory 4 (slot * sizeofDiff + start) := by
      intro start inside
      rw [load, read_write_disjoint _ _ _ _ _ (by omega), load]
    rw [Option.elim_some, below offsetofFileId (by decide), below offsetofOffset (by decide),
      below offsetofLength (by decide)]
    refine ⟨isFile, isOffset, isLength, ?_⟩
    intro data member
    cases member
    have split : 256 = length.toNat + (256 - length.toNat) := by omega
    have whole := read_write_same memory (slot * sizeofDiff + offsetofOldData)
      (read source 0 length.toNat)
    rw [read_length] at whole
    rw [split, read_append, whole, take_left' (read_length _ _ _)]

end Records

/-- A snapshot's differences are what was recorded for it. -/
structure VssSnapshot.Right (snapshot : VssSnapshot) (diffs : ByteMemory)
    (recorded : Nat → List RecordedDiff) : Prop where
  bounded : snapshot.diffStart + snapshot.diffCount ≤ vssMaxDiffs
  unused : snapshot.inUse = false → snapshot.diffCount = 0
  length : snapshot.inUse = true → (recorded snapshot.id).length = snapshot.diffCount
  matched : snapshot.inUse = true → ∀ k (record : RecordedDiff),
    (recorded snapshot.id)[k]? = some record →
    record.Matches (diffAt diffs (snapshot.diffStart + k))

/-- The snapshots in use have different identifiers and no slot in common, and each has what was
recorded for it. -/
structure History.Isolated (history : History) : Prop where
  distinct : ∀ i < vssMaxSnapshots, ∀ j < vssMaxSnapshots,
    (history.volumes.snapshots i).inUse = true → (history.volumes.snapshots j).inUse = true →
    (history.volumes.snapshots i).id = (history.volumes.snapshots j).id → i = j
  apart : ∀ i < vssMaxSnapshots, ∀ j < vssMaxSnapshots, i ≠ j → ∀ slot,
    (history.volumes.snapshots i).Has slot → ¬ (history.volumes.snapshots j).Has slot
  right : ∀ i < vssMaxSnapshots,
    (history.volumes.snapshots i).Right history.volumes.diffs history.recorded

theorem findSnapshot_some {volumes : Volumes} {snapshotId i : Nat}
    (found : findSnapshot volumes snapshotId = some i) :
    i < vssMaxSnapshots ∧ (volumes.snapshots i).inUse = true ∧
      (volumes.snapshots i).id = snapshotId := by
  have member := mem_range.mp (mem_of_find?_eq_some found)
  have here := find?_some found
  rw [Bool.and_eq_true, beq_iff_eq] at here
  exact ⟨member, here⟩

variable {snapshot : VssSnapshot} {history : History}

theorem VssSnapshot.Right.frame {diffs after : ByteMemory}
    {recorded recorded' : Nat → List RecordedDiff} (right : snapshot.Right diffs recorded)
    (sameRecorded : snapshot.inUse = true → recorded' snapshot.id = recorded snapshot.id)
    (same : ∀ slot, snapshot.Has slot →
      SameInside diffs after (slot * sizeofDiff) (slot * sizeofDiff + offsetofInUse)) :
    snapshot.Right after recorded' where
  bounded := right.bounded
  unused := right.unused
  length := by
    intro inUse
    rw [sameRecorded inUse]
    exact right.length inUse
  matched := by
    intro inUse k record listed
    rw [sameRecorded inUse] at listed
    have count := right.length inUse
    have inside := (List.getElem?_eq_some_iff.mp listed).1
    apply (right.matched inUse k record listed).congr
    apply same
    exact ⟨inUse, by omega, by omega⟩

/-- One more difference is recorded behind the others. -/
theorem VssSnapshot.Right.append {diffs after : ByteMemory} {recorded : Nat → List RecordedDiff}
    {snapshotId : Nat} {record : RecordedDiff} (right : snapshot.Right diffs recorded)
    (inUse : snapshot.inUse = true) (isId : snapshot.id = snapshotId)
    (room : snapshot.diffStart + snapshot.diffCount < vssMaxDiffs)
    (kept : ∀ slot, slot ≠ snapshot.diffStart + snapshot.diffCount →
      SameInside diffs after (slot * sizeofDiff) (slot * sizeofDiff + offsetofInUse))
    (stored : record.Matches (diffAt after (snapshot.diffStart + snapshot.diffCount))) :
    ({ snapshot with diffCount := snapshot.diffCount + 1 } : VssSnapshot).Right after
      (Function.update recorded snapshotId (recorded snapshotId ++ [record])) := by
  subst isId
  have count := right.length inUse
  constructor
  · exact room
  · exact fun unused => absurd (inUse.symm.trans unused) (by decide)
  · intro _
    rw [update_self, length_append, count]
    rfl
  · intro _ k other listed
    dsimp only at listed ⊢
    rw [update_self] at listed
    by_cases earlier : k < (recorded snapshot.id).length
    · rw [getElem?_append_left earlier] at listed
      apply (right.matched inUse k other listed).congr
      apply kept
      omega
    · have last := (List.getElem?_eq_some_iff.mp listed).1
      rw [length_append, length_singleton] at last
      have here : k = snapshot.diffCount := by omega
      rw [getElem?_append_right (by omega), count, here, Nat.sub_self] at listed
      cases listed
      rw [here]
      exact stored

/-- A change of one snapshot leaves the others isolated. -/
theorem History.Isolated.update (isolated : history.Isolated) {i : Nat} {diffs : ByteMemory}
    {recorded : Nat → List RecordedDiff}
    (nextSnapshotId : Nat) (right : snapshot.Right diffs recorded)
    (others : ∀ j < vssMaxSnapshots, j ≠ i → (history.volumes.snapshots j).inUse = true →
      (snapshot.inUse = true → snapshot.id ≠ (history.volumes.snapshots j).id) ∧
      recorded (history.volumes.snapshots j).id =
        history.recorded (history.volumes.snapshots j).id)
    (apart : ∀ j < vssMaxSnapshots, j ≠ i → ∀ slot, (history.volumes.snapshots j).Has slot →
      ¬ snapshot.Has slot ∧ SameInside history.volumes.diffs diffs (slot * sizeofDiff)
        (slot * sizeofDiff + offsetofInUse)) :
    (⟨⟨Function.update history.volumes.snapshots i snapshot, diffs, nextSnapshotId⟩, recorded⟩ :
      History).Isolated where
  distinct := by
    intro j inside k inside' inUse inUse' same
    dsimp only at inUse inUse' same
    by_cases first : j = i
    · by_cases second : k = i
      · rw [first, second]
      · rw [first, update_self] at inUse same
        rw [update_of_ne second] at inUse' same
        exact absurd same ((others k inside' second inUse').1 inUse)
    · rw [update_of_ne first] at inUse same
      by_cases second : k = i
      · rw [second, update_self] at inUse' same
        exact absurd same.symm ((others j inside first inUse).1 inUse')
      · rw [update_of_ne second] at inUse' same
        exact isolated.distinct j inside k inside' inUse inUse' same
  apart := by
    intro j inside k inside' different slot has has'
    dsimp only at has has'
    by_cases first : j = i
    · have second : k ≠ i := fun same => different (first.trans same.symm)
      rw [first, update_self] at has
      rw [update_of_ne second] at has'
      exact (apart k inside' second slot has').1 has
    · rw [update_of_ne first] at has
      by_cases second : k = i
      · rw [second, update_self] at has'
        exact (apart j inside first slot has).1 has'
      · rw [update_of_ne second] at has'
        exact isolated.apart j inside k inside' different slot has has'
  right := by
    intro j inside
    dsimp only
    by_cases here : j = i
    · rw [here, update_self]
      exact right
    · rw [update_of_ne here]
      apply (isolated.right j inside).frame
      · exact fun inUse => (others j inside here inUse).2
      · exact fun slot has => (apart j inside here slot has).2

theorem History.start_isolated : start.Isolated where
  distinct := fun _ _ _ _ inUse => absurd inUse Bool.false_ne_true
  apart := fun _ _ _ _ _ _ has => absurd has.1 Bool.false_ne_true
  right := fun _ _ =>
    { bounded := Nat.zero_le vssMaxDiffs
      unused := fun _ => rfl
      length := fun inUse => absurd inUse Bool.false_ne_true
      matched := fun inUse => absurd inUse Bool.false_ne_true }

theorem vssRecordDiff_cases (volumes : Volumes) (snapshotId : Nat) (fileId offset : BitVec 32)
    (oldData : Option ByteMemory) (length : BitVec 32) :
    (vssRecordDiff volumes snapshotId fileId offset oldData length).1 ≠ statusSuccess ∧
        (vssRecordDiff volumes snapshotId fileId offset oldData length).2 = volumes ∨
      ∃ i, findSnapshot volumes snapshotId = some i ∧ length.toNat ≤ sizeofDiff ∧
        volumes.nextSlot i < vssMaxDiffs ∧
        vssRecordDiff volumes snapshotId fileId offset oldData length =
          (statusSuccess,
            { volumes with
              snapshots := Function.update volumes.snapshots i
                { volumes.snapshots i with
                  diffCount := ((volumes.snapshots i).diffCount + 1) % 2 ^ 32 }
              diffs := storeDiff volumes.diffs (volumes.nextSlot i) fileId.toNat offset.toNat
                oldData length.toNat }) := by
  unfold vssRecordDiff
  by_cases long : length.toNat > sizeofDiff
  · rw [if_pos long]
    exact .inl ⟨show statusInvalidParameter ≠ statusSuccess by decide, rfl⟩
  rw [if_neg long]
  cases found : findSnapshot volumes snapshotId with
  | none => exact .inl ⟨show statusNotFound ≠ statusSuccess by decide, rfl⟩
  | some i =>
    dsimp only
    by_cases full : volumes.nextSlot i ≥ vssMaxDiffs
    · unfold Volumes.nextSlot at full
      rw [if_pos full]
      exact .inl ⟨show statusNoMemory ≠ statusSuccess by decide, rfl⟩
    · apply Or.inr
      refine ⟨i, rfl, by omega, by omega, ?_⟩
      unfold Volumes.nextSlot at full ⊢
      rw [if_neg full]

section Calls

variable {history : History} (isolated : history.Isolated)
include isolated

theorem History.Isolated.other {snapshotId i : Nat}
    (found : findSnapshot history.volumes snapshotId = some i) {j : Nat}
    (inside : j < vssMaxSnapshots) (different : j ≠ i)
    (inUse : (history.volumes.snapshots j).inUse = true) :
    (history.volumes.snapshots i).id ≠ (history.volumes.snapshots j).id := by
  have here := findSnapshot_some found
  intro same
  exact different (isolated.distinct j inside i here.1 inUse here.2.1 same.symm)

theorem History.Isolated.otherRecorded {snapshotId i : Nat}
    (found : findSnapshot history.volumes snapshotId = some i) {recorded : List RecordedDiff}
    {j : Nat} (inside : j < vssMaxSnapshots) (different : j ≠ i)
    (inUse : (history.volumes.snapshots j).inUse = true) :
    Function.update history.recorded snapshotId recorded (history.volumes.snapshots j).id =
      history.recorded (history.volumes.snapshots j).id := by
  have apart := isolated.other found inside different inUse
  rw [(findSnapshot_some found).2.2] at apart
  exact update_of_ne apart.symm _ _

/-- A new snapshot that meets the condition is isolated like the others. -/
theorem History.Isolated.create {volume : Option (Nat → UInt8)} {outSnapshotId : Bool}
    {timestamp : Nat} (respects : (create volume outSnapshotId timestamp).Respects history) :
    ((create volume outSnapshotId timestamp).run history).Isolated := by
  rw [VssCall.Respects] at respects
  rw [run]
  unfold vssCreateSnapshot
  cases volume with
  | none => exact isolated
  | some volume =>
  dsimp only
  cases outSnapshotId with
  | false => exact isolated
  | true =>
  rw [if_neg (by decide)]
  cases found : (List.range vssMaxSnapshots).find? fun i =>
      !(history.volumes.snapshots i).inUse with
  | none => exact isolated
  | some i =>
    have inside := mem_range.mp (mem_of_find?_eq_some found)
    have free : (history.volumes.snapshots i).inUse = false := by
      simpa using find?_some found
    have noCount := (isolated.right i inside).unused free
    have count : ∀ slot : Option Nat,
        (if slot.isSome then 0 else (history.volumes.snapshots i).diffCount) = 0 := by
      intro slot
      rw [noCount, ite_self]
    dsimp only
    apply isolated.update
    · constructor
      · dsimp only
        rw [count]
        cases start : (List.range vssMaxDiffs).find? fun j =>
            !diffInUse history.volumes.diffs j with
        | none =>
          have bound := (isolated.right i inside).bounded
          rw [Option.getD_none]
          omega
        | some j =>
          have bound := mem_range.mp (mem_of_find?_eq_some start)
          rw [Option.getD_some]
          omega
      · exact fun unused => absurd unused (by simp)
      · intro _
        rw [update_self, count]
        rfl
      · intro _ k record listed
        rw [update_self] at listed
        cases listed
    · intro j bound _ inUse
      have fresh := respects j bound inUse
      refine ⟨fun _ same => fresh same.symm, ?_⟩
      rw [update_of_ne fresh]
    · intro j _ _ slot _
      refine ⟨?_, fun _ _ _ => rfl⟩
      intro has
      have range := has.2
      dsimp only at range
      rw [count] at range
      omega

theorem History.Isolated.nextSlot {i : Nat} (inside : i < vssMaxSnapshots) :
    history.volumes.nextSlot i =
      (history.volumes.snapshots i).diffStart + (history.volumes.snapshots i).diffCount := by
  have bound := (isolated.right i inside).bounded
  unfold vssMaxDiffs at bound
  unfold Volumes.nextSlot
  omega

/-- So it stays when a difference that meets the condition is recorded. -/
theorem History.Isolated.record {snapshotId : Nat} {fileId offset : BitVec 32}
    {oldData : Option ByteMemory} {length : BitVec 32}
    (respects : (record snapshotId fileId offset oldData length).Respects history) :
    ((record snapshotId fileId offset oldData length).run history).Isolated := by
  rw [VssCall.Respects] at respects
  rw [run]
  rcases vssRecordDiff_cases history.volumes snapshotId fileId offset oldData length with
    refused | ⟨i, found, long, full, done⟩
  · rw [if_neg refused.1, refused.2]
    exact isolated
  obtain ⟨inside, inUse, isId⟩ := findSnapshot_some found
  obtain ⟨fits, own⟩ := respects i found long full
  have isNext := isolated.nextSlot inside
  have small : ((history.volumes.snapshots i).diffCount + 1) % 2 ^ 32 =
      (history.volumes.snapshots i).diffCount + 1 := by
    unfold vssMaxDiffs at full
    omega
  have outside : SameOutside history.volumes.diffs _ _ _ :=
    @storeDiff_sameOutside _ (history.volumes.nextSlot i) fileId.toNat offset.toNat _ _ fits
  -- a record in another slot is left alone
  have kept : ∀ slot, slot ≠ history.volumes.nextSlot i →
      SameInside history.volumes.diffs
        (storeDiff history.volumes.diffs (history.volumes.nextSlot i) fileId.toNat
          offset.toNat oldData length.toNat)
        (slot * sizeofDiff) (slot * sizeofDiff + offsetofInUse) := by
    intro slot different
    apply outside.sameInside
    unfold sizeofDiff offsetofInUse
    omega
  rw [done]
  dsimp only
  rw [if_pos rfl, small]
  apply isolated.update
  · rw [isNext] at full kept ⊢
    exact (isolated.right i inside).append inUse isId full kept
      (storeDiff_matches fileId offset length fits)
  · intro j bound different inUse'
    exact ⟨fun _ => isolated.other found bound different inUse',
      isolated.otherRecorded found bound different inUse'⟩
  · intro j bound different slot has
    have elsewhere : slot ≠ history.volumes.nextSlot i := by
      intro same
      exact own j bound different (same ▸ has)
    refine ⟨?_, kept slot elsewhere⟩
    intro has'
    apply isolated.apart i inside j bound different.symm slot _ has
    have range := has'.2
    dsimp only at range
    exact ⟨inUse, range.1, by omega⟩

theorem History.Isolated.restore {snapshotId : Nat} :
    ((restore snapshotId).run history).Isolated := by
  rw [run]
  unfold vssRestoreSnapshot
  cases found : findSnapshot history.volumes snapshotId with
  | none => exact isolated
  | some i =>
    obtain ⟨inside, inUse, isId⟩ := findSnapshot_some found
    have bound := (isolated.right i inside).bounded
    dsimp only
    rw [if_pos rfl]
    apply isolated.update
    · constructor
      · dsimp only
        omega
      · exact fun _ => rfl
      · intro _
        dsimp only
        rw [isId, update_self]
        rfl
      · intro _ k record listed
        dsimp only at listed
        rw [isId, update_self] at listed
        cases listed
    · intro j bound' different inUse'
      exact ⟨fun _ => isolated.other found bound' different inUse',
        isolated.otherRecorded found bound' different inUse'⟩
    · intro j _ _ slot _
      refine ⟨?_, freeDiffs_sameInside slot _ _ _⟩
      intro has
      have range := has.2
      dsimp only at range
      omega

theorem History.Isolated.delete {snapshotId : Nat} :
    ((delete snapshotId).run history).Isolated := by
  rw [run]
  unfold vssDeleteSnapshot
  cases found : findSnapshot history.volumes snapshotId with
  | none => exact isolated
  | some i =>
    dsimp only
    rw [if_pos rfl]
    apply isolated.update
    · exact
        { bounded := by decide
          unused := fun _ => rfl
          length := fun inUse => absurd inUse Bool.false_ne_true
          matched := fun inUse => absurd inUse Bool.false_ne_true }
    · intro j bound' different inUse'
      exact ⟨fun inUse => absurd inUse Bool.false_ne_true,
        isolated.otherRecorded found bound' different inUse'⟩
    · intro j _ _ slot _
      exact ⟨fun has => absurd has.1 Bool.false_ne_true, freeDiffs_sameInside slot _ _ _⟩

theorem History.Isolated.run (call : VssCall) (respects : call.Respects history) :
    (call.run history).Isolated := by
  cases call with
  | create => exact isolated.create respects
  | record => exact isolated.record respects
  | restore => exact isolated.restore
  | delete => exact isolated.delete

end Calls

theorem copyDiffs_matches (diffs : ByteMemory) (diffStart avail : Nat) (k : Nat)
    (recorded : List RecordedDiff)
    (matched : ∀ m (record : RecordedDiff), recorded[m]? = some record →
      record.Matches (diffAt diffs (diffStart + (k + m)))) :
    List.Forall₂ RecordedDiff.Matches (recorded.take (avail / sizeofDiff - k))
      (copyDiffs diffs diffStart avail recorded.length k (k * sizeofDiff)) := by
  induction recorded generalizing k with
  | nil =>
    rw [take_nil]
    exact List.Forall₂.nil
  | cons record recorded ih =>
    rw [length_cons, copyDiffs]
    have next : k * sizeofDiff + sizeofDiff = (k + 1) * sizeofDiff := (Nat.succ_mul k _).symm
    by_cases fits : k * sizeofDiff + sizeofDiff ≤ avail
    · have room : k + 1 ≤ avail / sizeofDiff :=
        (Nat.le_div_iff_mul_le (by decide)).mpr (next ▸ fits)
      have rest : avail / sizeofDiff - k = (avail / sizeofDiff - (k + 1)) + 1 := by omega
      rw [if_pos fits, rest, take_succ_cons, next]
      apply List.Forall₂.cons
      · have first := matched 0 record rfl
        rwa [Nat.add_zero] at first
      · apply ih
        intro m other listed
        have later : k + 1 + m = k + (m + 1) := by omega
        rw [later]
        exact matched (m + 1) other listed
    · have noRoom : avail / sizeofDiff < k + 1 :=
        (Nat.div_lt_iff_lt_mul (by decide)).mpr (by omega)
      have none : avail / sizeofDiff - k = 0 := by omega
      rw [if_neg fits, none]
      exact List.Forall₂.nil

/-- Isolated snapshots hold exactly their differences. -/
theorem History.Isolated.exact (isolated : history.Isolated) : history.Exact := by
  intro i inside inUse avail
  cases found : findSnapshot history.volumes (history.volumes.snapshots i).id with
  | none =>
    have absent := find?_eq_none.mp found i (mem_range.mpr inside)
    simp [inUse] at absent
  | some j =>
    obtain ⟨inside', inUse', same⟩ := findSnapshot_some found
    have here := isolated.distinct j inside' i inside inUse' inUse same
    rw [here] at found
    have right := isolated.right i inside
    have copied := copyDiffs_matches history.volumes.diffs
      (history.volumes.snapshots i).diffStart avail 0
      (history.recorded (history.volumes.snapshots i).id)
      (fun m record listed => by
        rw [Nat.zero_add]
        exact right.matched inUse m record listed)
    rw [Nat.sub_zero, Nat.zero_mul, right.length inUse] at copied
    refine ⟨history.volumes.snapshots i, _, ?_, copied⟩
    unfold vssQuerySnapshot
    rw [found]
    rfl

theorem VssCall.Respects.staysInside {call : VssCall}
    (respects : call.Respects history) : call.StaysInside history := by
  cases call with
  | create => trivial
  | restore => trivial
  | delete => trivial
  | record snapshotId fileId offset oldData length =>
    intro i found
    rw [run]
    rcases vssRecordDiff_cases history.volumes snapshotId fileId offset oldData length with
      refused | ⟨j, found', long, full, done⟩
    · dsimp only
      rw [refused.2]
      exact fun _ _ => rfl
    · have same : j = i := Option.some.inj (found'.symm.trans found)
      subst same
      have fits := (respects j found' long full).1
      dsimp only
      rw [done]
      exact storeDiff_sameOutside fits

/-- Snapshots whose differences go to slots of their own, with at most 256 bytes of old data, are
reported as they were recorded, and nothing is written outside of a difference's record. -/
theorem snapshots_isolated {history : History}
    (run : Reaches (fun history call => some (run history call))
      (fun history call => call.Respects history) start history) :
    history.Exact ∧ ∀ call : VssCall, call.Respects history → call.StaysInside history := by
  have isolated : history.Isolated := by
    apply run.invariant start_isolated
    intro history call next isolated respects done
    cases done
    exact isolated.run call respects
  exact ⟨isolated.exact, fun _ respects => respects.staysInside⟩

/-- A name with one character. -/
def driveName : Nat → UInt8 := fun k => if k = 0 then 67 else 0

/-- The second snapshot is created when the first one has its difference. -/
def inTurn : History :=
  run (run (run (run start (.create (some driveName) true 0)) (.record 1 5 0 (some fun _ => 7) 16))
    (.create (some driveName) true 1)) (.record 2 6 0 none 16)

/-- Each snapshot has its difference before the next one is created. -/
theorem inTurn_isolated :
    inTurn.Exact ∧ ∀ call : VssCall, call.Respects inTurn → call.StaysInside inTurn := by
  have step : ∀ history (call : VssCall), call.Respects history →
      Reaches (fun history call => some (run history call))
        (fun history call => call.Respects history) start history →
      Reaches (fun history call => some (run history call))
        (fun history call => call.Respects history) start (run history call) :=
    fun _ _ respects run => run.step respects rfl
  apply snapshots_isolated
  unfold inTurn
  apply step
  · rw [VssCall.Respects]
    decide +kernel
  apply step
  · rw [VssCall.Respects]
    decide +kernel
  apply step
  · rw [VssCall.Respects]
    decide +kernel
  apply step
  · rw [VssCall.Respects]
    decide +kernel
  exact Reaches.start

/-- Both snapshots are created before either has a difference. -/
def atOnce : List VssCall :=
  [.create (some driveName) true 0, .create (some driveName) true 1,
    .record 1 5 0 (some fun _ => 7) 16, .record 2 6 0 (some fun _ => 8) 16]

/-- What the calls leave. -/
def shared : History := atOnce.foldl run start

theorem fileIds_of_matches {recorded : List RecordedDiff} {diffs : List VssDiff}
    (matched : List.Forall₂ RecordedDiff.Matches recorded diffs) :
    diffs.map VssDiff.fileId = recorded.map fun record => record.fileId.toNat := by
  induction matched with
  | nil => rfl
  | cons here _ ih => rw [map_cons, map_cons, here.1, ih]

/-- The first snapshot shows the difference of the second one. -/
theorem not_snapshots_isolated : ¬ ∀ history,
    Reaches (fun history call => some (run history call)) (fun _ _ => True) start
      history → history.Exact := by
  intro exact
  have run : Reaches (fun history call => some (run history call)) (fun _ _ => True) start shared :=
    reaches_of_runFrom (show runFrom _ start atOnce = some shared from rfl)
  have inUse : (shared.volumes.snapshots 0).inUse = true := by decide +kernel
  have recorded : ((shared.recorded (shared.volumes.snapshots 0).id).take
      (sizeofDiff / sizeofDiff)).map (fun record => record.fileId.toNat) = [5] := by
    decide +kernel
  have reported : (vssQuerySnapshot shared.volumes (shared.volumes.snapshots 0).id
      (some sizeofDiff)).2.2.map VssDiff.fileId = [6] := by
    decide +kernel
  obtain ⟨info, diffs, answer, matched⟩ := exact shared run 0 (by decide) inUse sizeofDiff
  rw [answer, fileIds_of_matches matched, recorded] at reported
  exact absurd reported (by decide)

end MinNT.Fs.Vss
