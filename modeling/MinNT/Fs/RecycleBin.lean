import MinNT.Lib.Transition
import MinNT.NtStatus

namespace MinNT.Recycle

open List

def maxRecycledEntries : Nat := 256
def maxPathLength : Nat := 256

/-- `RECYCLED_ENTRY`; the strings up to their null characters. -/
structure RecycledEntry where
  originalPath : List UInt16
  originalPathLen : Nat
  deletionTime : Nat
  fileSize : Nat
  storedName : List UInt8
  inUse : Bool
deriving DecidableEq, Repr

/-- After `RtlZeroMemory`. -/
def RecycledEntry.zero : RecycledEntry := ⟨[], 0, 0, 0, [], false⟩

structure RecycleBin where
  entries : List RecycledEntry
  count : Nat
  nextCounter : Nat
deriving DecidableEq, Repr

/-- `RecycleBinInit`, over the zeros of a static. -/
def recycleBinInit : RecycleBin := ⟨replicate maxRecycledEntries .zero, 0, 1⟩

def digit (n : Nat) : UInt8 := UInt8.ofNat (0x30 + n % 10)

/-- The digits that `NextStoredName` writes. -/
def nameDigits (n : Nat) : List UInt8 :=
  (if n ≥ 1000 then [digit (n / 1000)] else []) ++ (if n ≥ 100 then [digit (n / 100)] else []) ++
    (if n ≥ 10 then [digit (n / 10)] else []) ++ [digit n]

/-- `NextStoredName`, for the counter `n`: `R<NNNN>.dat`. -/
def nextStoredName (n : Nat) : List UInt8 := 0x52 :: nameDigits n ++ [0x2E, 0x64, 0x61, 0x74]

def isFree (entry : RecycledEntry) : Bool := !entry.inUse

/-- The path that is stored for a deleted file. -/
def storedPath (path : List UInt16) : List UInt16 :=
  (path.takeWhile (· ≠ 0)).take (maxPathLength - 1)

def newEntry (path : List UInt16) (tick fileSize n : Nat) : RecycledEntry :=
  ⟨storedPath path, (storedPath path).length, tick, fileSize, nextStoredName n, true⟩

/-- `RecycleBinSend`, at `KeTickCount`. The counter goes on before the bin is looked at. -/
def recycleBinSend (bin : RecycleBin) (originalPath : Option (List UInt16)) (fileSize tick : Nat) :
    NtStatus × RecycleBin :=
  match originalPath with
  | none => (statusInvalidParameter, bin)
  | some path =>
      let nextCounter := (bin.nextCounter + 1) % 2 ^ 32
      match bin.entries.findIdx? isFree with
      | none => (statusDiskFull, ⟨bin.entries, bin.count, nextCounter⟩)
      | some i =>
          (statusSuccess, ⟨bin.entries.set i (newEntry path tick fileSize bin.nextCounter),
            (bin.count + 1) % 2 ^ 32, nextCounter⟩)

/-- `RecycleBinRestore` and `RecycleBinErase`, which leave the same. -/
def clearEntry (bin : RecycleBin) (index : Nat) : NtStatus × RecycleBin :=
  if index ≥ maxRecycledEntries ∨ (bin.entries.getD index .zero).inUse = false then
    (statusInvalidParameter, bin)
  else
    (statusSuccess, ⟨bin.entries.set index .zero, (bin.count + 2 ^ 32 - 1) % 2 ^ 32,
      bin.nextCounter⟩)

def recycleBinRestore (bin : RecycleBin) (index : Nat) : NtStatus × RecycleBin :=
  clearEntry bin index

def recycleBinErase (bin : RecycleBin) (index : Nat) : NtStatus × RecycleBin :=
  clearEntry bin index

def recycleBinEmpty (bin : RecycleBin) : NtStatus × RecycleBin :=
  (statusSuccess, ⟨bin.entries.map fun entry => if entry.inUse then .zero else entry, 0,
    bin.nextCounter⟩)

inductive Call where
  | send (originalPath : Option (List UInt16)) (fileSize tick : Nat)
  | restore (index : Nat)
  | erase (index : Nat)
  | empty

def call (bin : RecycleBin) : Call → NtStatus × RecycleBin
  | .send originalPath fileSize tick => recycleBinSend bin originalPath fileSize tick
  | .restore index => recycleBinRestore bin index
  | .erase index => recycleBinErase bin index
  | .empty => recycleBinEmpty bin

/-- The bin, and for each of its slots the counter under which the entry there was last stored. The
code keeps no such record. -/
structure History where
  bin : RecycleBin
  storedUnder : Nat → Nat

def historyInit : History := ⟨recycleBinInit, fun _ => 0⟩

/-- The record of a call: a send that finds a free slot stores under the counter that it takes. -/
def History.record (history : History) : Call → Nat → Nat
  | .send (some _) _ _ => fun slot =>
      if history.bin.entries.findIdx? isFree = some slot then history.bin.nextCounter
      else history.storedUnder slot
  | _ => history.storedUnder

def History.next (history : History) (made : Call) : Option History :=
  some ⟨(call history.bin made).2, history.record made⟩

/-- The counter values that are written in the same way: four digits are all there are. -/
def SameName (m n : Nat) : Prop := m = n ∨ 1000 ≤ m ∧ 1000 ≤ n ∧ m % 10000 = n % 10000

/-- A send takes a counter under whose name nothing in the bin is stored, or finds no slot. -/
def Fresh (history : History) : Call → Prop
  | .send (some _) _ _ => history.bin.entries.findIdx? isFree = none ∨
      ∀ slot entry, history.bin.entries[slot]? = some entry → entry.inUse = true →
        ¬ SameName (history.storedUnder slot) history.bin.nextCounter
  | _ => True

/-- The names of the entries in use are pairwise different. -/
def UniqueNames (bin : RecycleBin) : Prop :=
  ∀ (i j : Nat) (first second : RecycledEntry), i ≠ j →
    bin.entries[i]? = some first → bin.entries[j]? = some second →
    first.inUse = true → second.inUse = true → first.storedName ≠ second.storedName

/-- The entries in use have the names of the counters under which they were stored. -/
def Recorded (history : History) : Prop :=
  ∀ slot entry, history.bin.entries[slot]? = some entry → entry.inUse = true →
    entry.storedName = nextStoredName (history.storedUnder slot)

theorem digit_inj {m n : Nat} : digit m = digit n ↔ m % 10 = n % 10 := by
  unfold digit
  rw [← UInt8.toNat_inj, UInt8.toNat_ofNat', UInt8.toNat_ofNat']
  omega

theorem nameDigits_cases (n : Nat) :
    n < 10 ∧ nameDigits n = [digit n] ∨
      (10 ≤ n ∧ n < 100) ∧ nameDigits n = [digit (n / 10), digit n] ∨
      (100 ≤ n ∧ n < 1000) ∧ nameDigits n = [digit (n / 100), digit (n / 10), digit n] ∨
      1000 ≤ n ∧ nameDigits n = [digit (n / 1000), digit (n / 100), digit (n / 10), digit n] := by
  unfold nameDigits
  rcases Nat.lt_or_ge n 10 with less | tens
  · left
    rw [if_neg (by omega), if_neg (by omega), if_neg (by omega)]
    exact ⟨less, rfl⟩
  rcases Nat.lt_or_ge n 100 with less | hundreds
  · right; left
    rw [if_neg (by omega), if_neg (by omega), if_pos tens]
    exact ⟨⟨tens, less⟩, rfl⟩
  rcases Nat.lt_or_ge n 1000 with less | thousands
  · right; right; left
    rw [if_neg (by omega), if_pos hundreds, if_pos tens]
    exact ⟨⟨hundreds, less⟩, rfl⟩
  · right; right; right
    rw [if_pos thousands, if_pos hundreds, if_pos tens]
    exact ⟨thousands, rfl⟩

/-- Two counters are written in the same way exactly if they agree in the digits that are
written. -/
theorem nameDigits_inj {m n : Nat} : nameDigits m = nameDigits n ↔ SameName m n := by
  unfold SameName
  rcases nameDigits_cases m with ⟨low, left⟩ | ⟨low, left⟩ | ⟨low, left⟩ | ⟨low, left⟩ <;>
    rcases nameDigits_cases n with ⟨high, right⟩ | ⟨high, right⟩ | ⟨high, right⟩ | ⟨high, right⟩ <;>
    rw [left, right] <;>
    simp only [List.cons.injEq, digit_inj, reduceCtorEq, and_false, and_true, false_iff] <;>
    omega

theorem nextStoredName_inj {m n : Nat} : nextStoredName m = nextStoredName n ↔ SameName m n := by
  rw [← nameDigits_inj, nextStoredName, nextStoredName, append_left_inj, List.cons.injEq]
  simp only [true_and]

section Calls

variable {history later : History} {made : Call}

theorem call_entries (bin : RecycleBin) (made : Call) (slot : Nat) (entry : RecycledEntry)
    (here : (call bin made).2.entries[slot]? = some entry) (used : entry.inUse = true) :
    bin.entries[slot]? = some entry ∨
      ∃ path fileSize tick, made = .send (some path) fileSize tick ∧
        bin.entries.findIdx? isFree = some slot ∧
        entry = newEntry path tick fileSize bin.nextCounter := by
  have cleared : ∀ index, (clearEntry bin index).2.entries[slot]? = some entry →
      bin.entries[slot]? = some entry := by
    intro index there
    unfold clearEntry at there
    split at there
    · exact there
    · rw [getElem?_set] at there
      split at there
      · split at there
        · obtain rfl := Option.some.inj there
          exact absurd used (by decide)
        · cases there
      · exact there
  cases made with
  | restore index => exact .inl (cleared index here)
  | erase index => exact .inl (cleared index here)
  | empty =>
    left
    rw [call, recycleBinEmpty, getElem?_map, Option.map_eq_some_iff] at here
    obtain ⟨before, there, rfl⟩ := here
    split at used
    · exact absurd used (by decide)
    · rename_i unused
      rw [if_neg unused]
      exact there
  | send originalPath fileSize tick =>
    rw [call] at here
    cases originalPath with
    | none => exact .inl here
    | some path =>
      rw [recycleBinSend] at here
      cases free : bin.entries.findIdx? isFree with
      | none =>
        rw [free] at here
        exact .inl here
      | some i =>
        rw [free] at here
        rw [getElem?_set] at here
        split at here
        · rename_i same
          subst same
          split at here
          · right
            exact ⟨path, fileSize, tick, rfl, rfl, (Option.some.inj here).symm⟩
          · cases here
        · exact .inl here

/-- Every call keeps the record of the stored names. -/
theorem Recorded.next (recorded : Recorded history) (done : history.next made = some later) :
    Recorded later := by
  obtain rfl := Option.some.inj done
  intro slot entry here used
  dsimp only at here ⊢
  rcases call_entries history.bin made slot entry here used with
    before | ⟨path, fileSize, tick, rfl, free, rfl⟩
  · have name := recorded slot entry before used
    cases made with
    | restore index => exact name
    | erase index => exact name
    | empty => exact name
    | send originalPath fileSize tick =>
      cases originalPath with
      | none => exact name
      | some path =>
        simp only [History.record]
        by_cases free : history.bin.entries.findIdx? isFree = some slot
        · -- A free slot holds no entry in use.
          obtain ⟨inside, unused, _⟩ := findIdx?_eq_some_iff_getElem.mp free
          rw [getElem?_eq_getElem inside] at before
          obtain rfl := Option.some.inj before
          rw [isFree, used] at unused
          cases unused
        · rw [if_neg free]
          exact name
  · simp only [History.record]
    rw [if_pos free]
    rfl

/-- A call keeps the names unique exactly if its name is fresh. -/
theorem uniqueNames_next_iff (unique : UniqueNames history.bin) (recorded : Recorded history)
    (made : Call) : UniqueNames (call history.bin made).2 ↔ Fresh history made := by
  have clear : (∀ path fileSize tick, made ≠ .send (some path) fileSize tick) →
      UniqueNames (call history.bin made).2 := by
    intro other i j first second different left right leftUsed rightUsed
    rcases call_entries history.bin made i first left leftUsed with
      before | ⟨path, fileSize, tick, rfl, _⟩
    · rcases call_entries history.bin made j second right rightUsed with
        before' | ⟨path, fileSize, tick, rfl, _⟩
      · exact unique i j first second different before before' leftUsed rightUsed
      · exact absurd rfl (other path fileSize tick)
    · exact absurd rfl (other path fileSize tick)
  cases made with
  | restore index | erase index
  | empty => exact iff_of_true (clear (fun _ _ _ same => by cases same)) trivial
  | send originalPath fileSize tick =>
    cases originalPath with
    | none => exact iff_of_true (clear (fun _ _ _ same => by cases same)) trivial
    | some path =>
      rw [call, recycleBinSend, Fresh]
      cases free : history.bin.entries.findIdx? isFree with
      | none => exact iff_of_true unique (.inl rfl)
      | some i =>
        obtain ⟨inside, unused, _⟩ := findIdx?_eq_some_iff_getElem.mp free
        rw [or_iff_right (by simp)]
        constructor
        · intro after slot entry there used same
          have other : i ≠ slot := by
            rintro rfl
            rw [getElem?_eq_getElem inside] at there
            obtain rfl := Option.some.inj there
            rw [isFree, used] at unused
            cases unused
          have name := recorded slot entry there used
          apply after i slot (newEntry path tick fileSize history.bin.nextCounter) entry other
          · exact getElem?_set_self inside
          · rw [getElem?_set_ne other]
            exact there
          · rfl
          · exact used
          · rw [name]
            exact nextStoredName_inj.mpr
              (same.elim (fun equal => .inl equal.symm)
                (fun both => .inr ⟨both.2.1, both.1, both.2.2.symm⟩))
        · intro fresh
          have apart : ∀ (slot : Nat) (entry : RecycledEntry),
            history.bin.entries[slot]? = some entry →
              entry.inUse = true →
                nextStoredName history.bin.nextCounter ≠ entry.storedName := by
            intro slot entry there used same
            rw [recorded slot entry there used] at same
            exact fresh slot entry there used (nextStoredName_inj.mp same.symm)
          intro first second firstEntry secondEntry different left right leftUsed rightUsed
          rw [getElem?_set] at left right
          by_cases atFirst : i = first
          · rw [if_pos atFirst, if_pos inside] at left
            rw [if_neg (by rw [atFirst]; exact different)] at right
            obtain rfl := Option.some.inj left
            exact apart second secondEntry right rightUsed
          · rw [if_neg atFirst] at left
            by_cases atSecond : i = second
            · rw [if_pos atSecond, if_pos inside] at right
              obtain rfl := Option.some.inj right
              exact (apart first firstEntry left leftUsed).symm
            · rw [if_neg atSecond] at right
              exact unique first second firstEntry secondEntry different left right leftUsed
                rightUsed

end Calls

theorem historyInit_unique : UniqueNames historyInit.bin := by
  intro i j first second _ left _ used
  have zero := eq_of_mem_replicate (mem_of_getElem? left)
  rw [zero] at used
  exact absurd used (by decide)

theorem historyInit_recorded : Recorded historyInit := by
  intro slot entry here used
  have zero := eq_of_mem_replicate (mem_of_getElem? here)
  rw [zero] at used
  exact absurd used (by decide)

theorem reaches_unique {history : History}
    (run : Transition.Reaches History.next Fresh historyInit history) :
    UniqueNames history.bin ∧ Recorded history := by
  apply run.invariant
  · exact ⟨historyInit_unique, historyInit_recorded⟩
  · rintro state made next ⟨unique, recorded⟩ fresh done
    refine ⟨?_, recorded.next done⟩
    obtain rfl := Option.some.inj done
    exact (uniqueNames_next_iff unique recorded made).mpr fresh

section Early

variable {history : History}

section Early

variable (early : ∀ slot, history.storedUnder slot < history.bin.nextCounter)
include early

/-- Below 1000 a counter that is ahead of all that are recorded has a new name. -/
theorem fresh_of_early
    (few : history.bin.nextCounter < 1000) (made : Call) : Fresh history made := by
  cases made with
  | send originalPath fileSize tick =>
    cases originalPath with
    | none => trivial
    | some path =>
      right
      rintro slot entry _ _ (same | both)
      · exact absurd same (Nat.ne_of_lt (early slot))
      · omega
  | restore index => trivial
  | erase index => trivial
  | empty => trivial

theorem early_next (few : history.bin.nextCounter < 1000) (made : Call) :
    (call history.bin made).2.nextCounter ≤ history.bin.nextCounter + 1 ∧
      ∀ slot, history.record made slot < (call history.bin made).2.nextCounter := by
  have cleared : ∀ index, (clearEntry history.bin index).2.nextCounter =
      history.bin.nextCounter := by
    intro index
    unfold clearEntry
    split <;> rfl
  cases made with
  | restore index =>
    rw [call, recycleBinRestore, cleared]
    exact ⟨Nat.le_succ _, early⟩
  | erase index =>
    rw [call, recycleBinErase, cleared]
    exact ⟨Nat.le_succ _, early⟩
  | empty => exact ⟨Nat.le_succ _, early⟩
  | send originalPath fileSize tick =>
    cases originalPath with
    | none => exact ⟨Nat.le_succ _, early⟩
    | some path =>
      have counter : (call history.bin (.send (some path) fileSize tick)).2.nextCounter =
          history.bin.nextCounter + 1 := by
        rw [call, recycleBinSend]
        split <;> exact Nat.mod_eq_of_lt (by omega)
      rw [counter]
      refine ⟨Nat.le_refl _, fun slot => ?_⟩
      have before := early slot
      simp only [History.record]
      split <;> omega

end Early

/-- The calls before the 999th never give a name a second time. -/
theorem reaches_early (calls : List Call) (few : calls.length < 999) :
    ∃ history, Transition.Reaches History.next Fresh historyInit history ∧
      history.bin = calls.foldl (fun bin made => (call bin made).2) recycleBinInit ∧
      history.bin.nextCounter ≤ calls.length + 1 ∧
      ∀ slot, history.storedUnder slot < history.bin.nextCounter := by
  induction calls using List.reverseRecOn with
  | nil => exact ⟨historyInit, .start, rfl, Nat.le_refl 1, fun _ => Nat.one_pos⟩
  | append_singleton calls made ih =>
    rw [length_append, length_singleton] at few
    obtain ⟨history, run, same, counted, early⟩ := ih (by omega)
    have next := early_next early (by omega) made
    refine ⟨_, .step run (fresh_of_early early (by omega) made) rfl, ?_, ?_, next.2⟩
    · rw [foldl_append, ← same]
      rfl
    · rw [length_append, length_singleton]
      exact Nat.le_trans next.1 (Nat.succ_le_succ counted)

end Early

/-- In every run of the calls in which each send takes a counter whose name is not in the bin, the
names stay different; and the first send that does not would end that. -/
theorem storedNames_unique (history : History)
    (run : Transition.Reaches History.next Fresh historyInit history) :
    UniqueNames history.bin ∧
      ∀ made, UniqueNames (call history.bin made).2 ↔ Fresh history made := by
  obtain ⟨unique, recorded⟩ := reaches_unique run
  exact ⟨unique, uniqueNames_next_iff unique recorded⟩

/-- Deletions with a restore and a purge between them. -/
def someCalls : List Call :=
  [.send (some [0x61]) 1 0, .send (some [0x62]) 2 1, .restore 0, .send (some [0x61]) 1 2,
    .send (some [0x63]) 3 3, .erase 1, .send none 0 4, .send (some [0x64]) 4 5]

theorem storedNames_unique_first :
    ∃ bin, bin = someCalls.foldl (fun bin made => (call bin made).2) recycleBinInit ∧
      UniqueNames bin ∧ bin.count = 3 ∧
      (bin.entries.take 3).map RecycledEntry.storedName =
        [nextStoredName 3, nextStoredName 5, nextStoredName 4] := by
  obtain ⟨history, run, same, _⟩ := reaches_early someCalls (by decide)
  refine ⟨history.bin, same, (storedNames_unique history run).1, ?_⟩
  rw [same]
  decide +kernel

section Repeat

variable {history : History} {slot : Nat}

theorem sendRestore (bin : RecycleBin) (free : bin.entries.findIdx? isFree = some slot)
    (zero : bin.entries[slot]? = some .zero) (inside : slot < maxRecycledEntries)
    (small : bin.count < 2 ^ 32) :
    (call (call bin (.send (some []) 0 0)).2 (.restore slot)).2 =
      ⟨bin.entries, bin.count, (bin.nextCounter + 1) % 2 ^ 32⟩ := by
  obtain ⟨place, value⟩ := List.getElem?_eq_some_iff.mp zero
  have sent : (call bin (.send (some []) 0 0)).2 =
      ⟨bin.entries.set slot (newEntry [] 0 0 bin.nextCounter), (bin.count + 1) % 2 ^ 32,
        (bin.nextCounter + 1) % 2 ^ 32⟩ := by
    rw [call, recycleBinSend, free]
  have used : ((bin.entries.set slot (newEntry [] 0 0 bin.nextCounter)).getD slot .zero).inUse =
      true := by
    rw [getD_eq_getElem?_getD, getElem?_set_self place]
    rfl
  have back : (bin.entries.set slot (newEntry [] 0 0 bin.nextCounter)).set slot .zero =
      bin.entries := by
    rw [set_set, ← value, set_getElem_self]
  have again : ((bin.count + 1) % 2 ^ 32 + 2 ^ 32 - 1) % 2 ^ 32 = bin.count := by omega
  have done : ¬ (slot ≥ maxRecycledEntries ∨
      ((bin.entries.set slot (newEntry [] 0 0 bin.nextCounter)).getD slot .zero).inUse = false) :=
    not_or.mpr ⟨Nat.not_le.mpr inside, by rw [used]; decide⟩
  rw [sent, call, recycleBinRestore, clearEntry, if_neg done, back, again]

theorem reaches_sendRestore {bin : RecycleBin} (free : bin.entries.findIdx? isFree = some slot)
    (zero : bin.entries[slot]? = some .zero) (inside : slot < maxRecycledEntries)
    (small : bin.count < 2 ^ 32)
    (run : Transition.Reaches History.next (fun _ _ => True) historyInit history)
    (held : history.bin = bin) (times : Nat) (room : bin.nextCounter + times < 2 ^ 32) :
    ∃ later, Transition.Reaches History.next (fun _ _ => True) historyInit later ∧
      later.bin = ⟨bin.entries, bin.count, bin.nextCounter + times⟩ := by
  induction times with
  | zero => exact ⟨history, run, held⟩
  | succ times ih =>
    obtain ⟨later, before, same⟩ := ih (by omega)
    have sent := @Transition.Reaches.step _ _ _ _ _ _ _ (.send (some []) 0 0) before trivial rfl
    have restored := @Transition.Reaches.step _ _ _ _ _ _ _ (.restore slot) sent trivial rfl
    refine ⟨_, restored, ?_⟩
    have back := sendRestore ⟨bin.entries, bin.count, bin.nextCounter + times⟩ free zero inside
      small
    rw [← same] at back
    refine back.trans ?_
    rw [same, Nat.mod_eq_of_lt (by dsimp only; omega), Nat.add_assoc]

end Repeat

/-- The bin that holds the entry of counter 1000 only. -/
def afterThousand : RecycleBin :=
  ⟨(replicate maxRecycledEntries .zero).set 0 (newEntry [] 0 0 1000), 1, 1001⟩

/-- 10000 deletions after the one with counter 1000, its name is given again. -/
theorem storedNames_repeat :
    ∃ history, Transition.Reaches History.next (fun _ _ => True) historyInit history ∧
      ¬ UniqueNames history.bin := by
  have evaluated : (recycleBinInit.entries.findIdx? isFree = some 0 ∧
      recycleBinInit.entries[0]? = some .zero) ∧
      (call ⟨recycleBinInit.entries, 0, 1000⟩ (.send (some []) 0 0)).2 = afterThousand ∧
      (afterThousand.entries.findIdx? isFree = some 1 ∧
        afterThousand.entries[1]? = some .zero) ∧
      (call ⟨afterThousand.entries, 1, 11000⟩ (.send (some []) 0 0)).2.entries.take 2 =
        [newEntry [] 0 0 1000, newEntry [] 0 0 11000] := by decide +kernel
  obtain ⟨⟨free, zero⟩, stored, ⟨free', zero'⟩, two⟩ := evaluated
  obtain ⟨atThousand, run, same⟩ := reaches_sendRestore free zero (by decide) (by decide) .start
    rfl 999 (by decide)
  have next := @Transition.Reaches.step _ _ _ _ _ _ _ (.send (some []) 0 0) run trivial rfl
  have held : (call atThousand.bin (.send (some []) 0 0)).2 = afterThousand := by
    rw [same]
    exact stored
  obtain ⟨later, run', same'⟩ := reaches_sendRestore free' zero' (by decide) (by decide) next held
    9999 (by decide)
  have last := @Transition.Reaches.step _ _ _ _ _ _ _ (.send (some []) 0 0) run' trivial rfl
  refine ⟨_, last, ?_⟩
  intro unique
  dsimp only at unique
  rw [same'] at unique
  have named : ∀ i, i < 2 →
      (call ⟨afterThousand.entries, 1, 11000⟩ (.send (some []) 0 0)).2.entries[i]? =
        [newEntry [] 0 0 1000, newEntry [] 0 0 11000][i]? := by
    intro i small
    rw [← two, getElem?_take_of_lt small]
  exact unique 0 1 _ _ (by decide) (named 0 (by decide)) (named 1 (by decide)) rfl rfl
    (nextStoredName_inj.mpr (.inr (by decide)))

end MinNT.Recycle
