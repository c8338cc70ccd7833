import Mathlib.Data.List.Basic
import MinNT.NtStatus

/-! Hard links in `fs/reparse.c`: a table of paths, each with the identifier of a file and a copy of
the file's link count. -/

namespace MinNT.Fs

open List

def hlinkMax : Nat := 256
def hlinkMaxPath : Nat := 260

/-- What a pointer to a path leads to. -/
abbrev PathPointer := Nat → UInt8

structure HardLink where
  path : List UInt8
  fileId : Nat
  linkCount : Nat
  inUse : Bool
deriving DecidableEq

/-- A record that is all zeros. -/
def zeroLink : HardLink := ⟨replicate hlinkMaxPath 0, 0, 0, false⟩

/-- The part of `ReparseInit` for hard links. -/
def reparseInit : List HardLink := replicate hlinkMax zeroLink

/-- The comparison of a path with a record's, from character `k` on. -/
def samePath (stored : List UInt8) (path : PathPointer) : Nat → Nat → Bool
  | 0, _ => true
  | remaining + 1, k =>
      if stored.getD k 0 ≠ path k then false
      else if path k = 0 then true
      else samePath stored path remaining (k + 1)

/-- The copy of a path into a record, from character `k` on. -/
def copyPath (path : PathPointer) : Nat → Nat → List UInt8 → List UInt8
  | 0, _, stored => stored
  | remaining + 1, k, stored =>
      if path k = 0 then stored.set k 0
      else copyPath path remaining (k + 1) (stored.set k (path k))

def HardLink.isAt (link : HardLink) (path : PathPointer) : Bool :=
  link.inUse && samePath link.path path hlinkMaxPath 0

/-- The loop over the records of a file that changes their link counts. -/
def adjustCounts (fileId : Nat) (change : Nat → Nat) (links : List HardLink) : List HardLink :=
  links.map fun link =>
    if link.inUse && link.fileId == fileId then { link with linkCount := change link.linkCount }
    else link

/-- The identifier of the existing file, or a fresh one from the time source. -/
def existingId (links : List HardLink) (existingPath : PathPointer) (tick : Nat) : Nat :=
  match links.find? fun link => link.isAt existingPath with
  | some link => link.fileId
  | none => tick % 2 ^ 32

/-- `HardLinkCreate`; `tick` is what `KeQuerySystemTime` returns. -/
def hardLinkCreate (links : List HardLink) (existingPath newPath : PathPointer) (tick : Nat) :
    NtStatus × List HardLink :=
  let existingId := existingId links existingPath tick
  match links.findIdx? fun link => !link.inUse with
  | none => (statusNoMemory, links)
  | some i =>
      let stored := (links[i]?).elim [] HardLink.path
      (statusSuccess,
        adjustCounts existingId (fun linkCount => (linkCount + 1) % 2 ^ 32)
          (links.set i
            { path := copyPath newPath hlinkMaxPath 0 stored
              fileId := existingId
              linkCount := 1
              inUse := true }))

def hardLinkRemove (links : List HardLink) (path : PathPointer) : NtStatus × List HardLink :=
  match links.findIdx? fun link => link.isAt path with
  | none => (statusNotFound, links)
  | some i =>
      let fid := (links[i]?).elim 0 HardLink.fileId
      (statusSuccess,
        adjustCounts fid (fun linkCount => if linkCount ≠ 0 then linkCount - 1 else linkCount)
          (links.set i zeroLink))

/-- How many records in use a file has. -/
def linksOf (links : List HardLink) (fileId : Nat) : Nat :=
  links.countP fun link => link.inUse && link.fileId == fileId

/-- Every record in use has the number of records of its file. -/
def CountsRight (links : List HardLink) : Prop :=
  ∀ link ∈ links, link.inUse = true → link.linkCount = linksOf links link.fileId

instance (links : List HardLink) : Decidable (CountsRight links) :=
  inferInstanceAs (Decidable (∀ link ∈ links, _))

inductive LinkCall where
  | create (existingPath newPath : PathPointer) (tick : Nat)
  | remove (path : PathPointer)

def LinkCall.run (links : List HardLink) : LinkCall → List HardLink
  | .create existingPath newPath tick => (hardLinkCreate links existingPath newPath tick).2
  | .remove path => (hardLinkRemove links path).2

def LinkCall.IsCreate : LinkCall → Prop
  | .create _ _ _ => True
  | .remove _ => False

/-- The counts are right before and after every call. -/
def CountsRightThroughout : List HardLink → List LinkCall → Prop
  | links, [] => CountsRight links
  | links, call :: calls => CountsRight links ∧ CountsRightThroughout (call.run links) calls

section Counts

variable {links : List HardLink}

theorem linksOf_pos {fileId : Nat} :
    0 < linksOf links fileId ↔ ∃ link ∈ links, link.inUse = true ∧ link.fileId = fileId := by
  unfold linksOf
  rw [countP_pos_iff]
  simp only [Bool.and_eq_true, beq_iff_eq]

theorem linksOf_adjustCounts (fileId : Nat) (change : Nat → Nat) (other : Nat) :
    linksOf (adjustCounts fileId change links) other = linksOf links other := by
  unfold linksOf adjustCounts
  rw [countP_map]
  apply List.countP_congr
  intro link _
  simp only [Function.comp_apply]
  split <;> rfl

theorem countsRight_adjustCounts (fileId : Nat) (change : Nat → Nat) :
    CountsRight (adjustCounts fileId change links) ↔
      ∀ link ∈ links, link.inUse = true →
        (if link.fileId = fileId then change link.linkCount else link.linkCount) =
          linksOf links link.fileId := by
  unfold CountsRight
  constructor
  · intro right link member inUse
    have adjusted := right _ (mem_map_of_mem member)
    rw [linksOf_adjustCounts] at adjusted
    by_cases same : link.fileId = fileId
    · rw [if_pos (by simp [inUse, same])] at adjusted
      rw [if_pos same]
      exact adjusted inUse
    · rw [if_neg (by simp [same])] at adjusted
      rw [if_neg same]
      exact adjusted inUse
  · intro right link member inUse
    rw [linksOf_adjustCounts]
    obtain ⟨before, was, rfl⟩ := List.mem_map.mp member
    by_cases same : before.inUse = true ∧ before.fileId = fileId
    · have count := right before was same.1
      rw [if_pos same.2] at count
      rw [if_pos (by simp [same])]
      exact count
    · have unchanged : ¬ (before.inUse && before.fileId == fileId) = true := by
        simpa using same
      rw [if_neg unchanged] at inUse ⊢
      have count := right before was inUse
      rwa [if_neg fun equal => same ⟨inUse, equal⟩] at count

theorem linksOf_set {i : Nat} {old : HardLink} (listed : links[i]? = some old) (link : HardLink)
    (fileId : Nat) :
    linksOf (links.set i link) fileId + (if old.inUse = true ∧ old.fileId = fileId then 1 else 0) =
      linksOf links fileId + (if link.inUse = true ∧ link.fileId = fileId then 1 else 0) := by
  obtain ⟨inside, rfl⟩ := List.getElem?_eq_some_iff.mp listed
  unfold linksOf
  rw [countP_set inside]
  simp only [Bool.and_eq_true, beq_iff_eq]
  by_cases counted : links[i].inUse = true ∧ links[i].fileId = fileId
  · have positive : 0 < links.countP fun link => link.inUse && link.fileId == fileId :=
      countP_pos_iff.mpr ⟨_, getElem_mem inside, by simpa using counted⟩
    rw [if_pos counted]
    omega
  · rw [if_neg counted]
    omega

theorem hardLinkRemove_right (right : CountsRight links) (path : PathPointer) :
    CountsRight (hardLinkRemove links path).2 := by
  unfold hardLinkRemove
  cases found : links.findIdx? fun link => link.isAt path with
  | none => exact right
  | some i =>
    obtain ⟨inside, isAt, -⟩ := findIdx?_eq_some_iff_getElem.mp found
    have listed := getElem?_eq_getElem inside
    have inUse : links[i].inUse = true := by
      unfold HardLink.isAt at isAt
      rw [Bool.and_eq_true] at isAt
      exact isAt.1
    dsimp only
    rw [listed, Option.elim_some, countsRight_adjustCounts]
    intro link member isInUse
    have old : link ∈ links := by
      rcases mem_or_eq_of_mem_set member with old | rfl
      · exact old
      · cases isInUse
    have count := right link old isInUse
    have number := linksOf_set listed zeroLink link.fileId
    have absent : ¬ (zeroLink.inUse = true ∧ zeroLink.fileId = link.fileId) :=
      fun both => Bool.noConfusion both.1
    rw [if_neg absent] at number
    by_cases same : link.fileId = links[i].fileId
    · rw [if_pos ⟨inUse, same.symm⟩] at number
      rw [if_pos same]
      split
      · omega
      · omega
    · rw [if_neg fun both => same both.2.symm] at number
      rw [if_neg same]
      omega

/-- A new link keeps the counts right in a full table, or for a file with one link. -/
theorem hardLinkCreate_right_iff (right : CountsRight links)
    (existingPath newPath : PathPointer) (tick : Nat) :
    CountsRight (hardLinkCreate links existingPath newPath tick).2 ↔
      (∀ link ∈ links, link.inUse = true) ∨
        linksOf links (existingId links existingPath tick) = 1 := by
  unfold hardLinkCreate
  dsimp only
  generalize existingId links existingPath tick = fileId
  cases found : links.findIdx? fun link => !link.inUse with
  | none =>
    apply iff_of_true right
    left
    intro link member
    simpa using findIdx?_eq_none_iff.mp found link member
  | some i =>
    obtain ⟨inside, isFree, -⟩ := findIdx?_eq_some_iff_getElem.mp found
    have listed := getElem?_eq_getElem inside
    have free : links[i].inUse = false := by
      simpa using isFree
    have notFull : ¬ ∀ link ∈ links, link.inUse = true := by
      intro full
      have used := full _ (getElem_mem inside)
      rw [free] at used
      cases used
    rw [or_iff_right notFull]
    dsimp only
    rw [listed, Option.elim_some]
    generalize isNew : (HardLink.mk (copyPath newPath hlinkMaxPath 0 links[i].path) fileId 1
      true) = new
    have used : new.inUse = true := by rw [← isNew]
    have id : new.fileId = fileId := by rw [← isNew]
    have first : new.linkCount = 1 := by rw [← isNew]
    have number : ∀ other, linksOf (links.set i new) other =
        linksOf links other + if fileId = other then 1 else 0 := by
      intro other
      have set := linksOf_set listed new other
      have unused : ¬ (links[i].inUse = true ∧ links[i].fileId = other) := by
        rw [free]
        rintro ⟨absurd, -⟩
        cases absurd
      rw [if_neg unused, id, Nat.add_zero] at set
      simpa only [used, true_and] using set
    rw [countsRight_adjustCounts]
    constructor
    · intro counts
      have member : new ∈ links.set i new := mem_set inside new
      have count := counts new member used
      rw [number, id, if_pos rfl, if_pos rfl, first] at count
      omega
    · intro one link member inUse
      have fits : (linksOf links fileId + 1) % 2 ^ 32 = linksOf links fileId + 1 := by omega
      rw [number]
      rcases mem_or_eq_of_mem_set member with old | rfl
      · have count := right link old inUse
        by_cases same : link.fileId = fileId
        · rw [if_pos same, if_pos same.symm, count, same, fits]
        · rw [if_neg same, if_neg fun equal => same equal.symm, count]
          rfl
      · rw [id, if_pos rfl, if_pos rfl, first, ← fits, one]

end Counts

theorem hardLinkCreate_first (existingPath newPath : PathPointer) (tick : Nat) :
    ¬ CountsRight (hardLinkCreate reparseInit existingPath newPath tick).2 := by
  have unused : ∀ link ∈ reparseInit, link = zeroLink := fun link => eq_of_mem_replicate
  have right : CountsRight reparseInit := by
    intro link member inUse
    rw [unused link member] at inUse
    cases inUse
  rw [hardLinkCreate_right_iff right]
  rintro (full | one)
  · have used := full zeroLink (mem_replicate.mpr ⟨by decide, rfl⟩)
    cases used
  · have positive : 0 < linksOf reparseInit (existingId reparseInit existingPath tick) := by omega
    obtain ⟨link, member, inUse, -⟩ := linksOf_pos.mp positive
    rw [unused link member] at inUse
    cases inUse

theorem hardLinkRemove_unused (path : PathPointer) :
    (hardLinkRemove reparseInit path).2 = reparseInit := by
  have none : (reparseInit.findIdx? fun link => link.isAt path) = none := by
    rw [findIdx?_eq_none_iff]
    intro link member
    rw [eq_of_mem_replicate member]
    rfl
  unfold hardLinkRemove
  rw [none]

/-- In every run the counts are right throughout exactly if no link is created. -/
theorem hardLinkCounts_right (calls : List LinkCall) :
    CountsRightThroughout reparseInit calls ↔ ∀ call ∈ calls, ¬ call.IsCreate := by
  induction calls with
  | nil =>
    apply iff_of_true
    · intro link member inUse
      rw [eq_of_mem_replicate member] at inUse
      cases inUse
    · intro call absent
      cases absent
  | cons call calls ih =>
    have cons : CountsRightThroughout reparseInit (call :: calls) ↔ CountsRight reparseInit ∧
        CountsRightThroughout (call.run reparseInit) calls := Iff.rfl
    rw [forall_mem_cons, ← ih, cons]
    cases call with
    | create existingPath newPath tick =>
      apply iff_of_false
      · rintro ⟨-, throughout⟩
        apply hardLinkCreate_first existingPath newPath tick
        cases calls with
        | nil => exact throughout
        | cons next calls => exact throughout.1
      · rintro ⟨none, -⟩
        exact none trivial
    | remove path =>
      rw [show (LinkCall.remove path).run reparseInit = reparseInit from
        hardLinkRemove_unused path]
      constructor
      · rintro ⟨-, throughout⟩
        exact ⟨fun create => create, throughout⟩
      · rintro ⟨-, throughout⟩
        refine ⟨?_, throughout⟩
        cases calls with
        | nil => exact throughout
        | cons next calls => exact throughout.1

/-- The path `a`. -/
def letterPath : PathPointer := fun k => if k = 0 then 0x61 else 0

/-- After the first link its record has the count 2. -/
theorem not_hardLinkCounts_right :
    (hardLinkCreate reparseInit letterPath letterPath 1).1 = statusSuccess ∧
      linksOf (hardLinkCreate reparseInit letterPath letterPath 1).2 1 = 1 ∧
      ((hardLinkCreate reparseInit letterPath letterPath 1).2[0]?).map HardLink.linkCount = some 2 ∧
      ¬ CountsRightThroughout reparseInit [.create letterPath letterPath 1] := by
  refine ⟨by decide +kernel, by decide +kernel, by decide +kernel, ?_⟩
  rintro ⟨-, after⟩
  exact hardLinkCreate_first letterPath letterPath 1 after

end MinNT.Fs
