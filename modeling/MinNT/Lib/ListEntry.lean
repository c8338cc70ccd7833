import Mathlib.Data.List.Nodup
import Mathlib.Logic.Function.Basic

/-! Circular doubly linked lists threaded through the nodes themselves. -/

namespace ListEntry

open List Function

/-- The two link fields of every node. -/
structure Links (α : Type) where
  flink : α → α
  blink : α → α

section Lists

variable {α : Type}

/-- The links lead from `first` through `cells` to `last`, and back. -/
def Arc (links : Links α) : α → List α → α → Prop
  | first, [], last => links.flink first = last ∧ links.blink last = first
  | first, cell :: cells, last =>
      links.flink first = cell ∧ links.blink cell = first ∧ Arc links cell cells last

/-- The list behind a head, without a repeated node. -/
structure Ring (links : Links α) (head : α) (cells : List α) : Prop where
  arc : Arc links head cells head
  once : (head :: cells).Nodup

/-- Nodes whose links are the same in two states. -/
def SameLinks (before after : Links α) (node : α) : Prop :=
  after.flink node = before.flink node ∧ after.blink node = before.blink node

variable {cells : List α} {links : Links α}

variable {before after : Links α}

theorem Arc.congr {first last : α} (arc : Arc before first cells last)
    (forward : ∀ node ∈ first :: cells, after.flink node = before.flink node)
    (backward : ∀ node ∈ cells ++ [last], after.blink node = before.blink node) :
    Arc after first cells last := by
  induction cells generalizing first with
  | nil =>
    rw [Arc, forward first (by simp), backward last (by simp)]
    exact arc
  | cons cell cells ih =>
    obtain ⟨next, prev, rest⟩ := arc
    refine ⟨?_, ?_, ih rest ?_ ?_⟩
    · rw [forward first mem_cons_self, next]
    · rw [backward cell (by simp), prev]
    · intro node member
      exact forward node (mem_cons_of_mem _ member)
    · intro node member
      exact backward node (mem_cons_of_mem _ member)

theorem arc_append {first middle last : α} {front back : List α} :
    Arc links first (front ++ middle :: back) last ↔
      Arc links first front middle ∧ Arc links middle back last := by
  induction front generalizing first with
  | nil => simp only [nil_append, Arc, and_assoc]
  | cons cell front ih => simp only [cons_append, Arc, ih, and_assoc]

theorem Arc.blink_mem {first last : α}
    (arc : Arc links first cells last) : links.blink last ∈ first :: cells := by
  induction cells generalizing first with
  | nil =>
    rw [arc.2]
    exact mem_cons_self
  | cons cell cells ih => exact mem_cons_of_mem _ (ih arc.2.2)

theorem Arc.flink_mem {first last : α}
    (arc : Arc links first cells last) : links.flink first ∈ cells ++ [last] := by
  cases cells with
  | nil =>
    rw [arc.1]
    exact mem_singleton_self _
  | cons cell cells =>
    rw [arc.1]
    exact mem_cons_self

theorem Arc.retarget {first last target : α}
    (arc : Arc before first cells last) (once : (first :: cells).Nodup)
    (forward : ∀ node ∈ first :: cells, node ≠ before.blink last →
      after.flink node = before.flink node)
    (backward : ∀ node ∈ cells, after.blink node = before.blink node)
    (link : after.flink (before.blink last) = target)
    (back : after.blink target = before.blink last) : Arc after first cells target := by
  induction cells generalizing first with
  | nil =>
    have start : before.blink last = first := arc.2
    rw [start] at link back
    exact ⟨link, back⟩
  | cons cell cells ih =>
    obtain ⟨next, prev, rest⟩ := arc
    have split := nodup_cons.mp once
    refine ⟨?_, ?_, ih rest split.2 ?_ ?_⟩
    · rw [forward first mem_cons_self, next]
      intro same
      exact split.1 (same ▸ rest.blink_mem)
    · rw [backward cell mem_cons_self, prev]
    · intro node member
      exact forward node (mem_cons_of_mem _ member)
    · intro node member
      exact backward node (mem_cons_of_mem _ member)

theorem Ring.congr {head : α} (ring : Ring before head cells)
    (same : ∀ node ∈ head :: cells, SameLinks before after node) : Ring after head cells := by
  refine ⟨ring.arc.congr (fun node member => (same node member).1) ?_, ring.once⟩
  intro node member
  apply (same node _).2
  simpa [or_comm] using member

theorem Ring.flink_head {head cell : α}
    (ring : Ring links head (cell :: cells)) : links.flink head = cell := ring.arc.1

end Lists

section Operations

variable {α : Type} [DecidableEq α]

def Links.setFlink (links : Links α) (node target : α) : Links α :=
  { links with flink := update links.flink node target }

def Links.setBlink (links : Links α) (node target : α) : Links α :=
  { links with blink := update links.blink node target }

def initializeListHead (links : Links α) (head : α) : Links α :=
  (links.setBlink head head).setFlink head head

def isListEmpty (links : Links α) (head : α) : Bool := links.flink head = head

def insertTailList (links : Links α) (head entry : α) : Links α :=
  let blink := links.blink head
  (((links.setFlink entry head).setBlink entry blink).setFlink blink entry).setBlink head entry

def removeEntryList (links : Links α) (entry : α) : Links α :=
  let flink := links.flink entry
  let blink := links.blink entry
  (links.setFlink blink flink).setBlink flink blink

/-- The first entry and the links without it. -/
def removeHeadList (links : Links α) (head : α) : α × Links α :=
  let entry := links.flink head
  (entry, removeEntryList links entry)

section Links

variable (links : Links α)
include links

theorem insertTailList_flink (head entry node : α) :
    (insertTailList links head entry).flink node =
      if node = links.blink head then entry else if node = entry then head
      else links.flink node := by
  simp only [insertTailList, Links.setFlink, Links.setBlink, update_apply]

theorem insertTailList_blink (head entry node : α) :
    (insertTailList links head entry).blink node =
      if node = head then entry else if node = entry then links.blink head
      else links.blink node := by
  simp only [insertTailList, Links.setFlink, Links.setBlink, update_apply]

theorem removeEntryList_flink (entry node : α) :
    (removeEntryList links entry).flink node =
      if node = links.blink entry then links.flink entry else links.flink node := by
  simp only [removeEntryList, Links.setFlink, Links.setBlink, update_apply]

theorem removeEntryList_blink (entry node : α) :
    (removeEntryList links entry).blink node =
      if node = links.flink entry then links.blink entry else links.blink node := by
  simp only [removeEntryList, Links.setFlink, Links.setBlink, update_apply]

theorem ring_initializeListHead (head : α) : Ring (initializeListHead links head) head [] := by
  refine ⟨⟨?_, ?_⟩, nodup_singleton head⟩
  · simp only [initializeListHead, Links.setFlink, update_self]
  · simp only [initializeListHead, Links.setFlink, Links.setBlink, update_self]

theorem initializeListHead_same (head node : α) (different : node ≠ head) :
    SameLinks links (initializeListHead links head) node := by
  simp only [SameLinks, initializeListHead, Links.setFlink, Links.setBlink,
    update_of_ne different, and_self]

end Links

variable {links : Links α}

theorem Ring.isListEmpty_iff {head : α} {cells : List α}
    (ring : Ring links head cells) : isListEmpty links head = true ↔ cells = [] := by
  simp only [isListEmpty, decide_eq_true_eq]
  cases cells with
  | nil => simp only [ring.arc.1]
  | cons cell cells =>
    have split := nodup_cons.mp ring.once
    have next : links.flink head = cell := ring.arc.1
    rw [next]
    constructor
    · intro same
      exact absurd (same ▸ mem_cons_self) split.1
    · intro empty
      cases empty

theorem Ring.insertTailList {head entry : α} {cells : List α}
    (ring : Ring links head cells) (fresh : entry ∉ head :: cells) :
    Ring (insertTailList links head entry) head (cells ++ [entry]) := by
  have notHead : entry ≠ head := fun same => fresh (same ▸ mem_cons_self)
  have last := ring.arc.blink_mem
  have notLast : entry ≠ links.blink head := fun same => fresh (same ▸ last)
  have split := nodup_cons.mp ring.once
  constructor
  · apply arc_append.mpr
    constructor
    · apply ring.arc.retarget ring.once
      · intro node member different
        have other : node ≠ entry := fun same => fresh (same ▸ member)
        rw [insertTailList_flink, if_neg different, if_neg other]
      · intro node member
        have other : node ≠ entry := fun same => fresh (same ▸ mem_cons_of_mem _ member)
        have notHead : node ≠ head := fun same => split.1 (same ▸ member)
        rw [insertTailList_blink, if_neg notHead, if_neg other]
      · rw [insertTailList_flink, if_pos rfl]
      · rw [insertTailList_blink, if_neg notHead, if_pos rfl]
    · constructor
      · rw [insertTailList_flink, if_neg notLast, if_pos rfl]
      · rw [insertTailList_blink, if_pos rfl]
  · rw [← cons_append]
    apply ring.once.append (nodup_singleton entry)
    intro node member single
    exact fresh (mem_singleton.mp single ▸ member)

theorem Ring.insertTailList_same {head entry node : α} {cells : List α}
    (ring : Ring links head cells) (outside : node ∉ head :: cells) (different : node ≠ entry) :
    SameLinks links (ListEntry.insertTailList links head entry) node := by
  have last := ring.arc.blink_mem
  constructor
  · have notLast : node ≠ links.blink head := fun same => outside (same ▸ last)
    rw [insertTailList_flink, if_neg notLast, if_neg different]
  · have notHead : node ≠ head := fun same => outside (same ▸ mem_cons_self)
    rw [insertTailList_blink, if_neg notHead, if_neg different]

/-- An entry is taken out from any place. -/
theorem Ring.removeEntryList {head entry : α} {front back : List α}
    (ring : Ring links head (front ++ entry :: back)) :
    Ring (removeEntryList links entry) head (front ++ back) := by
  obtain ⟨before, behind⟩ := arc_append.mp ring.arc
  have once := ring.once
  rw [← cons_append, nodup_append] at once
  obtain ⟨frontOnce, backOnce, apart⟩ := once
  have pred := before.blink_mem
  constructor
  · cases back with
    | nil =>
      have next : links.flink entry = head := behind.1
      have notHead : entry ≠ head :=
        fun same => apart head mem_cons_self entry mem_cons_self same.symm
      rw [append_nil]
      apply before.retarget frontOnce
      · intro node member different
        rw [removeEntryList_flink, if_neg different]
      · intro node member
        have notHead : node ≠ head :=
          fun same => (nodup_cons.mp frontOnce).1 (same ▸ member)
        rw [removeEntryList_blink, next, if_neg notHead]
      · rw [removeEntryList_flink, if_pos rfl, next]
      · rw [removeEntryList_blink, next, if_pos rfl]
    | cons next back =>
      obtain ⟨forward, _, rest⟩ := behind
      have nextOut : next ∉ head :: front := fun member =>
        apart next member next (by simp) rfl
      apply arc_append.mpr
      constructor
      · apply before.retarget frontOnce
        · intro node member different
          rw [removeEntryList_flink, if_neg different]
        · intro node member
          have other : node ≠ next :=
            fun same => nextOut (same ▸ mem_cons_of_mem _ member)
          rw [removeEntryList_blink, forward, if_neg other]
        · rw [removeEntryList_flink, if_pos rfl, forward]
        · rw [removeEntryList_blink, forward, if_pos rfl]
      · apply rest.congr
        · intro node member
          have other : node ≠ links.blink entry := by
            intro same
            exact apart node (same ▸ pred) node (mem_cons_of_mem _ member) rfl
          rw [removeEntryList_flink, if_neg other]
        · intro node member
          have other : node ≠ next := by
            intro same
            rcases mem_append.mp member with inside | last
            · have split := nodup_cons.mp (nodup_cons.mp backOnce).2
              exact split.1 (same ▸ inside)
            · exact nextOut (same ▸ mem_singleton.mp last ▸ mem_cons_self)
          rw [removeEntryList_blink, forward, if_neg other]
  · rw [← cons_append, nodup_append]
    refine ⟨frontOnce, (nodup_cons.mp backOnce).2, ?_⟩
    intro node member other inside
    exact apart node member other (mem_cons_of_mem _ inside)

theorem Ring.removeEntryList_same {head entry node : α} {front back : List α}
    (ring : Ring links head (front ++ entry :: back))
    (outside : node ∉ head :: (front ++ entry :: back)) :
    SameLinks links (ListEntry.removeEntryList links entry) node := by
  obtain ⟨before, behind⟩ := arc_append.mp ring.arc
  have pred := before.blink_mem
  have succ := behind.flink_mem
  constructor
  · rw [removeEntryList_flink, if_neg]
    intro same
    apply outside
    rw [same, ← cons_append]
    exact mem_append_left _ pred
  · rw [removeEntryList_blink, if_neg]
    intro same
    apply outside
    rw [same]
    rcases mem_append.mp succ with inside | last
    · simp [inside]
    · rw [mem_singleton.mp last]
      exact mem_cons_self

end Operations

end ListEntry
