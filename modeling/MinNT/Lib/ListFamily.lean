import MinNT.Lib.ListEntry

/-! Several circular lists over one set of links. An entry that is in none of them
points at itself, as `InitializeListHead` leaves it. -/

namespace ListEntry

open List Function

section Family

variable {α ι κ : Type}

/-- The heads and the entries are nodes of their own. -/
structure Names (head : ι → α) (entry : κ → α) : Prop where
  heads : Function.Injective head
  entries : Function.Injective entry
  apart : ∀ list item, head list ≠ entry item

/-- What each list holds; no item is in two of them. -/
structure Family (links : Links α) (head : ι → α) (entry : κ → α) (cells : ι → List κ) : Prop where
  ring : ∀ list, Ring links (head list) ((cells list).map entry)
  disjoint : ∀ list other, list ≠ other → ∀ item ∈ cells list, item ∉ cells other
  alone : ∀ item, (∀ list, item ∉ cells list) → Ring links (entry item) []

variable {links : Links α} {head : ι → α} {entry : κ → α} {cells : ι → List κ}

theorem Names.mem_map (names : Names head entry) {items : List κ} {item : κ} :
    entry item ∈ items.map entry ↔ item ∈ items :=
  mem_map_of_injective names.entries

theorem Names.notMem (names : Names head entry) {list : ι} {items : List κ} {item : κ}
    (absent : item ∉ items) : entry item ∉ head list :: items.map entry := by
  intro member
  rcases mem_cons.mp member with isHead | inside
  · exact names.apart list item isHead.symm
  · exact absent (names.mem_map.mp inside)

theorem Family.outside (family : Family links head entry cells) (names : Names head entry)
    {list other : ι} (different : other ≠ list) {node : α}
    (member : node ∈ head other :: (cells other).map entry) :
    node ∉ head list :: (cells list).map entry := by
  rcases mem_cons.mp member with isHead | inside
  · subst node
    intro here
    rcases mem_cons.mp here with isHead | inside
    · exact different (names.heads isHead)
    · obtain ⟨item, _, same⟩ := List.mem_map.mp inside
      exact names.apart other item same.symm
  · obtain ⟨item, here, same⟩ := List.mem_map.mp inside
    subst node
    exact names.notMem (family.disjoint other list different item here)

theorem Family.nodup (family : Family links head entry cells) (list : ι) : (cells list).Nodup :=
  ((nodup_cons.mp (family.ring list).once).2).of_map _

end Family

section Operations

variable {α ι κ : Type} [DecidableEq α]

/-- `RemoveEntryList` and `InitializeListHead` on the entry. -/
def unlink (links : Links α) (entry : α) : Links α :=
  initializeListHead (removeEntryList links entry) entry

variable {links : Links α} {head : ι → α} {entry : κ → α} {cells : ι → List κ}

theorem Family.isListEmpty_entry (family : Family links head entry cells) (names : Names head entry)
    (item : κ) : isListEmpty links (entry item) = true ↔ ∀ list, item ∉ cells list := by
  constructor
  · intro selfLinked list member
    obtain ⟨front, back, shape⟩ := append_of_mem member
    have ring := family.ring list
    rw [shape, map_append, map_cons] at ring
    have behind := (arc_append.mp ring.arc).2
    have next := behind.flink_mem
    have same : links.flink (entry item) = entry item := by
      simpa only [isListEmpty, decide_eq_true_eq] using selfLinked
    rw [same] at next
    have once := (nodup_cons.mp ring.once).2
    rcases mem_append.mp next with inside | last
    · exact (nodup_cons.mp once.of_append_right).1 inside
    · exact names.apart list item (mem_singleton.mp last).symm
  · intro absent
    exact (family.alone item absent).isListEmpty_iff.mpr rfl

theorem unlink_same {front back : List α} {first item : α}
    (ring : Ring links first (front ++ item :: back)) {node : α}
    (outside : node ∉ first :: (front ++ item :: back)) :
    SameLinks links (unlink links item) node := by
  have different : node ≠ item := by
    intro same
    apply outside
    simp [same]
  have removed := ring.removeEntryList_same outside
  have cleared := initializeListHead_same (removeEntryList links item) item node different
  exact ⟨cleared.1.trans removed.1, cleared.2.trans removed.2⟩

theorem ring_unlink {front back : List α} {first item : α}
    (ring : Ring links first (front ++ item :: back)) :
    Ring (unlink links item) first (front ++ back) := by
  have once := ring.once
  apply ring.removeEntryList.congr
  intro node member
  apply initializeListHead_same
  intro same
  subst node
  rw [← cons_append] at once member
  rw [nodup_append] at once
  rcases mem_append.mp member with before | behind
  · exact once.2.2 item before item mem_cons_self rfl
  · exact (nodup_cons.mp once.2.1).1 behind

end Operations

section Moves

variable {α ι κ : Type} [DecidableEq α] [DecidableEq ι]
  {links : Links α} {head : ι → α} {entry : κ → α} {cells : ι → List κ}

section Family

variable (family : Family links head entry cells)
include family

section Names

variable (names : Names head entry)
include names

/-- An entry leaves its list; the other lists stay. -/
theorem Family.unlink
    {list : ι} {item : κ} {front back : List κ} (shape : cells list = front ++ item :: back) :
    Family (unlink links (entry item)) head entry (update cells list (front ++ back)) := by
  have ring := family.ring list
  rw [shape, map_append, map_cons] at ring
  have once := family.nodup list
  rw [shape] at once
  have smaller : ∀ other ∈ front ++ back, other ∈ cells list := by
    intro other member
    rw [shape]
    rcases mem_append.mp member with before | behind
    · exact mem_append_left _ before
    · exact mem_append_right _ (mem_cons_of_mem _ behind)
  refine ⟨?_, ?_, ?_⟩
  · intro other
    by_cases same : other = list
    · subst other
      rw [update_self, map_append]
      exact ring_unlink ring
    · rw [update_of_ne same]
      apply (family.ring other).congr
      intro node member
      apply unlink_same ring
      have outside := family.outside names same member
      rwa [shape, map_append, map_cons] at outside
  · intro first second different other member
    by_cases isFirst : first = list
    · subst first
      rw [update_self] at member
      rw [update_of_ne (Ne.symm different)]
      exact family.disjoint list second different other (smaller other member)
    · rw [update_of_ne isFirst] at member
      have elsewhere := family.disjoint first second different other member
      by_cases isSecond : second = list
      · subst second
        rw [update_self]
        exact fun inside => elsewhere (smaller other inside)
      · rwa [update_of_ne isSecond]
  · intro other absent
    by_cases same : other = item
    · subst other
      exact ring_initializeListHead _ _
    have free : ∀ list, other ∉ cells list := by
      intro place member
      have gone := absent place
      by_cases here : place = list
      · subst place
        rw [update_self] at gone
        rw [shape] at member
        apply gone
        simpa [same] using member
      · rw [update_of_ne here] at gone
        exact gone member
    apply (family.alone other free).congr
    intro node member
    apply unlink_same ring
    rw [mem_singleton.mp member]
    have outside : entry other ∉ head list :: (cells list).map entry := names.notMem (free list)
    rwa [shape, map_append, map_cons] at outside

theorem Family.release [DecidableEq κ] (item : κ) :
    Family (if isListEmpty links (entry item) then links else ListEntry.unlink links (entry item))
      head entry (fun list => (cells list).erase item) := by
  by_cases free : ∀ list, item ∉ cells list
  · have same : (fun list => (cells list).erase item) = cells := by
      funext list
      exact erase_of_not_mem (free list)
    rw [if_pos ((family.isListEmpty_entry names item).mpr free), same]
    exact family
  · have linked : ¬ isListEmpty links (entry item) = true :=
      fun empty => free ((family.isListEmpty_entry names item).mp empty)
    rw [if_neg linked]
    simp only [not_forall, not_not] at free
    obtain ⟨list, member⟩ := free
    obtain ⟨front, back, shape⟩ := append_of_mem member
    have once := family.nodup list
    rw [shape] at once
    have fresh : item ∉ front := by
      intro before
      exact (nodup_append.mp once).2.2 item before item mem_cons_self rfl
    have same : (fun list => (cells list).erase item) =
        update cells list (front ++ back) := by
      funext other
      by_cases here : other = list
      · rw [here, update_self, shape, erase_append_right _ fresh, erase_cons_head]
      · rw [update_of_ne here]
        exact erase_of_not_mem (family.disjoint list other (Ne.symm here) item member)
    rw [same]
    exact family.unlink names shape

/-- An entry of no list goes to the end of one. -/
theorem Family.insertTail (list : ι) {item : κ} (free : ∀ list, item ∉ cells list) :
    Family (insertTailList links (head list) (entry item)) head entry
      (update cells list (cells list ++ [item])) := by
  have ring := family.ring list
  refine ⟨?_, ?_, ?_⟩
  · intro other
    by_cases same : other = list
    · subst other
      rw [update_self, map_append]
      exact ring.insertTailList (names.notMem (free list))
    · rw [update_of_ne same]
      apply (family.ring other).congr
      intro node member
      apply ring.insertTailList_same (family.outside names same member)
      intro clash
      subst node
      exact names.notMem (free other) member
  · intro first second different other member
    by_cases isFirst : first = list
    · subst first
      rw [update_self] at member
      rw [update_of_ne (Ne.symm different)]
      rcases mem_append.mp member with old | new
      · exact family.disjoint list second different other old
      · rw [mem_singleton.mp new]
        exact free second
    · rw [update_of_ne isFirst] at member
      have elsewhere := family.disjoint first second different other member
      by_cases isSecond : second = list
      · subst second
        rw [update_self, mem_append, not_or]
        refine ⟨elsewhere, ?_⟩
        intro new
        rw [mem_singleton.mp new] at member
        exact free first member
      · rwa [update_of_ne isSecond]
  · intro other absent
    have here := absent list
    rw [update_self, mem_append, not_or] at here
    have different : other ≠ item := fun same => here.2 (mem_singleton.mpr same)
    have old : ∀ place, other ∉ cells place := by
      intro place
      by_cases same : place = list
      · subst place
        exact here.1
      · have gone := absent place
        rwa [update_of_ne same] at gone
    apply (family.alone other old).congr
    intro node member
    rw [mem_singleton.mp member]
    exact ring.insertTailList_same (names.notMem (old list))
      (fun same => different (names.entries same))

theorem Family.emptied {list : ι} (empty : cells list = []) :
    Family (initializeListHead links (head list)) head entry cells := by
  refine ⟨?_, family.disjoint, ?_⟩
  · intro other
    by_cases same : other = list
    · subst other
      rw [empty]
      exact ring_initializeListHead _ _
    · apply (family.ring other).congr
      intro node member
      apply initializeListHead_same
      intro clash
      subst node
      exact family.outside names same member mem_cons_self
  · intro item absent
    apply (family.alone item absent).congr
    intro node member
    rw [mem_singleton.mp member]
    exact initializeListHead_same _ _ _ (Ne.symm (names.apart list item))

end Names

end Family

end Moves

end ListEntry
