import MinNT.Ke.Dispatcher

namespace MinNT.Ke

open List Function ListEntry

/-- The heads of the ready queue and of the wait lists of `count` objects. -/
def IsHead (count : Nat) : Node → Prop
  | .ready => True
  | .object object => object < count
  | _ => False

/-- The list a thread belongs to by its state. -/
def KThread.place (thread : KThread) : Option Node :=
  match thread.state with
  | .ready => some .ready
  | .waiting => thread.waitObject.map .object
  | _ => none

/-- Every list holds exactly the threads that belong to it, each once. -/
structure Listed (links : Links Node) (count : Nat) (place : Nat → Option Node)
    (cells : Node → List Nat) : Prop where
  ring : ∀ head, IsHead count head → Ring links head ((cells head).map .thread)
  member : ∀ head, IsHead count head → ∀ thread, thread ∈ cells head ↔ place thread = some head

theorem IsHead.notThread {count : Nat} {head : Node} (known : IsHead count head) (thread : Nat) :
    head ≠ .thread thread := by
  intro same
  rw [same] at known
  exact known

theorem mem_map_thread {cells : List Nat} {thread : Nat} :
    Node.thread thread ∈ cells.map Node.thread ↔ thread ∈ cells := by
  simp

section Lists

variable {links : Links Node} {count : Nat} {place : Nat → Option Node}
  {cells : Node → List Nat}

theorem Listed.outside (listed : Listed links count place cells) {head other node : Node}
    (known : IsHead count head) (otherKnown : IsHead count other) (different : other ≠ head)
    (member : node ∈ other :: (cells other).map .thread) :
    node ∉ head :: (cells head).map .thread := by
  intro inside
  rcases mem_cons.mp member with isOther | isThread
  · rcases mem_cons.mp inside with isHead | isThread
    · exact different (isOther.symm.trans isHead)
    · obtain ⟨thread, _, same⟩ := List.mem_map.mp isThread
      exact otherKnown.notThread thread (isOther.symm.trans same.symm)
  · obtain ⟨thread, here, same⟩ := List.mem_map.mp isThread
    subst node
    rcases mem_cons.mp inside with isHead | inside
    · exact known.notThread thread isHead.symm
    · have first := (listed.member other otherKnown thread).mp here
      have second := (listed.member head known thread).mp (mem_map_thread.mp inside)
      rw [first] at second
      exact different (Option.some.inj second)

variable {thread : Nat}

section Listed

variable (listed : Listed links count place cells)
include listed

theorem Listed.notLinked {head : Node}
    (known : IsHead count head) (elsewhere : place thread ≠ some head) :
    Node.thread thread ∉ head :: (cells head).map .thread := by
  intro inside
  rcases mem_cons.mp inside with isHead | inside
  · exact known.notThread thread isHead.symm
  · exact elsewhere ((listed.member head known thread).mp (mem_map_thread.mp inside))

theorem Listed.relink {after : Links Node}
    (unlinked : ∀ head, IsHead count head → place thread ≠ some head)
    (same : ∀ node, node ≠ .thread thread → SameLinks links after node) :
    Listed after count place cells := by
  refine ⟨?_, listed.member⟩
  intro head known
  apply (listed.ring head known).congr
  intro node member
  apply same node
  intro clash
  subst node
  exact listed.notLinked known (unlinked head known) member

/-- Unlinking a thread takes it out of its one list. -/
theorem Listed.remove {head : Node} {front back : List Nat} (known : IsHead count head)
    (shape : cells head = front ++ thread :: back) :
    Listed (removeEntryList links (.thread thread)) count (update place thread none)
      (update cells head (front ++ back)) := by
  have ring := listed.ring head known
  rw [shape, map_append, map_cons] at ring
  have here : place thread = some head := by
    apply (listed.member head known thread).mp
    rw [shape]
    simp
  have once : (front ++ thread :: back).Nodup := by
    have all := (nodup_cons.mp (listed.ring head known).once).2
    rw [shape] at all
    exact List.Nodup.of_map _ all
  constructor
  · intro other otherKnown
    by_cases same : other = head
    · subst other
      rw [update_self, map_append]
      exact ring.removeEntryList
    · rw [update_of_ne same]
      apply (listed.ring other otherKnown).congr
      intro node member
      apply ring.removeEntryList_same
      have outside := listed.outside known otherKnown same member
      rwa [shape, map_append, map_cons] at outside
  · intro other otherKnown candidate
    by_cases same : other = head
    · subst other
      rw [update_self]
      by_cases isThread : candidate = thread
      · subst candidate
        rw [update_self]
        rw [nodup_append, nodup_cons] at once
        simp only [mem_append, reduceCtorEq, iff_false, not_or]
        exact ⟨fun member => once.2.2 thread member thread mem_cons_self rfl, once.2.1.1⟩
      · rw [update_of_ne isThread, ← listed.member head known candidate, shape]
        simp [isThread]
    · rw [update_of_ne same]
      by_cases isThread : candidate = thread
      · subst candidate
        rw [update_self, listed.member other otherKnown, here]
        simp [Ne.symm same]
      · rw [update_of_ne isThread]
        exact listed.member other otherKnown candidate

theorem Listed.insert {head : Node} (known : IsHead count head) (unlinked : place thread = none) :
    Listed (insertTailList links head (.thread thread)) count (update place thread (some head))
      (update cells head (cells head ++ [thread])) := by
  have ring := listed.ring head known
  have nowhere : ∀ other, IsHead count other → place thread ≠ some other := by
    intro other _
    rw [unlinked]
    simp
  constructor
  · intro other otherKnown
    by_cases same : other = head
    · subst other
      rw [update_self, map_append]
      exact ring.insertTailList (listed.notLinked known (nowhere head known))
    · rw [update_of_ne same]
      apply (listed.ring other otherKnown).congr
      intro node member
      apply ring.insertTailList_same (listed.outside known otherKnown same member)
      intro clash
      subst node
      exact listed.notLinked otherKnown (nowhere other otherKnown) member
  · intro other otherKnown candidate
    by_cases isThread : candidate = thread
    · subst candidate
      rw [update_self]
      by_cases same : other = head
      · subst other
        simp
      · rw [update_of_ne same, listed.member other otherKnown, unlinked]
        simp [Ne.symm same]
    · rw [update_of_ne isThread, ← listed.member other otherKnown]
      by_cases same : other = head
      · subst other
        simp [isThread]
      · rw [update_of_ne same]

end Listed

theorem clearEntry_same (entry node : Node) (different : node ≠ entry) :
    SameLinks links (clearEntry links entry) node := by
  simp only [SameLinks, clearEntry, Links.setFlink, Links.setBlink,
    update_of_ne different, and_self]

theorem Listed.move (listed : Listed links count place cells) {head target : Node}
    {front back : List Nat} (known : IsHead count head) (targetKnown : IsHead count target)
    (different : head ≠ target) (shape : cells head = front ++ thread :: back) :
    Listed (insertTailList (clearEntry (removeEntryList links (.thread thread)) (.thread thread))
        target (.thread thread)) count (update place thread (some target))
      (update (update cells head (front ++ back)) target (cells target ++ [thread])) := by
  have cleared : Listed (clearEntry (removeEntryList links (.thread thread)) (.thread thread))
      count (update place thread none) (update cells head (front ++ back)) := by
    apply (listed.remove known shape).relink
    · intro other _
      rw [update_self]
      simp
    · exact fun node other => clearEntry_same (.thread thread) node other
  have joined := cleared.insert targetKnown (update_self _ _ _)
  rw [update_idem, update_of_ne (Ne.symm different)] at joined
  exact joined

theorem Listed.addObject (listed : Listed links count place cells)
    (unknown : ∀ thread, place thread ≠ some (.object count)) :
    Listed (initializeListHead links (.object count)) (count + 1) place
      (update cells (.object count) []) := by
  have old : ∀ head, IsHead (count + 1) head → head ≠ .object count → IsHead count head := by
    intro head known different
    cases head with
    | object object =>
      have bound : object < count + 1 := known
      have other : object ≠ count := fun same => different (same ▸ rfl)
      show object < count
      omega
    | _ => exact known
  constructor
  · intro head known
    by_cases same : head = .object count
    · subst head
      rw [update_self]
      exact ring_initializeListHead links _
    · rw [update_of_ne same]
      apply (listed.ring head (old head known same)).congr
      intro node member
      apply initializeListHead_same
      intro clash
      subst node
      rcases mem_cons.mp member with isHead | isThread
      · exact same isHead.symm
      · simp at isThread
  · intro head known thread
    by_cases same : head = .object count
    · subst head
      rw [update_self]
      simp [unknown thread]
    · rw [update_of_ne same]
      exact listed.member head (old head known same) thread

end Lists

end MinNT.Ke
