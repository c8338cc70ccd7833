import Mathlib.Data.Fintype.Card
import MinNT.Lib.NullTerminated

/-! Doubly linked lists threaded through a pool of cells. A cell is named by its
index; `none` is the null pointer. -/

namespace LinkedList

open List Function

variable {ι : Type} [DecidableEq ι]

structure Link (ι : Type) where
  next : Option ι
  prev : Option ι
deriving DecidableEq, Repr

/-- The links of all cells, whether or not they are on a list. -/
abbrev Links (ι : Type) := ι → Link ι

def detached : Link ι := ⟨none, none⟩

def setNext (links : Links ι) (cell : ι) (next : Option ι) : Links ι :=
  update links cell { links cell with next := next }

def setPrev (links : Links ι) (cell : ι) (prev : Option ι) : Links ι :=
  update links cell { links cell with prev := prev }

/-- Make `cell` the cell in front of `head`. -/
def pushFront (links : Links ι) (head : Option ι) (cell : ι) : Links ι :=
  let linked := setPrev (setNext links cell head) cell none
  match head with
  | none => linked
  | some first => setPrev linked first (some cell)

/-- The first half of an unlink: the predecessor skips `cell`. -/
def bypassNext (links : Links ι) (cell : ι) : Links ι :=
  match (links cell).prev with
  | none => links
  | some before => setNext links before (links cell).next

/-- The second half: the successor skips `cell`. -/
def bypassPrev (links : Links ι) (cell : ι) : Links ι :=
  match (links cell).next with
  | none => links
  | some after => setPrev links after (links cell).prev

def unlink (links : Links ι) (cell : ι) : Links ι :=
  update (bypassPrev (bypassNext links cell) cell) cell detached

/-- The head pointer after `cell` has been unlinked. -/
def unlinkHead (links : Links ι) (head : Option ι) (cell : ι) : Option ι :=
  match (links cell).prev with
  | none => (links cell).next
  | some _ => head

/-- The tail pointer after `cell` has been unlinked. -/
def unlinkTail (links : Links ι) (tail : Option ι) (cell : ι) : Option ι :=
  match (bypassNext links cell cell).next with
  | none => (bypassNext links cell cell).prev
  | some _ => tail

/-- Search from `head` along the `next` pointers. The outer `none` is a search
that has not ended when the fuel is used up. -/
def findFrom (links : Links ι) (wanted : ι → Bool) : Nat → Option ι → Option (Option ι)
  | _, none => some none
  | 0, some _ => none
  | fuel + 1, some cell =>
      if wanted cell then some (some cell) else findFrom links wanted fuel (links cell).next

/-- The `next` pointers lead from `head` through `cells` to `stop`, and the
`prev` pointers lead back to `before`. -/
def Segment (links : Links ι) : Option ι → Option ι → List ι → Option ι → Prop
  | _, head, [], stop => head = stop
  | before, head, cell :: cells, stop =>
      head = some cell ∧ (links cell).prev = before ∧
        Segment links (some cell) (links cell).next cells stop

/-- A whole list without repetition. -/
structure Threaded (links : Links ι) (head : Option ι) (cells : List ι) : Prop where
  segment : Segment links none head cells none
  once : cells.Nodup

theorem setNext_same (links : Links ι) (cell : ι) (next : Option ι) :
    setNext links cell next cell = ⟨next, (links cell).prev⟩ := by
  simp only [setNext, update_self]

theorem setNext_other (links : Links ι) (cell other : ι) (next : Option ι)
    (different : other ≠ cell) : setNext links cell next other = links other := by
  simp only [setNext, update_of_ne different]

theorem setPrev_same (links : Links ι) (cell : ι) (prev : Option ι) :
    setPrev links cell prev cell = ⟨(links cell).next, prev⟩ := by
  simp only [setPrev, update_self]

theorem setPrev_other (links : Links ι) (cell other : ι) (prev : Option ι)
    (different : other ≠ cell) : setPrev links cell prev other = links other := by
  simp only [setPrev, update_of_ne different]

variable {cells : List ι} {links : Links ι} {before head : Option ι}

omit [DecidableEq ι] in
theorem Segment.congr {links links' : Links ι} {before head stop : Option ι}
    (segment : Segment links before head cells stop)
    (same : ∀ cell ∈ cells, links' cell = links cell) : Segment links' before head cells stop := by
  induction cells generalizing before head with
  | nil => exact segment
  | cons cell cells ih =>
    obtain ⟨first, back, rest⟩ := segment
    have here := same cell mem_cons_self
    refine ⟨first, by rw [here]; exact back, ?_⟩
    rw [here]
    exact ih rest (fun other member => same other (mem_cons_of_mem _ member))

omit [DecidableEq ι] in
theorem segment_append {before head stop : Option ι} {front back : List ι} :
    Segment links before head (front ++ back) stop ↔
      ∃ middle, Segment links before head front middle ∧
        Segment links (front.getLast?.or before) middle back stop := by
  induction front generalizing before head with
  | nil => simp [Segment]
  | cons cell front ih =>
    have last : (cell :: front).getLast?.or before = front.getLast?.or (some cell) := by
      rw [getLast?_cons]
      cases front.getLast? <;> rfl
    rw [last]
    simp only [cons_append, Segment, ih]
    constructor
    · rintro ⟨first, prev, middle, left, right⟩
      exact ⟨middle, ⟨first, prev, left⟩, right⟩
    · rintro ⟨middle, ⟨first, prev, left⟩, right⟩
      exact ⟨first, prev, middle, left, right⟩

omit [DecidableEq ι] in
theorem Segment.find (wanted : ι → Bool) (segment : Segment links before head cells none)
    (fuel : Nat) (enough : cells.length ≤ fuel) :
    findFrom links wanted fuel head = some (cells.find? wanted) := by
  induction cells generalizing before head fuel with
  | nil =>
    cases segment
    cases fuel <;> rfl
  | cons cell cells ih =>
    obtain ⟨rfl, _, rest⟩ := segment
    cases fuel with
    | zero => simp at enough
    | succ fuel =>
      rw [findFrom, find?_cons]
      cases wanted cell with
      | true => rfl
      | false => exact ih rest fuel (by simpa using enough)

omit [DecidableEq ι] in
theorem Threaded.find [Fintype ι] {links : Links ι} {head : Option ι} {cells : List ι}
    (wanted : ι → Bool) (threaded : Threaded links head cells) :
    findFrom links wanted (Fintype.card ι) head = some (cells.find? wanted) :=
  threaded.segment.find wanted _ threaded.once.length_le_card

omit [DecidableEq ι] in
theorem threaded_nil (links : Links ι) : Threaded links none [] := ⟨rfl, nodup_nil⟩

variable {head : Option ι}

omit [DecidableEq ι] in
theorem Threaded.congr {links links' : Links ι} (threaded : Threaded links head cells)
    (same : ∀ cell ∈ cells, links' cell = links cell) : Threaded links' head cells :=
  ⟨threaded.segment.congr same, threaded.once⟩

theorem pushFront_other (links : Links ι) (head : Option ι) (cell other : ι)
    (different : other ≠ cell) (notHead : head ≠ some other) :
    pushFront links head cell other = links other := by
  cases head with
  | none =>
    simp only [pushFront]
    rw [setPrev_other _ _ _ _ different, setNext_other _ _ _ _ different]
  | some first =>
    have apart : other ≠ first := by
      rintro rfl
      exact notHead rfl
    simp only [pushFront]
    rw [setPrev_other _ _ _ _ apart, setPrev_other _ _ _ _ different,
      setNext_other _ _ _ _ different]

theorem Threaded.pushFront (threaded : Threaded links head cells) (cell : ι)
    (fresh : cell ∉ cells) : Threaded (pushFront links head cell) (some cell) (cell :: cells) := by
  refine ⟨?_, nodup_cons.mpr ⟨fresh, threaded.once⟩⟩
  cases cells with
  | nil =>
    have empty : head = none := threaded.segment
    subst head
    simp only [LinkedList.pushFront, Segment]
    rw [setPrev_same, setNext_same]
    exact ⟨trivial, rfl, rfl⟩
  | cons first rest =>
    obtain ⟨rfl, back, segment⟩ := threaded.segment
    have apart : first ≠ cell := by
      rintro rfl
      exact fresh mem_cons_self
    have once := nodup_cons.mp threaded.once
    simp only [LinkedList.pushFront, Segment]
    rw [setPrev_other _ _ _ _ (Ne.symm apart), setPrev_same, setNext_same, setPrev_same,
      setPrev_other _ _ _ _ apart, setNext_other _ _ _ _ apart]
    refine ⟨trivial, rfl, rfl, rfl, ?_⟩
    apply segment.congr
    intro other member
    have notFirst : other ≠ first := by
      rintro rfl
      exact once.1 member
    have notCell : other ≠ cell := by
      rintro rfl
      exact fresh (mem_cons_of_mem _ member)
    rw [setPrev_other _ _ _ _ notFirst, setPrev_other _ _ _ _ notCell,
      setNext_other _ _ _ _ notCell]

/-- What the list says about one of its cells: the cells around it are its
neighbours, or there are none. -/
theorem Threaded.split (threaded : Threaded links head cells) (cell : ι) (member : cell ∈ cells) :
    ∃ front back, cells = front ++ cell :: back ∧ cells.erase cell = front ++ back ∧
      cell ∉ front ∧ cell ∉ back ∧ Segment links none head front (some cell) ∧
      (links cell).prev = front.getLast? ∧
      Segment links (some cell) (links cell).next back none := by
  obtain ⟨front, back, rfl⟩ := append_of_mem member
  have once := threaded.once
  rw [nodup_append, nodup_cons] at once
  have notFront : cell ∉ front := by
    intro inFront
    exact once.2.2 cell inFront cell mem_cons_self rfl
  obtain ⟨middle, left, first, prev, right⟩ := segment_append.mp threaded.segment
  subst middle
  refine ⟨front, back, rfl, ?_, notFront, once.2.1.1, left, ?_, right⟩
  · rw [erase_append_right _ notFront, erase_cons_head]
  · rw [prev, Option.or_none]

omit [DecidableEq ι] in
theorem Segment.head_eq (segment : Segment links before head cells none) : head = cells.head? := by
  cases cells with
  | nil => exact segment
  | cons cell cells => exact segment.1

theorem Segment.reenter
    (segment : Segment links before head cells none) (once : cells.Nodup) (before' : Option ι) :
    Segment (match head with | none => links | some first => setPrev links first before')
      before' head cells none := by
  cases cells with
  | nil => exact segment
  | cons cell cells =>
    obtain ⟨rfl, _, rest⟩ := segment
    dsimp only
    refine ⟨rfl, by rw [setPrev_same], ?_⟩
    rw [setPrev_same]
    apply rest.congr
    intro other member
    apply setPrev_other
    rintro rfl
    exact (nodup_cons.mp once).1 member

theorem Segment.restop {head stop : Option ι} (last : ι)
    (segment : Segment links none head (cells ++ [last]) stop) (once : (cells ++ [last]).Nodup)
    (stop' : Option ι) : Segment (setNext links last stop') none head (cells ++ [last]) stop' := by
  obtain ⟨middle, left, first, prev, _⟩ := segment_append.mp segment
  have apart : ∀ cell ∈ cells, cell ≠ last := by
    intro cell member same
    exact (nodup_append.mp once).2.2 cell member last mem_cons_self same
  apply segment_append.mpr
  refine ⟨middle, left.congr ?_, first, ?_, ?_⟩
  · intro cell member
    exact setNext_other _ _ _ _ (apart cell member)
  · rw [setNext_same]
    exact prev
  · rw [setNext_same]
    rfl

theorem bypassNext_other (links : Links ι) (cell other : ι)
    (notPrev : (links cell).prev ≠ some other) : bypassNext links cell other = links other := by
  unfold bypassNext
  cases prev : (links cell).prev with
  | none => rfl
  | some before =>
    apply setNext_other
    rintro rfl
    exact notPrev prev

theorem bypassPrev_other (links : Links ι) (cell other : ι)
    (notNext : (links cell).next ≠ some other) : bypassPrev links cell other = links other := by
  unfold bypassPrev
  cases next : (links cell).next with
  | none => rfl
  | some after =>
    apply setPrev_other
    rintro rfl
    exact notNext next

theorem unlink_other (links : Links ι) (cell other : ι) (different : other ≠ cell)
    (apart : (links cell).prev ≠ some cell) (notPrev : (links cell).prev ≠ some other)
    (notNext : (links cell).next ≠ some other) : unlink links cell other = links other := by
  have here := bypassNext_other links cell cell apart
  rw [unlink, update_of_ne different, bypassPrev_other _ _ _ (by rw [here]; exact notNext),
    bypassNext_other _ _ _ notPrev]

section Threaded

variable (threaded : Threaded links head cells)
include threaded

theorem Threaded.neighbours (cell : ι) (member : cell ∈ cells) :
    (∀ before, (links cell).prev = some before → before ∈ cells ∧ before ≠ cell) ∧
      (∀ after, (links cell).next = some after → after ∈ cells ∧ after ≠ cell) := by
  obtain ⟨front, back, rfl, _, notFront, notBack, _, prev, right⟩ := threaded.split cell member
  constructor
  · intro before known
    rw [prev] at known
    have inside := mem_of_getLast? known
    refine ⟨mem_append_left _ inside, ?_⟩
    rintro rfl
    exact notFront inside
  · intro after known
    rw [right.head_eq] at known
    have inside := mem_of_head? known
    refine ⟨mem_append_right _ (mem_cons_of_mem _ inside), ?_⟩
    rintro rfl
    exact notBack inside

theorem Threaded.unlink_outside (cell : ι) (member : cell ∈ cells) (other : ι)
    (outside : other ∉ cells) : unlink links cell other = links other := by
  obtain ⟨before, after⟩ := threaded.neighbours cell member
  apply unlink_other
  · rintro rfl
    exact outside member
  · intro known
    exact (before cell known).2 rfl
  · intro known
    exact outside (before other known).1
  · intro known
    exact outside (after other known).1

/-- A cell is taken out from any place. -/
theorem Threaded.unlink (cell : ι) (member : cell ∈ cells) :
    Threaded (unlink links cell) (unlinkHead links head cell) (cells.erase cell) := by
  refine ⟨?_, threaded.once.erase cell⟩
  obtain ⟨before, after⟩ := threaded.neighbours cell member
  have once := threaded.once
  obtain ⟨front, back, rfl, rest, notFront, notBack, left, prev, right⟩ :=
    threaded.split cell member
  rw [rest]
  rw [nodup_append, nodup_cons] at once
  obtain ⟨frontOnce, ⟨_, backOnce⟩, apart⟩ := once
  have here : bypassNext links cell cell = links cell :=
    bypassNext_other _ _ _ (fun known => (before cell known).2 rfl)
  -- The part behind the cell is entered from the cell's predecessor.
  have tail : Segment (LinkedList.unlink links cell) front.getLast?
      (links cell).next back none := by
    have same : ∀ other ∈ back, bypassNext links cell other = links other := by
      intro other inside
      apply bypassNext_other
      rw [prev]
      intro known
      exact apart other (mem_of_getLast? known) other (mem_cons_of_mem _ inside) rfl
    have entered := (right.congr same).reenter backOnce front.getLast?
    have bypass : (match (links cell).next with
        | none => bypassNext links cell
        | some first => setPrev (bypassNext links cell) first front.getLast?) =
        bypassPrev (bypassNext links cell) cell := by
      rw [bypassPrev, here, prev]
    rw [bypass] at entered
    apply entered.congr
    intro other inside
    rw [LinkedList.unlink, update_of_ne]
    rintro rfl
    exact notBack inside
  apply segment_append.mpr
  refine ⟨(links cell).next, ?_, by rw [Option.or_none]; exact tail⟩
  -- The part in front of the cell now stops at the cell's successor.
  rcases eq_nil_or_concat front with rfl | ⟨earlier, last, rfl⟩
  · rw [unlinkHead, prev]
    rfl
  rw [concat_eq_append] at *
  have known : (links cell).prev = some last := by
    rw [prev]
    simp
  have stopped := left.restop last frontOnce (links cell).next
  rw [unlinkHead, known]
  apply stopped.congr
  intro other inside
  have notCell : other ≠ cell := by
    rintro rfl
    exact notFront inside
  rw [LinkedList.unlink, update_of_ne notCell, bypassPrev_other, bypassNext, known]
  rw [here, right.head_eq]
  intro first
  exact apart other inside other (mem_cons_of_mem _ (mem_of_head? first)) rfl

end Threaded

theorem Threaded.unlinkTail {head tail : Option ι}
    (threaded : Threaded links head cells) (last : tail = cells.getLast?) (cell : ι)
    (member : cell ∈ cells) : unlinkTail links tail cell = (cells.erase cell).getLast? := by
  obtain ⟨before, _⟩ := threaded.neighbours cell member
  obtain ⟨front, back, rfl, rest, _, _, _, prev, right⟩ := threaded.split cell member
  rw [LinkedList.unlinkTail, bypassNext_other _ _ _ (fun known => (before cell known).2 rfl),
    right.head_eq, prev, rest, last]
  cases back with
  | nil => simp
  | cons first back =>
    rw [getLast?_append, getLast?_append]
    simp [getLast?_cons]

omit [DecidableEq ι] in
theorem Segment.listed (segment : Segment links before head cells none) :
    NullTerminated.Listed (fun cell => (links cell).next) head cells := by
  induction cells generalizing before head with
  | nil => exact segment
  | cons cell cells ih =>
    obtain ⟨first, _, rest⟩ := segment
    exact ⟨first, ih rest⟩

omit [DecidableEq ι] in
theorem Threaded.follow_iff (threaded : Threaded links head cells) (cell : ι) :
    (∃ steps, NullTerminated.follow (fun cell => (links cell).next) steps head = some cell) ↔
    cell ∈ cells := by
  rw [mem_iff_getElem?]
  simp only [threaded.segment.listed.follow_eq]

end LinkedList
