import Mathlib.Data.List.Perm.Subperm

/-! Chains in a successor table: every cell names the next one, and a mark of the
table ends the chain. -/

namespace Chain

open List

/-- The table leads from `head` through `cells` to an end mark. -/
def Linked (next : Nat → Nat) (ends : Nat → Prop) : Nat → List Nat → Prop
  | head, [] => ends head
  | head, cell :: cells => head = cell ∧ Linked next ends (next cell) cells

variable {next next' : Nat → Nat} {ends : Nat → Prop} {head : Nat} {cells : List Nat}

theorem Linked.congr (linked : Linked next ends head cells)
    (same : ∀ cell ∈ cells, next' cell = next cell) : Linked next' ends head cells := by
  induction cells generalizing head with
  | nil => exact linked
  | cons cell cells ih =>
    refine ⟨linked.1, ?_⟩
    rw [same cell mem_cons_self]
    exact ih linked.2 (fun other member => same other (mem_cons_of_mem _ member))

variable {next : Nat → Nat}

theorem linked_singleton (cell : Nat)
    (last : ends (next cell)) : Linked next ends cell [cell] := ⟨rfl, last⟩

theorem Linked.next_get
    (linked : Linked next ends head cells) (index cell : Nat) (known : cells[index]? = some cell) :
    (∃ after, cells[index + 1]? = some after ∧ next cell = after) ∨
      (cells[index + 1]? = none ∧ ends (next cell)) := by
  induction cells generalizing head index with
  | nil => simp at known
  | cons first cells ih =>
    cases index with
    | zero =>
      have here : first = cell := by simpa using known
      subst first
      cases cells with
      | nil => exact .inr ⟨rfl, linked.2⟩
      | cons after cells => exact .inl ⟨after, rfl, linked.2.1⟩
    | succ index =>
      have later : cells[index]? = some cell := by simpa using known
      simpa using ih linked.2 index later

theorem Linked.head_eq {head first : Nat} (linked : Linked next ends head (first :: cells)) :
    head = first :=
  linked.1

theorem Linked.next_mem (linked : Linked next ends head cells) (cell : Nat)
    (member : cell ∈ cells) : next cell ∈ cells ∨ ends (next cell) := by
  obtain ⟨index, known⟩ := getElem?_of_mem member
  rcases linked.next_get index cell known with ⟨after, there, same⟩ | ⟨_, last⟩
  · rw [same]
    exact .inl (mem_of_getElem? there)
  · exact .inr last

theorem Linked.unique {cells cells' : List Nat} (linked : Linked next ends head cells)
    (linked' : Linked next ends head cells') (inner : ∀ cell ∈ cells, ¬ ends cell)
    (inner' : ∀ cell ∈ cells', ¬ ends cell) : cells = cells' := by
  induction cells generalizing head cells' with
  | nil =>
    cases cells' with
    | nil => rfl
    | cons cell' cells' =>
      rw [Linked, linked'.1] at linked
      exact absurd linked (inner' cell' mem_cons_self)
  | cons cell cells ih =>
    obtain ⟨rfl, rest⟩ := linked
    cases cells' with
    | nil => exact absurd linked' (inner head mem_cons_self)
    | cons cell' cells' =>
      obtain ⟨rfl, rest'⟩ := linked'
      rw [ih rest rest' (fun other member => inner other (mem_cons_of_mem _ member))
        (fun other member => inner' other (mem_cons_of_mem _ member))]

theorem Linked.prefix_of_inner {cells cells' : List Nat} (linked : Linked next ends head cells)
    (linked' : Linked next ends head cells') (inner : ∀ cell ∈ cells, ¬ ends cell) :
    cells <+: cells' := by
  induction cells generalizing head cells' with
  | nil => exact nil_prefix
  | cons cell cells ih =>
    obtain ⟨rfl, rest⟩ := linked
    cases cells' with
    | nil => exact absurd linked' (inner head mem_cons_self)
    | cons cell' cells' =>
      obtain ⟨rfl, rest'⟩ := linked'
      exact (prefix_cons_inj head).mpr
        (ih rest rest' (fun other member => inner other (mem_cons_of_mem _ member)))

theorem Linked.from_mem {head cell : Nat} (linked : Linked next ends head cells)
    (member : cell ∈ cells) :
    ∃ front back, cells = front ++ cell :: back ∧ Linked next ends cell (cell :: back) := by
  induction cells generalizing head with
  | nil => cases member
  | cons first cells ih =>
    obtain ⟨rfl, rest⟩ := linked
    rcases mem_cons.mp member with rfl | later
    · exact ⟨[], cells, rfl, rfl, rest⟩
    · obtain ⟨front, back, rfl, tail⟩ := ih rest later
      exact ⟨head :: front, back, rfl, tail⟩

theorem Linked.nodup (linked : Linked next ends head cells) (inner : ∀ cell ∈ cells, ¬ ends cell) :
    cells.Nodup := by
  induction cells generalizing head with
  | nil => exact nodup_nil
  | cons first cells ih =>
    have rest := ih linked.2 (fun other member => inner other (mem_cons_of_mem _ member))
    refine nodup_cons.mpr ⟨?_, rest⟩
    intro again
    obtain ⟨front, back, rfl, tail⟩ := linked.2.from_mem again
    have whole : Linked next ends first (first :: (front ++ first :: back)) := ⟨rfl, linked.2⟩
    have same := whole.unique tail inner (fun other member => inner other
      (mem_cons_of_mem _ (mem_append_right _ member)))
    have lengths := congrArg List.length same
    simp only [length_cons, length_append] at lengths
    omega

theorem Linked.extend {head last cell : Nat} (linked : Linked next ends head (cells ++ [last]))
    (link : next' last = cell) (mark : ends (next' cell))
    (same : ∀ other ∈ cells, next' other = next other) :
    Linked next' ends head (cells ++ [last] ++ [cell]) := by
  induction cells generalizing head with
  | nil => exact ⟨linked.1, link, mark⟩
  | cons first cells ih =>
    refine ⟨linked.1, ?_⟩
    rw [same first mem_cons_self]
    exact ih linked.2 (fun other member => same other (mem_cons_of_mem _ member))

/-- The table leads from `head` through `cells` to `stop`. -/
def Path (next : Nat → Nat) : Nat → List Nat → Nat → Prop
  | head, [], stop => head = stop
  | head, cell :: cells, stop => head = cell ∧ Path next (next cell) cells stop

theorem Path.congr {head stop : Nat} (path : Path next head cells stop)
    (same : ∀ cell ∈ cells, next' cell = next cell) : Path next' head cells stop := by
  induction cells generalizing head with
  | nil => exact path
  | cons cell cells ih =>
    refine ⟨path.1, ?_⟩
    rw [same cell mem_cons_self]
    exact ih path.2 (fun other member => same other (mem_cons_of_mem _ member))

theorem linked_append {front back : List Nat} :
    Linked next ends head (front ++ back) ↔
      ∃ middle, Path next head front middle ∧ Linked next ends middle back := by
  induction front generalizing head with
  | nil => simp [Path]
  | cons cell front ih =>
    simp only [cons_append, Linked, Path, ih]
    constructor
    · intro linked
      obtain ⟨first, middle, path, rest⟩ := linked
      exact ⟨middle, ⟨first, path⟩, rest⟩
    · intro linked
      obtain ⟨middle, ⟨first, path⟩, rest⟩ := linked
      exact ⟨first, middle, path, rest⟩

theorem Path.restop {head stop stop' last : Nat} (path : Path next head (cells ++ [last]) stop)
    (same : ∀ cell ∈ cells, next' cell = next cell) (link : next' last = stop') :
    Path next' head (cells ++ [last]) stop' := by
  induction cells generalizing head with
  | nil => exact ⟨path.1, link⟩
  | cons cell cells ih =>
    refine ⟨path.1, ?_⟩
    rw [same cell mem_cons_self]
    exact ih path.2 (fun other member => same other (mem_cons_of_mem _ member))

/-- Taking one cell out of a chain, or putting others in its place. The cell in
front of it, or else the head, is redirected to what follows. -/
theorem Linked.relink {head head' cell target : Nat} {front back rest : List Nat}
    (linked : Linked next ends head (front ++ cell :: back)) (once : front.Nodup)
    (follow : Linked next' ends target rest)
    (same : ∀ other ∈ front, front.getLast? ≠ some other → next' other = next other)
    (link : ∀ last, front.getLast? = some last → next' last = target)
    (start : head' = if front = [] then target else head) :
    Linked next' ends head' (front ++ rest) := by
  rcases eq_nil_or_concat front with rfl | ⟨cells, last, shape⟩
  · rw [if_pos rfl] at start
    rw [start]
    exact follow
  · rw [concat_eq_append] at shape
    subst front
    rw [if_neg (by simp)] at start
    rw [start]
    obtain ⟨middle, path, _⟩ := linked_append.mp linked
    apply linked_append.mpr
    refine ⟨target, path.restop ?_ (link last (by simp)), follow⟩
    intro other member
    apply same other (mem_append_left _ member)
    intro isLast
    have clash : last = other := by simpa using isLast
    rw [nodup_append] at once
    exact once.2.2 other member last (mem_singleton_self _) clash.symm

theorem length_le_of_nodup {bound : Nat} (once : cells.Nodup)
    (below : ∀ cell ∈ cells, cell < bound) : cells.length ≤ bound := by
  have inside : cells ⊆ range bound := by
    intro cell member
    exact mem_range.mpr (below cell member)
  simpa using (subperm_of_subset once inside).length_le

theorem countP_without (once : cells.Nodup) (accept : Nat → Bool) (cell : Nat)
    (member : cell ∈ cells) (accepted : accept cell = true) :
    cells.countP (fun other => accept other && other != cell) + 1 = cells.countP accept := by
  induction cells with
  | nil => cases member
  | cons first cells ih =>
    have split := nodup_cons.mp once
    rw [countP_cons, countP_cons]
    by_cases here : first = cell
    · subst first
      have rest : cells.countP (fun other => accept other && other != cell) =
          cells.countP accept := by
        apply List.countP_congr
        intro other inside
        have different : other ≠ cell := by
          intro same
          exact split.1 (same ▸ inside)
        simp [different]
      simp [rest, accepted]
    · have inside : cell ∈ cells := by
        rcases mem_cons.mp member with same | inside
        · exact absurd same.symm here
        · exact inside
      have rest := ih split.2 inside
      have keep : (accept first && first != cell) = accept first := by simp [here]
      rw [keep]
      omega

end Chain
