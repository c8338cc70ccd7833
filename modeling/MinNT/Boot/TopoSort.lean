import Mathlib.Data.Set.Finite.Basic
import MinNT.Boot.Registered
import MinNT.Lib.DependencyOrder

namespace MinNT.Boot

open List DependencyOrder Relation

/-- A subsystem of the profile names another one as a dependency. -/
def Needs (registry : Registry) (i j : Nat) : Prop :=
  inProfile registry i = true ∧ inProfile registry j = true ∧
    some (registry j).name ∈ (registry i).deps

/-- No dependency list names a subsystem twice. -/
def NamesOnce (registry : Registry) : Prop :=
  ∀ i j, (registry i).inUse = true → (registry j).inUse = true →
    (registry i).deps.count (some (registry j).name) ≤ 1

/-- Each position holds the lowest phase among the subsystems whose dependencies
are all listed before, the first registered among equals. -/
def LowestFirst (registry : Registry) (order : List Nat) : Prop :=
  ∀ front i back, order = front ++ i :: back → ∀ j, inProfile registry j = true → j ∉ front →
    (∀ dep, Needs registry j dep → dep ∈ front) →
    (registry i).phase < (registry j).phase ∨ (registry i).phase = (registry j).phase ∧ i ≤ j

/-- A dependency on a subsystem of the profile that is not listed yet. -/
def pending (registry : Registry) (order : List Nat) (depName : Option CString) : Bool :=
  match bootFindRec registry depName with
  | some dep => (registry dep).shouldInit && !order.contains dep
  | none => false

section Lookup

variable {registry : Registry}

theorem bootFindRec_eq (marked : Marked registry) (depName : Option CString) (j : Nat) :
    bootFindRec registry depName = some j ↔
      (registry j).inUse = true ∧ depName = some (registry j).name := by
  cases depName with
  | none => simp [bootFindRec]
  | some name =>
    constructor
    · intro found
      have test := find?_some found
      rw [Bool.and_eq_true] at test
      refine ⟨test.1, ?_⟩
      rw [(sameName_iff (marked.short j test.1)).mp test.2]
    · rintro ⟨used, same⟩
      cases same
      rw [bootFindRec]
      cases found : slots.find? (fun i =>
          (registry i).inUse && sameName (registry i).name (registry j).name bootMaxName 0) with
      | none =>
        rw [find?_eq_none] at found
        have misses := found j (mem_slots.mpr (marked.used j used))
        rw [used, (sameName_iff (marked.short j used)).mpr rfl] at misses
        exact absurd rfl misses
      | some i =>
        have test := find?_some found
        rw [Bool.and_eq_true] at test
        have same := (sameName_iff (marked.short i test.1)).mp test.2
        rw [marked.once i j test.1 used same]

theorem inProfile_used {i : Nat} (inside : inProfile registry i = true) :
    (registry i).inUse = true := by
  rw [inProfile, Bool.and_eq_true] at inside
  exact inside.1

theorem inProfile_should {i : Nat} (inside : inProfile registry i = true) :
    (registry i).shouldInit = true := by
  rw [inProfile, Bool.and_eq_true] at inside
  exact inside.2

theorem countedDep_eq (depName : Option CString) :
    countedDep registry depName = pending registry [] depName := by
  rw [countedDep, pending]
  cases bootFindRec registry depName with
  | none => rfl
  | some dep => simp

theorem countP_pending (deps : List (Option CString)) {order : List Nat} {best : Nat}
    (should : (registry best).shouldInit = true) (fresh : best ∉ order) :
    deps.countP (pending registry order) =
      deps.countP (pending registry (order ++ [best])) +
        deps.countP (fun depName => bootFindRec registry depName == some best) := by
  induction deps with
  | nil => rfl
  | cons depName deps ih =>
    simp only [countP_cons]
    have one : (if pending registry order depName = true then 1 else 0) =
        (if pending registry (order ++ [best]) depName = true then 1 else 0) +
          (if (bootFindRec registry depName == some best) = true then 1 else 0) := by
      rw [pending, pending]
      cases bootFindRec registry depName with
      | none => simp
      | some dep =>
        by_cases same : dep = best
        · subst dep
          simp [should, fresh]
        · simp [same]
    omega

theorem countP_pending_eq_zero (marked : Marked registry) {i : Nat} {order : List Nat}
    (inside : inProfile registry i = true) :
    (registry i).deps.countP (pending registry order) = 0 ↔
      ∀ j, Needs registry i j → j ∈ order := by
  rw [countP_eq_zero]
  constructor
  · intro none j need
    have found := (bootFindRec_eq marked (some (registry j).name) j).mpr
      ⟨inProfile_used need.2.1, rfl⟩
    have settled := none _ need.2.2
    rw [pending, found] at settled
    simpa [inProfile_should need.2.1] using settled
  · intro ready depName member isPending
    rw [pending] at isPending
    split at isPending
    · rename_i dep found
      rw [Bool.and_eq_true] at isPending
      obtain ⟨used, same⟩ := (bootFindRec_eq marked depName dep).mp found
      have profile : inProfile registry dep = true := by
        rw [inProfile, used, isPending.1, Bool.and_self]
      have listed := ready dep ⟨inside, profile, same ▸ member⟩
      simp [listed] at isPending
    · cases isPending

end Lookup

/-- A subsystem that may be listed next. -/
structure Candidate (registry : Registry) (state : SortState) (i : Nat) : Prop where
  profile : inProfile registry i = true
  fresh : state.emitted i = false
  ready : state.indegree i = 0

/-- What the search has found among the slots it has seen. -/
def BestOf (registry : Registry) (state : SortState) (seen : List Nat)
    (best : Option Nat × Nat) : Prop :=
  match best.1 with
  | none => best.2 = 2 ^ 32 - 1 ∧ ∀ i ∈ seen, ¬ Candidate registry state i
  | some i => i ∈ seen ∧ Candidate registry state i ∧ best.2 = (registry i).phase ∧
      ∀ j ∈ seen, Candidate registry state j →
        (registry i).phase < (registry j).phase ∨ (registry i).phase = (registry j).phase ∧ i ≤ j

section Search

variable {registry : Registry} {state : SortState}

theorem candidate_iff (i : Nat) :
    (inProfile registry i && !state.emitted i && state.indegree i == 0) = true ↔
      Candidate registry state i := by
  simp only [Bool.and_eq_true, Bool.not_eq_true', beq_iff_eq]
  constructor
  · rintro ⟨⟨profile, fresh⟩, ready⟩
    exact ⟨profile, fresh, ready⟩
  · intro candidate
    exact ⟨⟨candidate.profile, candidate.fresh⟩, candidate.ready⟩

/-- One more slot considered. -/
theorem BestOf.step (marked : Marked registry) {seen : List Nat} {best : Option Nat × Nat} {i : Nat}
    (found : BestOf registry state seen best) (later : ∀ j ∈ seen, j < i) :
    BestOf registry state (seen ++ [i]) (considerSlot registry state best i) := by
  have test := @candidate_iff registry state i
  obtain ⟨first, phase⟩ := best
  rw [considerSlot]
  by_cases candidate : Candidate registry state i
  · rw [test.mpr candidate, Bool.true_and]
    by_cases lower : (registry i).phase < phase
    · rw [if_pos (decide_eq_true lower)]
      refine ⟨mem_append_right _ mem_cons_self, candidate, rfl, ?_⟩
      intro j member other
      rcases mem_append.mp member with old | last
      · left
        cases first with
        | none => exact absurd other (found.2 j old)
        | some k =>
          have least := found.2.2.2 j old other
          have isPhase : phase = (registry k).phase := found.2.2.1
          omega
      · rw [mem_singleton.mp last]
        exact Or.inr ⟨rfl, Nat.le_refl i⟩
    · rw [if_neg (by simpa using lower)]
      cases first with
      | none =>
        have isPhase : phase = 2 ^ 32 - 1 := found.1
        have small := marked.small i
        omega
      | some k =>
        obtain ⟨member, candidateFirst, isPhase, least⟩ := found
        refine ⟨mem_append_left _ member, candidateFirst, isPhase, ?_⟩
        intro j inside other
        rcases mem_append.mp inside with old | last
        · exact least j old other
        · have before := later k member
          have isPhase : phase = (registry k).phase := isPhase
          rw [mem_singleton.mp last]
          omega
  · have fails : ¬ (inProfile registry i && !state.emitted i && state.indegree i == 0 &&
        decide ((registry i).phase < phase)) = true := by
      rw [Bool.and_eq_true, test]
      exact fun both => candidate both.1
    rw [if_neg fails]
    have others : ∀ j ∈ seen ++ [i], Candidate registry state j → j ∈ seen := by
      intro j member other
      rcases mem_append.mp member with old | last
      · exact old
      · rw [mem_singleton.mp last] at other
        exact absurd other candidate
    cases first with
    | none => exact ⟨found.1, fun j member other => found.2 j (others j member other) other⟩
    | some k =>
      obtain ⟨member, candidateFirst, isPhase, least⟩ := found
      exact ⟨mem_append_left _ member, candidateFirst, isPhase,
        fun j inside other => least j (others j inside other) other⟩

theorem bestOf_range (marked : Marked registry) (count : Nat) :
    BestOf registry state (range count)
      ((range count).foldl (considerSlot registry state) (none, 2 ^ 32 - 1)) := by
  induction count with
  | zero => exact ⟨rfl, fun i member => absurd member not_mem_nil⟩
  | succ count ih =>
    rw [range_succ, foldl_append, foldl_cons, foldl_nil]
    exact ih.step marked (fun j member => mem_range.mp member)

theorem bestOf_slots (marked : Marked registry) :
    BestOf registry state slots (slots.foldl (considerSlot registry state) (none, 2 ^ 32 - 1)) :=
  bestOf_range marked bootMaxSubsystems

theorem candidate_slot (marked : Marked registry) {i : Nat}
    (candidate : Candidate registry state i) : i ∈ slots :=
  mem_slots.mpr (marked.used i (inProfile_used candidate.profile))

theorem findBest_none (marked : Marked registry) (none : findBest registry state = none) (i : Nat) :
    ¬ Candidate registry state i := by
  have best := @bestOf_slots registry state marked
  rw [findBest] at none
  rw [BestOf, none] at best
  exact fun candidate => best.2 i (candidate_slot marked candidate) candidate

theorem findBest_some (marked : Marked registry) {i : Nat}
    (found : findBest registry state = some i) :
    Candidate registry state i ∧ ∀ j, Candidate registry state j →
      (registry i).phase < (registry j).phase ∨
        (registry i).phase = (registry j).phase ∧ i ≤ j := by
  have best := @bestOf_slots registry state marked
  rw [findBest] at found
  rw [BestOf, found] at best
  exact ⟨best.2.1, fun j candidate => best.2.2.2 j (candidate_slot marked candidate) candidate⟩

end Search

/-- What holds whenever the loop looks for the next subsystem. -/
structure Sorting (registry : Registry) (state : SortState) : Prop where
  emitted : ∀ i, state.emitted i = true ↔ i ∈ state.order
  once : state.order.Nodup
  profile : ∀ i ∈ state.order, inProfile registry i = true
  behind : Behind (Needs registry) state.order
  lowest : LowestFirst registry state.order
  indegree : ∀ i, inProfile registry i = true → i ∉ state.order →
    state.indegree i = (registry i).deps.countP (pending registry state.order)

section Loop

variable {registry : Registry} {state : SortState}

theorem sorting_initial (registry : Registry) : Sorting registry (initialSort registry) := by
  refine ⟨?_, nodup_nil, ?_, behind_nil, ?_, ?_⟩
  · intro i
    simp [initialSort]
  · exact fun i member => absurd member not_mem_nil
  · intro front i back shape
    simp [initialSort] at shape
  · intro i profile _
    simp only [initialSort, profile, if_true]
    exact List.countP_congr (fun depName _ => by rw [countedDep_eq])

theorem Sorting.candidate_iff (sorting : Sorting registry state) (marked : Marked registry)
    (i : Nat) :
    Candidate registry state i ↔ inProfile registry i = true ∧ i ∉ state.order ∧
      ∀ j, Needs registry i j → j ∈ state.order := by
  constructor
  · intro candidate
    have fresh : i ∉ state.order := by
      rw [← sorting.emitted i, candidate.fresh]
      exact Bool.false_ne_true
    refine ⟨candidate.profile, fresh, ?_⟩
    apply (countP_pending_eq_zero marked candidate.profile).mp
    rw [← sorting.indegree i candidate.profile fresh]
    exact candidate.ready
  · rintro ⟨profile, fresh, ready⟩
    refine ⟨profile, ?_, ?_⟩
    · rw [← sorting.emitted i] at fresh
      exact Bool.eq_false_iff.mpr fresh
    · rw [sorting.indegree i profile fresh]
      exact (countP_pending_eq_zero marked profile).mpr ready

theorem lowestFirst_append {order : List Nat} {best : Nat} (lowest : LowestFirst registry order)
    (least : ∀ j, inProfile registry j = true → j ∉ order →
      (∀ dep, Needs registry j dep → dep ∈ order) →
      (registry best).phase < (registry j).phase ∨
        (registry best).phase = (registry j).phase ∧ best ≤ j) :
    LowestFirst registry (order ++ [best]) := by
  intro front i back shape
  rcases append_singleton_split shape with ⟨_, same, isBest⟩ | ⟨rest, _, same⟩
  · rw [same, isBest]
    exact least
  · exact lowest front i rest same

theorem countP_finds (marked : Marked registry) (namesOnce : NamesOnce registry) {i best : Nat}
    (used : (registry i).inUse = true) (usedBest : (registry best).inUse = true) :
    (registry i).deps.countP (fun depName => bootFindRec registry depName == some best) =
      if (registry i).deps.any (fun depName =>
        depName.isSome && bootFindRec registry depName == some best) then 1 else 0 := by
  have test : ∀ depName, (bootFindRec registry depName == some best) = true ↔
      (depName == some (registry best).name) = true := by
    intro depName
    rw [beq_iff_eq, beq_iff_eq, bootFindRec_eq marked]
    exact and_iff_right usedBest
  have atMost := namesOnce i best used usedBest
  rw [List.countP_congr (fun depName _ => test depName)]
  rw [List.count] at atMost
  split
  · rename_i found
    obtain ⟨depName, member, hit⟩ := any_eq_true.mp found
    rw [Bool.and_eq_true] at hit
    have positive : 0 < (registry i).deps.countP (· == some (registry best).name) :=
      countP_pos_iff.mpr ⟨depName, member, (test depName).mp hit.2⟩
    omega
  · rename_i missing
    rw [countP_eq_zero]
    intro depName member hit
    apply missing
    rw [any_eq_true]
    refine ⟨depName, member, ?_⟩
    rw [Bool.and_eq_true]
    refine ⟨?_, (test depName).mpr hit⟩
    rw [beq_iff_eq.mp hit]
    rfl

/-- The best subsystem that is ready is sorted next. -/
theorem Sorting.emit (sorting : Sorting registry state) (marked : Marked registry)
    (namesOnce : NamesOnce registry) {best : Nat} (found : findBest registry state = some best) :
    Sorting registry (emit registry state best) := by
  obtain ⟨candidate, least⟩ := findBest_some marked found
  obtain ⟨profile, fresh, ready⟩ := (sorting.candidate_iff marked best).mp candidate
  refine ⟨?_, ?_, ?_, sorting.behind.append ready, ?_, ?_⟩
  · intro i
    simp only [MinNT.Boot.emit, mem_append, mem_singleton]
    by_cases same : i = best
    · subst i
      simp
    · rw [Function.update_of_ne same, sorting.emitted i]
      simp [same]
  · rw [MinNT.Boot.emit, nodup_append]
    refine ⟨sorting.once, nodup_singleton best, ?_⟩
    intro i member last single same
    rw [mem_singleton.mp single] at same
    exact fresh (same ▸ member)
  · intro i member
    rcases mem_append.mp member with old | last
    · exact sorting.profile i old
    · rw [mem_singleton.mp last]
      exact profile
  · apply lowestFirst_append sorting.lowest
    intro j other absent needed
    exact least j ((sorting.candidate_iff marked j).mpr ⟨other, absent, needed⟩)
  · intro i other absent
    simp only [MinNT.Boot.emit, mem_append, mem_singleton, not_or] at absent
    have different : i ≠ best := absent.2
    have unlisted : state.emitted i = false := by
      rw [Bool.eq_false_iff]
      intro listed
      exact absent.1 ((sorting.emitted i).mp listed)
    have before := sorting.indegree i other absent.1
    rw [countP_pending _ (inProfile_should profile) fresh,
      countP_finds marked namesOnce (inProfile_used other) (inProfile_used profile)] at before
    simp only [MinNT.Boot.emit, Function.update_of_ne different, unlisted, other, Bool.not_false,
      Bool.true_and]
    split
    · rename_i names
      rw [if_pos names] at before
      rw [subtract32_of_le (by omega), before, Nat.add_sub_cancel]
    · rename_i others
      rw [if_neg others] at before
      exact before

theorem length_le_profile (marked : Marked registry) {order : List Nat} (once : order.Nodup)
    (profile : ∀ i ∈ order, inProfile registry i = true) :
    order.length ≤ slots.countP (inProfile registry) := by
  rw [countP_eq_length_filter]
  apply List.Subperm.length_le
  apply subperm_of_subset once
  intro i member
  rw [mem_filter]
  have inside := profile i member
  exact ⟨mem_slots.mpr (marked.used i (inProfile_used inside)), inside⟩

theorem sortLoop_ends (marked : Marked registry) (namesOnce : NamesOnce registry) {n fuel : Nat}
    (all : n = slots.countP (inProfile registry)) (sorting : Sorting registry state)
    (enough : n < fuel + state.order.length) :
    ∃ last, sortLoop registry n fuel state = some last ∧ Sorting registry last ∧
      (last.order.length < n → findBest registry last = none) := by
  induction fuel generalizing state with
  | zero =>
    have bound := length_le_profile marked sorting.once sorting.profile
    omega
  | succ fuel ih =>
    rw [sortLoop]
    by_cases more : state.order.length < n
    · rw [if_pos more]
      cases found : findBest registry state with
      | none => exact ⟨state, rfl, sorting, fun _ => found⟩
      | some best =>
        apply ih (sorting.emit marked namesOnce found)
        simp only [MinNT.Boot.emit, length_append, length_singleton]
        omega
    · rw [if_neg more]
      exact ⟨state, rfl, sorting, fun less => absurd less more⟩

theorem sortLoop_more {n fuel more : Nat} {last : SortState}
    (done : sortLoop registry n fuel state = some last) (enough : fuel ≤ more) :
    sortLoop registry n more state = some last := by
  induction fuel generalizing state more with
  | zero => cases done
  | succ fuel ih =>
    obtain ⟨rest, rfl⟩ : ∃ rest, more = rest + 1 := ⟨more - 1, by omega⟩
    rw [sortLoop] at done ⊢
    split at done
    · rename_i less
      rw [if_pos less]
      cases found : findBest registry state with
      | none =>
        rw [found] at done
        exact done
      | some best =>
        rw [found] at done
        exact ih done (by omega)
    · rename_i full
      rw [if_neg full]
      exact done

end Loop

/-- The sort returns, succeeds exactly when there is no cycle in the profile, and
then lists every subsystem of the profile in dependency order, lowest phase first. -/
def SortsInOrder (registry : Registry) : Prop :=
  ∃ status order count dump,
    (∃ enough, ∀ fuel, enough ≤ fuel →
      bootTopoSort registry fuel = .returned status order count dump) ∧
    (ntSuccess status = true ↔ Acyclic (Needs registry)) ∧
    (ntSuccess status = true → count = some order.length ∧ order.Nodup ∧
      (∀ i, i ∈ order ↔ inProfile registry i = true) ∧ Behind (Needs registry) order ∧
      LowestFirst registry order)

section Order

variable {registry : Registry}

theorem acyclic_of_noCycle (noCycle : ∀ i, inProfile registry i = true →
    ¬ LeadsToCycle (Needs registry) i) : Acyclic (Needs registry) := by
  intro i cycle
  obtain ⟨j, need, _⟩ := TransGen.head'_iff.mp cycle
  exact noCycle i need.1 ⟨i, .refl, cycle⟩

theorem leadsToCycle_of_none {state : SortState} (marked : Marked registry)
    (sorting : Sorting registry state) (none : findBest registry state = none) {i : Nat}
    (profile : inProfile registry i = true) (left : i ∉ state.order) :
    LeadsToCycle (Needs registry) i := by
  have finite : {j | inProfile registry j = true ∧ j ∉ state.order}.Finite := by
    apply (Finset.range bootMaxSubsystems).finite_toSet.subset
    intro j member
    exact Finset.mem_coe.mpr (Finset.mem_range.mpr (marked.used j (inProfile_used member.1)))
  refine leadsToCycle_of_stuck finite ?_ ⟨profile, left⟩
  intro j stuck
  have notReady : ¬ ∀ dep, Needs registry j dep → dep ∈ state.order := by
    intro ready
    exact findBest_none marked none j
      ((sorting.candidate_iff marked j).mpr ⟨stuck.1, stuck.2, ready⟩)
  simp only [not_forall] at notReady
  obtain ⟨dep, need, absent⟩ := notReady
  exact ⟨dep, ⟨need.2.1, absent⟩, need⟩

/-- The sort ends, and leaves out what leads to a cycle. -/
theorem sort_ends (marked : Marked registry) (namesOnce : NamesOnce registry) :
    ∃ last, (∀ fuel, slots.countP (inProfile registry) < fuel →
        sortLoop registry (slots.countP (inProfile registry)) fuel (initialSort registry) =
          some last) ∧
      Sorting registry last ∧
      ∀ i, inProfile registry i = true → (i ∉ last.order ↔ LeadsToCycle (Needs registry) i) := by
  have start := sorting_initial registry
  obtain ⟨last, done, sorting, ended⟩ := sortLoop_ends marked namesOnce rfl start
    (Nat.lt_of_lt_of_le (Nat.lt_succ_self _) (Nat.le_add_right _ _))
  refine ⟨last, fun fuel enough => sortLoop_more done enough, sorting, ?_⟩
  intro i profile
  constructor
  · intro left
    apply leadsToCycle_of_none marked sorting (ended _) profile left
    apply length_le_profile marked (nodup_cons.mpr ⟨left, sorting.once⟩)
    intro j member
    rcases mem_cons.mp member with same | listed
    · rw [same]
      exact profile
    · exact sorting.profile j listed
  · intro cycle listed
    exact sorting.behind.noCycle listed cycle

theorem all_listed_iff {last : SortState} (marked : Marked registry)
    (sorting : Sorting registry last) :
    last.order.length = slots.countP (inProfile registry) ↔
      ∀ i, inProfile registry i = true → i ∈ last.order := by
  constructor
  · intro full i profile
    by_contra left
    have longer := length_le_profile marked (nodup_cons.mpr ⟨left, sorting.once⟩) (by
      intro j member
      rcases mem_cons.mp member with same | listed
      · rw [same]
        exact profile
      · exact sorting.profile j listed)
    rw [length_cons] at longer
    omega
  · intro all
    apply Nat.le_antisymm (length_le_profile marked sorting.once sorting.profile)
    rw [countP_eq_length_filter]
    apply List.Subperm.length_le
    apply subperm_of_subset (nodup_range.filter _)
    intro i member
    exact all i (mem_filter.mp member).2

theorem dump_iff (state : SortState) (stuck : List Nat) :
    (∃ dump, stuck.mapM (stuckSubsystem registry state) = some dump) ↔
      ∀ i ∈ stuck, (registry i).phase < 4 := by
  induction stuck with
  | nil => simp
  | cons i stuck ih =>
    rw [mapM_cons, forall_mem_cons, ← ih]
    have entry : (∃ line, stuckSubsystem registry state i = some line) ↔
        (registry i).phase < 4 := by
      rw [← Option.isSome_iff_exists, stuckSubsystem, Option.isSome_map]
      simp [phaseNames]
    rw [← entry]
    cases stuckSubsystem registry state i with
    | none => simp
    | some line =>
      cases stuck.mapM (stuckSubsystem registry state) with
      | none => simp
      | some dump => simp

/-- The slots the dump of a failed sort goes through. -/
def stuckSlots (registry : Registry) (state : SortState) : List Nat :=
  slots.filter fun i => inProfile registry i && !state.emitted i

theorem mem_stuckSlots {last : SortState} (marked : Marked registry)
    (sorting : Sorting registry last) {i : Nat} :
    i ∈ stuckSlots registry last ↔ inProfile registry i = true ∧ i ∉ last.order := by
  rw [stuckSlots, mem_filter, Bool.and_eq_true, Bool.not_eq_true', ← sorting.emitted i,
    Bool.not_eq_true]
  constructor
  · exact fun member => member.2
  · intro stuck
    exact ⟨mem_slots.mpr (marked.used i (inProfile_used stuck.1)), stuck⟩

section Results

variable {last : SortState} {fuel : Nat}
  (done : sortLoop registry (slots.countP (inProfile registry)) fuel (initialSort registry) =
    some last)

include done

theorem bootTopoSort_full (full : last.order.length = slots.countP (inProfile registry)) :
    bootTopoSort registry fuel =
      .returned statusSuccess last.order (some last.order.length) [] := by
  rw [bootTopoSort]
  by_cases none : slots.countP (inProfile registry) = 0
  · have empty : last.order = [] := eq_nil_of_length_eq_zero (full.trans none)
    simp only [none, if_true, empty, length_nil]
  · simp only [none, if_false, done, full, ne_eq, not_true_eq_false]

theorem bootTopoSort_stuck (bound : last.order.length ≤ slots.countP (inProfile registry))
    (notFull : last.order.length ≠ slots.countP (inProfile registry)) :
    bootTopoSort registry fuel =
      match (stuckSlots registry last).mapM (stuckSubsystem registry last) with
      | some dump => .returned statusUnsuccessful last.order none dump
      | none => .faulted := by
  have some : slots.countP (inProfile registry) ≠ 0 := by omega
  rw [bootTopoSort]
  simp only [some, if_false, done, notFull, ne_eq, not_false_eq_true, if_true]
  rfl

end Results

end Order

theorem bootTopoSort_more {registry : Registry} {fuel more : Nat}
    (ended : bootTopoSort registry fuel ≠ .unfinished) (enough : fuel ≤ more) :
    bootTopoSort registry more = bootTopoSort registry fuel := by
  rw [bootTopoSort, bootTopoSort] at *
  split
  · rfl
  rename_i some
  simp only [some, if_false] at ended
  cases done : sortLoop registry (slots.countP (inProfile registry)) fuel
      (initialSort registry) with
  | none =>
    rw [done] at ended
    exact absurd rfl ended
  | some last => rw [sortLoop_more done enough]

def nameA : CString := ⟨[0x41], by decide⟩
def nameB : CString := ⟨[0x42], by decide⟩

/-- Subsystem A of some phase and subsystem B of phase 1. -/
def cycleOfTwo (phase : Nat) : Registry :=
  (bootRegisterSubsystemEx
    (bootRegisterSubsystemEx (fun _ => zeroedRec) (some nameA) (some 1) [some nameB] phase).2
    (some nameB) (some 1) [some nameA] 1).2

theorem cycleOfTwo_built {phase : Nat} (small : phase < 2 ^ 32 - 1) :
    Built (cycleOfTwo phase) [nameA, nameB] := by
  have first : Built _ [nameA] := .taken .zeroed nameA 1 [some nameB] phase (by decide) small
    (Prod.ext (by rfl) rfl)
  exact first.taken nameB 1 [some nameA] 1 (by decide) (by decide) (Prod.ext (by rfl) rfl)

theorem bootRegisterSubsystemEx_all (holds : BootSubsystemRec → Prop) {registry : Registry}
    {deps : List (Option CString)} {phase : Nat} (old : ∀ i, holds (registry i))
    (new : ∀ name init, holds ⟨name, some init, deps, phase, false, true⟩)
    (name : Option CString) (init : Option Nat) (i : Nat) :
    holds ((bootRegisterSubsystemEx registry name init deps phase).2 i) := by
  unfold bootRegisterSubsystemEx
  split
  · split
    · exact old i
    split
    · exact old i
    · split
      · simp only [Function.update_apply]
        split
        · exact new _ _
        · exact old i
      · exact old i
  · exact old i

theorem cycleOfTwo_records (phase i : Nat) :
    (cycleOfTwo phase i).deps.length ≤ 1 ∧ (cycleOfTwo phase i).phase ≤ max phase 1 := by
  apply bootRegisterSubsystemEx_all fun record =>
    record.deps.length ≤ 1 ∧ record.phase ≤ max phase 1
  · apply bootRegisterSubsystemEx_all fun record =>
      record.deps.length ≤ 1 ∧ record.phase ≤ max phase 1
    · exact fun _ => ⟨Nat.zero_le _, Nat.zero_le _⟩
    · exact fun _ _ => ⟨le_refl 1, Nat.le_max_left phase 1⟩
  · exact fun _ _ => ⟨le_refl 1, Nat.le_max_right phase 1⟩

theorem cycleOfTwo_namesOnce (phase : Nat) (allows : CString → Bool) :
    NamesOnce (bootMarkShouldInit allows (cycleOfTwo phase)) := by
  intro i j _ _
  rw [bootMarkShouldInit_same allows _ i]
  exact count_le_length.trans (cycleOfTwo_records phase i).1

/-- For every registry of registered subsystems and every profile the sort returns,
and is right, exactly when each subsystem of the profile that leads to a cycle has
one of the phases that have a name. -/
theorem bootTopoSort_iff {registry : Registry} {names : List CString} (built : Built registry names)
    (allows : CString → Bool) (namesOnce : NamesOnce (bootMarkShouldInit allows registry)) :
    SortsInOrder (bootMarkShouldInit allows registry) ↔
      ∀ i, inProfile (bootMarkShouldInit allows registry) i = true →
        LeadsToCycle (Needs (bootMarkShouldInit allows registry)) i →
        (bootMarkShouldInit allows registry i).phase < 4 := by
  have marked := built.registered.marked allows
  generalize bootMarkShouldInit allows registry = registry at marked namesOnce ⊢
  obtain ⟨last, done, sorting, left⟩ := sort_ends marked namesOnce
  have full := all_listed_iff marked sorting
  have acyclic : (∀ i, inProfile registry i = true → i ∈ last.order) ↔
      Acyclic (Needs registry) := by
    constructor
    · intro all
      apply acyclic_of_noCycle
      intro i profile cycle
      exact (left i profile).mpr cycle (all i profile)
    · intro none i profile
      by_contra absent
      obtain ⟨j, _, cycle⟩ := (left i profile).mp absent
      exact none j cycle
  have bound := length_le_profile marked sorting.once sorting.profile
  constructor
  · rintro ⟨status, order, count, dump, ⟨enough, returns⟩, _⟩ i profile cycle
    have absent := (left i profile).mpr cycle
    have notFull : last.order.length ≠ slots.countP (inProfile registry) :=
      fun same => absent (full.mp same i profile)
    have result := bootTopoSort_stuck
      (done (max enough (slots.countP (inProfile registry) + 1)) (by omega)) bound notFull
    rw [returns _ (by omega)] at result
    split at result
    · rename_i lines printed
      apply (dump_iff last (stuckSlots registry last)).mp ⟨lines, printed⟩
      exact (mem_stuckSlots marked sorting).mpr ⟨profile, absent⟩
    · cases result
  · intro named
    by_cases isFull : last.order.length = slots.countP (inProfile registry)
    · refine ⟨statusSuccess, last.order, some last.order.length, [],
        ⟨slots.countP (inProfile registry) + 1, ?_⟩, ?_, ?_⟩
      · exact fun fuel enough => bootTopoSort_full (done fuel enough) isFull
      · exact iff_of_true rfl (acyclic.mp (full.mp isFull))
      · intro _
        refine ⟨rfl, sorting.once, ?_, sorting.behind, sorting.lowest⟩
        exact fun i => ⟨sorting.profile i, full.mp isFull i⟩
    · obtain ⟨dump, printed⟩ := (dump_iff last (stuckSlots registry last)).mpr (by
        intro i member
        obtain ⟨profile, absent⟩ := (mem_stuckSlots marked sorting).mp member
        exact named i profile ((left i profile).mp absent))
      have failed : ¬ ntSuccess statusUnsuccessful = true := by decide
      refine ⟨statusUnsuccessful, last.order, none, dump,
        ⟨slots.countP (inProfile registry) + 1, ?_⟩, ?_, fun success => absurd success failed⟩
      · intro fuel enough
        rw [bootTopoSort_stuck (done fuel enough) bound isFull, printed]
      · apply iff_of_false failed
        exact fun none => isFull (full.mpr (acyclic.mpr none))

/-- A cycle of two subsystems with named phases is reported. -/
theorem bootTopoSort_iff_reported :
    SortsInOrder (bootMarkShouldInit (fun _ => true) (cycleOfTwo 0)) := by
  refine (bootTopoSort_iff (cycleOfTwo_built (by decide)) _ (cycleOfTwo_namesOnce 0 _)).mpr ?_
  intro i _ _
  rw [bootMarkShouldInit_same]
  have small := (cycleOfTwo_records 0 i).2
  exact Nat.lt_of_le_of_lt small (by decide)

/-- With phase 4 the dump of the same cycle reads behind the table of phase names. -/
theorem cycleOfTwo_faults :
    ∃ registry names allows, Built registry names ∧
      NamesOnce (bootMarkShouldInit allows registry) ∧
      ¬ SortsInOrder (bootMarkShouldInit allows registry) := by
  refine ⟨cycleOfTwo 4, _, fun _ => true, cycleOfTwo_built (by decide),
    cycleOfTwo_namesOnce 4 _, ?_⟩
  rintro ⟨status, order, count, dump, ⟨enough, returns⟩, _⟩
  have faults : bootTopoSort (bootMarkShouldInit (fun _ => true) (cycleOfTwo 4)) 3 = .faulted := by
    decide +kernel
  have more := bootTopoSort_more (by rw [faults]; simp) (Nat.le_max_left 3 enough)
  rw [returns _ (Nat.le_max_right 3 enough), faults] at more
  cases more

end MinNT.Boot
