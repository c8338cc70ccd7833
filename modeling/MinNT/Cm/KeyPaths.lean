import Mathlib.Data.List.Induction
import MinNT.Cm.RegistryRun

namespace MinNT.Cm

open List

/-- The non-empty parts of a path between its backslashes. -/
def components (path : List WChar) : List (List WChar) :=
  (path.splitOn backslash).filter (fun part => part ≠ [])

/-- Nowhere in the path do two backslashes stand side by side. -/
def SingleBackslashes (path : List WChar) : Prop := ¬ [backslash, backslash] <:+: path

instance (path : List WChar) : Decidable (SingleBackslashes path) :=
  inferInstanceAs (Decidable (¬ _))

theorem components_of_notMem {path : List WChar} (clean : backslash ∉ path)
    (nonempty : path ≠ []) : components path = [path] := by
  rw [components, splitOn_eq_singleton clean]
  simp [nonempty]

variable {front : List WChar} {remaining : List WChar}

theorem components_split (clean : backslash ∉ front) (rest : List WChar) :
    components (front ++ backslash :: rest) =
      (if front = [] then [] else [front]) ++ components rest := by
  rw [components, components, splitOn_append_cons_self_of_not_mem clean, filter_cons]
  by_cases empty : front = []
  · simp [empty]
  · simp [empty]

theorem notMem_of_mem_components {path part : List WChar} (member : part ∈ components path) :
    backslash ∉ part := by
  induction length : path.length using Nat.strongRecOn generalizing path with
  | ind _ ih =>
    subst length
    by_cases found : backslash ∈ path
    · obtain ⟨front, rest, rfl, clean⟩ := eq_append_cons_of_mem found
      rw [components_split clean, mem_append] at member
      rcases member with here | later
      · by_cases empty : front = []
        · simp [empty] at here
        · rw [if_neg empty, mem_singleton] at here
          exact here ▸ clean
      · apply ih rest.length _ later rfl
        simp only [length_append, length_cons]
        omega
    · by_cases empty : path = []
      · subst path
        cases member
      · rw [components_of_notMem found empty, mem_singleton] at member
        exact member ▸ found

theorem components_skip (path : List WChar) :
    components (skipBackslash path) = components path := by
  unfold skipBackslash
  cases path with
  | nil => rfl
  | cons first rest =>
    by_cases slash : first = backslash
    · have split := components_split (not_mem_nil (a := backslash)) rest
      rw [if_pos rfl, nil_append, nil_append] at split
      rw [slash, head?_cons, if_pos rfl, tail_cons, split]
    · have other : (first :: rest).head? ≠ some backslash := by simpa using slash
      rw [if_neg other]

/-- Two backslashes side by side in what remains, or one at its front. -/
def Doubled (remaining : List WChar) : Prop :=
  [backslash, backslash] <:+: backslash :: remaining

theorem doubled_skip (path : List WChar) :
    Doubled (skipBackslash path) ↔ ¬ SingleBackslashes path := by
  unfold Doubled SingleBackslashes skipBackslash
  rw [not_not]
  cases path with
  | nil => decide
  | cons first rest =>
    by_cases slash : first = backslash
    · rw [slash, head?_cons, if_pos rfl, tail_cons]
    · have other : (first :: rest).head? ≠ some backslash := by simpa using slash
      rw [if_neg other, infix_cons_iff, cons_prefix_cons, cons_prefix_cons]
      simp [Ne.symm slash]

theorem infix_split (clean : backslash ∉ front) (rest : List WChar) :
    [backslash, backslash] <:+: front ++ backslash :: rest ↔ Doubled rest := by
  induction front with
  | nil => rfl
  | cons first front ih =>
    rw [mem_cons, not_or] at clean
    rw [cons_append, infix_cons_iff, ih clean.2]
    simp [clean.1]

theorem doubled_split (clean : backslash ∉ front) (nonempty : front ≠ [])
    (rest : List WChar) : Doubled (front ++ backslash :: rest) ↔ Doubled rest := by
  cases front with
  | nil => exact absurd rfl nonempty
  | cons first front =>
    have whole := infix_split clean rest
    rw [mem_cons, not_or] at clean
    rw [Doubled, infix_cons_iff, whole, cons_append]
    simp [clean.1]

theorem not_doubled_of_notMem (clean : backslash ∉ remaining) : ¬ Doubled remaining := by
  intro doubled
  have count := doubled.sublist.count_le backslash
  simp [count_eq_zero.mpr clean] at count

theorem nextSegment_of_notMem (clean : backslash ∉ remaining) :
    nextSegment remaining = (remaining, none) := by
  have stops : remaining.findIdx (fun c => c == backslash) = remaining.length := by
    apply findIdx_eq_length.mpr
    intro c member
    exact beq_eq_false_iff_ne.mpr (fun same => clean (same ▸ member))
  simp [nextSegment, stops]

theorem nextSegment_split (clean : backslash ∉ front) (rest : List WChar) :
    nextSegment (front ++ backslash :: rest) =
      (if front = [] then backslash :: rest else front, some rest) := by
  have stops : (front ++ backslash :: rest).findIdx (fun c => c == backslash) = front.length := by
    rw [findIdx_append]
    have misses : front.findIdx (fun c => c == backslash) = front.length := by
      apply findIdx_eq_length.mpr
      intro c member
      exact beq_eq_false_iff_ne.mpr (fun same => clean (same ▸ member))
    simp [misses, findIdx_cons]
  simp only [nextSegment, stops]
  by_cases empty : front = []
  · simp [empty]
  · simp [empty]

theorem pathSegments_eq_components {passes : Nat} (enough : remaining.length ≤ passes)
    (single : ¬ Doubled remaining) : pathSegments passes remaining = components remaining := by
  induction passes generalizing remaining with
  | zero =>
    obtain rfl := length_eq_zero_iff.mp (Nat.le_zero.mp enough)
    rfl
  | succ passes ih =>
    by_cases empty : remaining = []
    · subst remaining
      rfl
    rw [pathSegments, if_neg empty]
    by_cases found : backslash ∈ remaining
    · obtain ⟨front, rest, rfl, clean⟩ := eq_append_cons_of_mem found
      have nonempty : front ≠ [] := by
        rintro rfl
        apply single
        exact (prefix_append [backslash, backslash] rest).isInfix
      rw [doubled_split clean nonempty] at single
      have shorter : rest.length ≤ passes := by
        simp only [length_append, length_cons] at enough
        omega
      rw [nextSegment_split clean, components_split clean, if_neg nonempty, if_neg nonempty]
      dsimp only
      rw [ih shorter single, singleton_append]
    · rw [nextSegment_of_notMem found, components_of_notMem found empty]

theorem exists_mem_pathSegments {passes : Nat}
    (enough : remaining.length ≤ passes) (doubled : Doubled remaining) :
    ∃ segment ∈ pathSegments passes remaining, backslash ∈ segment := by
  have found : backslash ∈ remaining := by
    by_contra clean
    exact not_doubled_of_notMem clean doubled
  induction passes generalizing remaining with
  | zero =>
    have empty := length_eq_zero_iff.mp (Nat.le_zero.mp enough)
    rw [empty] at found
    cases found
  | succ passes ih =>
    obtain ⟨front, rest, rfl, clean⟩ := eq_append_cons_of_mem found
    have something : front ++ backslash :: rest ≠ [] := by simp
    rw [pathSegments, if_neg something, nextSegment_split clean]
    dsimp only
    by_cases empty : front = []
    · rw [if_pos empty]
      exact ⟨_, mem_cons_self, mem_cons_self⟩
    rw [doubled_split clean empty] at doubled
    have shorter : rest.length ≤ passes := by
      simp only [length_append, length_cons] at enough
      omega
    have also : backslash ∈ rest := by
      by_contra absent
      exact not_doubled_of_notMem absent doubled
    obtain ⟨segment, member, holds⟩ := ih shorter doubled also
    exact ⟨segment, mem_cons_of_mem _ member, holds⟩

section Descend

variable {registry : Registry}

/-- The way down from a key through parts of a path, with a new key for a part
that has none: the key at its end, and the registry. -/
def descend (registry : Registry) (key : Nat) : List (List WChar) → Nat × Registry
  | [] => (key, registry)
  | part :: parts =>
      match (subkeys registry key).find? (fun child =>
          rtlEqualUnicodeString (registry.nodes child).name part) with
      | some child => descend registry child parts
      | none => descend (withChild registry key part) registry.count parts

theorem resolves_withChild {key : Nat} {name : List WChar}
    (absent : (subkeys registry key).find? (fun child =>
      rtlEqualUnicodeString (registry.nodes child).name name) = none) :
    Resolves (withChild registry key name) key [name] registry.count := by
  refine ⟨registry.count, ?_, rfl⟩
  rw [subkeys_withChild, if_pos rfl, find?_append]
  have before : (subkeys registry key).find? (fun child =>
      rtlEqualUnicodeString ((withChild registry key name).nodes child).name name) = none := by
    rw [← absent]
    apply find?_congr
    intro other member
    rw [(withChild_old (mem_subkeys.mp member).1).1]
  rw [before, Option.none_or, find?_singleton, withChild_new,
    if_pos ((rtlEqualUnicodeString_iff name name).mpr rfl)]

theorem descend_resolves (parts : List (List WChar)) {key : Nat} (inside : key < registry.count) :
    Grows registry (descend registry key parts).2 ∧
      Resolves (descend registry key parts).2 key parts (descend registry key parts).1 := by
  induction parts generalizing registry key with
  | nil => exact ⟨.refl _, rfl⟩
  | cons part parts ih =>
    rw [descend]
    cases found : (subkeys registry key).find? (fun child =>
        rtlEqualUnicodeString (registry.nodes child).name part) with
    | some child =>
      dsimp only
      obtain ⟨grows, rest⟩ := ih (find_subkeys_inside found)
      have first : Resolves registry key [part] child := ⟨child, found, rfl⟩
      obtain ⟨_, again, rfl⟩ := first.grows grows inside
      exact ⟨grows, _, again, rest⟩
    | none =>
      dsimp only
      have new : registry.count < (withChild registry key part).count := Nat.lt_succ_self _
      obtain ⟨grows, rest⟩ := ih new
      obtain ⟨_, again, rfl⟩ :=
        (resolves_withChild found).grows grows (Nat.lt_succ_of_lt inside)
      exact ⟨(withChild_grows registry key part).trans grows, _, again, rest⟩

theorem descend_names (parts : List (List WChar)) (key : Nat) {node : Nat}
    (new : registry.count ≤ node) (inside : node < (descend registry key parts).2.count) :
    ((descend registry key parts).2.nodes node).name ∈ parts := by
  induction parts generalizing registry key with
  | nil => exact absurd inside (Nat.not_lt.mpr new)
  | cons part parts ih =>
    rw [descend] at inside ⊢
    cases found : (subkeys registry key).find? (fun child =>
        rtlEqualUnicodeString (registry.nodes child).name part) with
    | some child =>
      rw [found] at inside
      exact mem_cons_of_mem _ (ih child new inside)
    | none =>
      rw [found] at inside
      dsimp only at inside ⊢
      have count : (withChild registry key part).count = registry.count + 1 := rfl
      by_cases first : node = registry.count
      · subst node
        have old : registry.count < (withChild registry key part).count :=
          Nat.lt_succ_self _
        rw [(descend_resolves parts old).1.name registry.count old, withChild_new]
        exact mem_cons_self
      · exact mem_cons_of_mem _ (ih registry.count (by omega) inside)

/-- The walk goes where the segments lead. -/
theorem findOrCreate_descend (room : Nat → Bool) (tree : RegistryTree registry)
    (segments : List (List WChar)) {parent : Nat} (inside : parent < registry.count) :
    ∃ status out done, findOrCreate room segments parent registry =
        some (status, out, (descend registry parent (segments.take done)).2) ∧
      (status = statusSuccess →
        out = some (descend registry parent segments).1 ∧ segments.take done = segments) := by
  induction segments generalizing registry parent with
  | nil => exact ⟨statusSuccess, some parent, 0, rfl, fun _ => ⟨rfl, rfl⟩⟩
  | cons segment segments ih =>
    simp only [findOrCreate, tree.cmFindChild_eq inside]
    cases found : (subkeys registry parent).find? (fun child =>
        rtlEqualUnicodeString (registry.nodes child).name segment) with
    | some child =>
      obtain ⟨status, out, done, result, whole⟩ := ih tree (find_subkeys_inside found)
      refine ⟨status, out, done + 1, ?_, ?_⟩
      · simpa only [take_succ_cons, descend, found] using result
      · intro success
        rw [descend, found, take_succ_cons, (whole success).2]
        exact ⟨(whole success).1, rfl⟩
    | none =>
      have absent : ∀ child ∈ subkeys registry parent,
          rtlEqualUnicodeString (registry.nodes child).name segment = false := by
        simpa using find?_eq_none.mp found
      simp only [cmAllocateKeyNode]
      by_cases roomy : room registry.count = true ∧ registry.count < cmNodeLimit
      · have linked := linkChild_eq tree inside segment
        simp only [withNode] at linked
        simp only [if_pos roomy, linked]
        obtain ⟨status, out, done, result, whole⟩ :=
          ih (tree.withChild inside roomy.2 absent) (Nat.lt_succ_self _)
        refine ⟨status, out, done + 1, ?_, ?_⟩
        · simpa only [take_succ_cons, descend, found] using result
        · intro success
          rw [descend, found, take_succ_cons, (whole success).2]
          exact ⟨(whole success).1, rfl⟩
      · rw [if_neg roomy]
        exact ⟨statusNoMemory, none, 0, rfl, fun success => absurd success (by decide)⟩

theorem resolves_concat {key node : Nat} {parts : List (List WChar)} {part : List WChar} :
    Resolves registry key (parts ++ [part]) node ↔
      ∃ parent, Resolves registry key parts parent ∧ Resolves registry parent [part] node := by
  induction parts generalizing key with
  | nil => simp [Resolves]
  | cons first parts ih =>
    simp only [cons_append, Resolves, ih]
    constructor
    · rintro ⟨child, found, parent, rest, last⟩
      exact ⟨parent, ⟨child, found, rest⟩, last⟩
    · rintro ⟨parent, ⟨child, found, rest⟩, last⟩
      exact ⟨child, found, parent, rest, last⟩

theorem resolves_singleton {parent node : Nat} {part : List WChar}
    (resolves : Resolves registry parent [part] node) :
    node < registry.count ∧ (registry.nodes node).parent = some parent ∧
      (registry.nodes node).name.map rtlpUpcase = part.map rtlpUpcase := by
  obtain ⟨child, found, rfl⟩ := resolves
  have known := mem_subkeys.mp (mem_of_find?_eq_some found)
  have equal := find?_some found
  exact ⟨known.1, known.2, (rtlEqualUnicodeString_iff _ _).mp equal⟩

theorem RegistryTree.resolves_unique (tree : RegistryTree registry) {node : Nat}
    {parts others : List (List WChar)} (left : Resolves registry cmGetRootKey parts node)
    (right : Resolves registry cmGetRootKey others node) :
    parts.map (List.map rtlpUpcase) = others.map (List.map rtlpUpcase) := by
  induction parts using List.reverseRecOn generalizing others node with
  | nil =>
    obtain rfl : cmGetRootKey = node := left
    cases others using List.reverseRecOn with
    | nil => rfl
    | append_singleton others other =>
      obtain ⟨parent, _, last⟩ := resolves_concat.mp right
      have known := (resolves_singleton last).2.1
      rw [tree.root.2] at known
      cases known
  | append_singleton parts part ih =>
    obtain ⟨parent, before, last⟩ := resolves_concat.mp left
    obtain ⟨_, known, name⟩ := resolves_singleton last
    cases others using List.reverseRecOn with
    | nil =>
      obtain rfl : cmGetRootKey = node := right
      rw [tree.root.2] at known
      cases known
    | append_singleton others other =>
      obtain ⟨parent', before', last'⟩ := resolves_concat.mp right
      obtain ⟨_, known', name'⟩ := resolves_singleton last'
      rw [known] at known'
      obtain rfl := Option.some.inj known'
      rw [map_append, map_append, ih before before', map_singleton, map_singleton, ← name, ← name']

end Descend

theorem mem_of_map_upcase {part other : List WChar}
    (same : part.map rtlpUpcase = other.map rtlpUpcase) (member : backslash ∈ part) :
    backslash ∈ other := by
  have upper : rtlpUpcase backslash ∈ other.map rtlpUpcase := by
    rw [← same]
    exact mem_map_of_mem member
  obtain ⟨c, inOther, equal⟩ := List.mem_map.mp upper
  rw [← (rtlpUpcase_backslash equal).mpr rfl]
  exact inOther

/-- What a call of `CmCreateKey` should do: a call that succeeds goes down from
the root through the parts of the path, and no new key has a backslash in its
name. -/
structure SplitsPath (registry : Registry) (path : List WChar) (status : NtStatus)
    (out : Option Nat) (after : Registry) : Prop where
  ends : status = statusSuccess →
    out = some (descend registry cmGetRootKey (components path)).1 ∧
      after = (descend registry cmGetRootKey (components path)).2
  names : ∀ node, registry.count ≤ node → node < after.count →
    backslash ∉ (after.nodes node).name

section Calls

variable {registry after : Registry} {path : List WChar} {room : Nat → Bool} {status : NtStatus}
  {out : Option Nat}

theorem skipBackslash_length (path : List WChar) : (skipBackslash path).length ≤ path.length := by
  unfold skipBackslash
  split
  · simp
  · exact Nat.le_refl _

theorem pathSegments_of_single (single : SingleBackslashes path) :
    pathSegments path.length (skipBackslash path) = components path := by
  rw [pathSegments_eq_components (skipBackslash_length path), components_skip]
  rw [doubled_skip]
  exact not_not.mpr single

/-- Without a doubled backslash the path is split as it should. -/
theorem cmCreateKey_splits (tree : RegistryTree registry) (single : SingleBackslashes path)
    (call : cmCreateKey registry path room = some (status, out, after)) :
    SplitsPath registry path status out after := by
  have root : cmGetRootKey < registry.count := tree.root.1
  obtain ⟨status', out', done, result, whole⟩ :=
    findOrCreate_descend room tree (components path) root
  rw [cmCreateKey, pathSegments_of_single single, result] at call
  simp only [Option.some.injEq, Prod.mk.injEq] at call
  obtain ⟨rfl, rfl, rfl⟩ := call
  constructor
  · intro success
    obtain ⟨reached, all⟩ := whole success
    rw [all]
    exact ⟨reached, rfl⟩
  · intro node new inside
    have member := descend_names _ _ new inside
    exact notMem_of_mem_components (mem_of_mem_take member)

/-- Behind a doubled backslash the key is another one. -/
theorem cmCreateKey_wrongKey (tree : RegistryTree registry) (doubled : ¬ SingleBackslashes path)
    (call : cmCreateKey registry path room = some (statusSuccess, out, after)) :
    out ≠ some (descend registry cmGetRootKey (components path)).1 ∨
      after ≠ (descend registry cmGetRootKey (components path)).2 := by
  by_contra right
  rw [not_or, not_not, not_not] at right
  obtain ⟨rfl, rfl⟩ := right
  obtain ⟨_, _, _, result, effect⟩ := cmCreateKey_effect tree path room
  rw [call] at result
  simp only [Option.some.injEq, Prod.mk.injEq] at result
  obtain ⟨rfl, rfl, rfl⟩ := result
  rcases effect.outcome with ⟨failed, _⟩ | ⟨_, node, known, _, resolves⟩
  · exact absurd failed (by decide)
  obtain rfl := Option.some.inj known
  have should := (descend_resolves (components path) tree.root.1).2
  have same := effect.tree.resolves_unique resolves should
  obtain ⟨segment, member, slash⟩ := exists_mem_pathSegments (skipBackslash_length path)
    ((doubled_skip path).mpr doubled)
  have mapped := mem_map_of_mem (f := List.map rtlpUpcase) member
  rw [same] at mapped
  obtain ⟨part, inParts, equal⟩ := List.mem_map.mp mapped
  exact notMem_of_mem_components inParts (mem_of_map_upcase equal.symm slash)

theorem findOrCreate_succeeds (roomy : ∀ node, room node = true) (tree : RegistryTree registry)
    (segments : List (List WChar)) {parent : Nat} (inside : parent < registry.count)
    (enough : registry.count + segments.length ≤ cmNodeLimit) :
    ∃ out after, findOrCreate room segments parent registry =
      some (statusSuccess, out, after) := by
  induction segments generalizing registry parent with
  | nil => exact ⟨some parent, registry, rfl⟩
  | cons segment segments ih =>
    rw [length_cons] at enough
    simp only [findOrCreate, tree.cmFindChild_eq inside]
    cases found : (subkeys registry parent).find? (fun child =>
        rtlEqualUnicodeString (registry.nodes child).name segment) with
    | some child => exact ih tree (find_subkeys_inside found) (by omega)
    | none =>
      have absent : ∀ child ∈ subkeys registry parent,
          rtlEqualUnicodeString (registry.nodes child).name segment = false := by
        simpa using find?_eq_none.mp found
      have limit : registry.count < cmNodeLimit := by omega
      have linked := linkChild_eq tree inside segment
      have count : (withChild registry parent segment).count = registry.count + 1 := rfl
      simp only [withNode] at linked
      simp only [cmAllocateKeyNode, if_pos (And.intro (roomy registry.count) limit), linked]
      exact ih (tree.withChild inside limit absent) (Nat.lt_succ_self _) (by omega)

theorem pathSegments_length (passes : Nat) (remaining : List WChar) :
    (pathSegments passes remaining).length ≤ passes := by
  induction passes generalizing remaining with
  | zero => exact Nat.le_refl _
  | succ passes ih =>
    rw [pathSegments]
    split
    · exact Nat.zero_le _
    · rw [length_cons]
      cases (nextSegment remaining).2 with
      | none => exact Nat.succ_le_succ (Nat.zero_le _)
      | some rest => exact Nat.succ_le_succ (ih rest)

/-- `CmCreateKey` splits a path as it should exactly if no two backslashes stand
side by side in it. Then every call does on every registry; otherwise no call
that succeeds does on any. A `UNICODE_STRING` has less than 2¹⁵ characters. -/
theorem cmCreateKey_splitsPath_iff (path : List WChar) (short : path.length < 2 ^ 15) :
    ((∀ registry room status out after, Runs cmInitSystem registry →
        cmCreateKey registry path room = some (status, out, after) →
        SplitsPath registry path status out after) ↔ SingleBackslashes path) ∧
      ∀ registry room out after, Runs cmInitSystem registry →
        cmCreateKey registry path room = some (statusSuccess, out, after) →
        (SplitsPath registry path statusSuccess out after ↔ SingleBackslashes path) := by
  have each : ∀ registry room out after, Runs cmInitSystem registry →
      cmCreateKey registry path room = some (statusSuccess, out, after) →
      (SplitsPath registry path statusSuccess out after ↔ SingleBackslashes path) := by
    intro registry room out after run call
    have tree := (run.keeps registryTree_init).1
    constructor
    · intro splits
      by_contra doubled
      have ends := splits.ends rfl
      rcases cmCreateKey_wrongKey tree doubled call with wrong | wrong
      · exact wrong ends.1
      · exact wrong ends.2
    · intro single
      exact cmCreateKey_splits tree single call
  refine ⟨⟨?_, ?_⟩, each⟩
  · intro always
    have limit : 1 + 2 ^ 15 ≤ cmNodeLimit := by decide
    have enough : cmInitSystem.count +
        (pathSegments path.length (skipBackslash path)).length ≤ cmNodeLimit := by
      have segments := pathSegments_length path.length (skipBackslash path)
      have first : cmInitSystem.count = 1 := rfl
      omega
    have roomy : ∀ node, (fun _ : Nat => true) node = true := fun _ => rfl
    obtain ⟨out, after, call⟩ :=
      findOrCreate_succeeds roomy registryTree_init _ registryTree_init.root.1 enough
    exact (each _ _ _ _ .refl call).mp (always _ _ _ _ _ .refl call)
  · intro single registry room status out after run call
    exact cmCreateKey_splits (run.keeps registryTree_init).1 single call

/-- `A\\B`. -/
def emptyPartPath : List WChar := [0x41#16, backslash, backslash, 0x42#16]

/-- A new registry with that path in it. -/
def emptyPartRegistry : Registry :=
  ((cmCreateKey cmInitSystem emptyPartPath (fun _ => true)).getD
    (statusSuccess, none, cmInitSystem)).2.2

/-- A path with an empty part in it. -/
theorem emptyPart_splitsPath_iff :
    SplitsPath cmInitSystem emptyPartPath statusSuccess (some 3) emptyPartRegistry ↔
      SingleBackslashes emptyPartPath :=
  (cmCreateKey_splitsPath_iff emptyPartPath (by decide)).2 cmInitSystem (fun _ => true) (some 3)
    emptyPartRegistry .refl rfl

/-- `A\\B` makes the keys `A`, `\B` below it and `B` below that. -/
theorem emptyPart_notSplit :
    cmCreateKey cmInitSystem emptyPartPath (fun _ => true) =
        some (statusSuccess, some 3, emptyPartRegistry) ∧
      ¬ SplitsPath cmInitSystem emptyPartPath statusSuccess (some 3) emptyPartRegistry := by
  refine ⟨rfl, ?_⟩
  intro splits
  have name : (emptyPartRegistry.nodes 2).name = [backslash, 0x42#16] := rfl
  apply splits.names 2 (by decide) (by decide)
  rw [name]
  exact mem_cons_self

end Calls

end MinNT.Cm
