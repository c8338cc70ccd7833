import Mathlib.Data.List.Nodup
import MinNT.Cm.Registry

namespace MinNT.Cm

open NullTerminated List Registry

/-- The nodes whose `Parent` is the key, in the order of their creation. -/
def subkeys (registry : Registry) (key : Nat) : List Nat :=
  (range registry.count).filter (fun node => (registry.nodes node).parent = some key)

/-- No two of the nodes have the same name ignoring case. -/
def DifferentNames (registry : Registry) (nodes : List Nat) : Prop :=
  nodes.Pairwise (fun node other =>
    rtlEqualUnicodeString (registry.nodes node).name (registry.nodes other).name = false)

/-- The child lists are those of a finite tree with its root in node 0, and the
counts and names in it are as they should be. A parent is older than its
children, so the way up from any node ends in the root. -/
structure RegistryTree (registry : Registry) : Prop where
  root : 0 < registry.count ∧ (registry.nodes cmGetRootKey).parent = none
  older : ∀ node, 0 < node → node < registry.count →
    ∃ parent, (registry.nodes node).parent = some parent ∧ parent < node
  listed : ∀ key, key < registry.count →
    Listed registry.next (registry.nodes key).childHead (subkeys registry key)
  different : ∀ key, key < registry.count → DifferentNames registry (subkeys registry key)
  subKeysCounted : ∀ key, key < registry.count →
    (registry.nodes key).subKeyCount = (subkeys registry key).length
  valuesCounted : ∀ key, key < registry.count →
    (registry.nodes key).valueCount = (registry.nodes key).values.length ∧
      (registry.nodes key).values.length ≤ cmValueLimit
  nodesBounded : registry.count ≤ cmNodeLimit

variable {registry : Registry}

theorem mem_subkeys {key node : Nat} :
    node ∈ subkeys registry key ↔
      node < registry.count ∧ (registry.nodes node).parent = some key := by
  simp [subkeys]

theorem subkeys_length_le (registry : Registry) (key : Nat) :
    (subkeys registry key).length ≤ registry.count := by
  have bound := length_filter_le
    (fun node => decide ((registry.nodes node).parent = some key)) (range registry.count)
  rwa [length_range] at bound

theorem subkeys_nodup (registry : Registry) (key : Nat) : (subkeys registry key).Nodup :=
  List.Nodup.filter _ nodup_range

theorem registryTree_init : RegistryTree cmInitSystem where
  root := ⟨by decide, rfl⟩
  older := by
    intro node positive inside
    simp only [cmInitSystem] at inside
    omega
  listed := fun _ _ => rfl
  different := fun _ _ => List.Pairwise.nil
  subKeysCounted := fun _ _ => rfl
  valuesCounted := fun _ _ => ⟨rfl, Nat.zero_le _⟩
  nodesBounded := by decide

theorem RegistryTree.cmFindChild_eq (tree : RegistryTree registry)
    {parent : Nat} (inside : parent < registry.count) (name : List WChar) :
    cmFindChild registry parent name =
      some ((subkeys registry parent).find? (fun child =>
        rtlEqualUnicodeString (registry.nodes child).name name)) :=
  (tree.listed parent inside).search_eq _ (subkeys_length_le registry parent)

/-- The registry with a node that is not linked yet. -/
def withNode (registry : Registry) (name : List WChar) : Registry where
  nodes := Function.update registry.nodes registry.count ⟨name, none, none, none, 0, 0, []⟩
  count := registry.count + 1

/-- The registry with a new node behind the last child of `parent`. -/
def withChild (registry : Registry) (parent : Nat) (name : List WChar) : Registry where
  nodes := fun node =>
    if node = registry.count then ⟨name, some parent, none, none, 0, 0, []⟩
    else
      { registry.nodes node with
        childHead :=
          if node = parent ∧ subkeys registry parent = [] then some registry.count
          else (registry.nodes node).childHead
        nextSibling :=
          if (subkeys registry parent).getLast? = some node then some registry.count
          else (registry.nodes node).nextSibling
        subKeyCount :=
          if node = parent then ((registry.nodes node).subKeyCount + 1) % 2 ^ 32
          else (registry.nodes node).subKeyCount }
  count := registry.count + 1

theorem RegistryTree.parent_lt (tree : RegistryTree registry)
    {parent node : Nat} (member : node ∈ subkeys registry parent) : parent < node := by
  obtain ⟨inside, known⟩ := mem_subkeys.mp member
  by_cases first : node = 0
  · subst node
    rw [show (0 : Nat) = cmGetRootKey from rfl, tree.root.2] at known
    cases known
  · obtain ⟨other, same, older⟩ := tree.older node (Nat.pos_of_ne_zero first) inside
    rw [known] at same
    cases same
    exact older

/-- The registry with a node that knows its parent and is on no list yet. -/
def withOrphan (registry : Registry) (parent : Nat) (name : List WChar) : Registry where
  nodes := Function.update registry.nodes registry.count
    ⟨name, some parent, none, none, 0, 0, []⟩
  count := registry.count + 1

theorem withNode_setParent (registry : Registry) (parent : Nat) (name : List WChar) :
    (withNode registry name).setNode registry.count
        { (withNode registry name).nodes registry.count with parent := some parent } =
      withOrphan registry parent name := by
  simp [withNode, withOrphan, setNode]

theorem withOrphan_old {parent node : Nat} {name : List WChar} (old : node ≠ registry.count) :
    (withOrphan registry parent name).nodes node = registry.nodes node :=
  Function.update_of_ne old _ _

/-- The new node is linked behind the last child. -/
theorem linkChild_eq (tree : RegistryTree registry) {parent : Nat}
    (inside : parent < registry.count) (name : List WChar) :
    linkChild (withNode registry name) parent registry.count =
      some (withChild registry parent name) := by
  have apart : parent ≠ registry.count := Nat.ne_of_lt inside
  have listed := tree.listed parent inside
  unfold linkChild
  rw [withNode_setParent]
  dsimp only
  rw [withOrphan_old apart]
  cases head : (registry.nodes parent).childHead with
  | none =>
    have empty : subkeys registry parent = [] := by
      rw [head] at listed
      cases known : subkeys registry parent with
      | nil => rfl
      | cons first rest =>
        rw [known] at listed
        cases listed.1
    simp only [Option.map_some, Option.some.injEq, setNode, withOrphan, withChild,
      mk.injEq, and_true]
    funext node
    by_cases new : node = registry.count
    · subst node
      simp [Function.update_of_ne (Ne.symm apart)]
    · by_cases same : node = parent
      · subst node
        simp [new, empty]
      · simp [new, same, empty]
  | some first =>
    rw [head] at listed
    cases ending : (subkeys registry parent).getLast? with
    | none =>
      rw [getLast?_eq_none_iff.mp ending] at listed
      cases listed
    | some last =>
      have member := mem_of_getLast? ending
      have lastOld : last ≠ registry.count := Nat.ne_of_lt (mem_subkeys.mp member).1
      have lastOther : last ≠ parent := Nat.ne_of_gt (tree.parent_lt member)
      have nonempty : subkeys registry parent ≠ [] := ne_nil_of_mem member
      have unchanged : ∀ cell ∈ subkeys registry parent,
          (withOrphan registry parent name).next cell = registry.next cell := by
        intro cell cellMember
        have old : cell ≠ registry.count := Nat.ne_of_lt (mem_subkeys.mp cellMember).1
        simp only [Registry.next, withOrphan_old old]
      have enough : (subkeys registry parent).length ≤ (withOrphan registry parent name).count :=
        Nat.le_succ_of_le (subkeys_length_le registry parent)
      dsimp only
      rw [(listed.congr unchanged).lastCell_eq enough, ending]
      simp only [Option.map_some, Option.some.injEq, setNode, withOrphan, withChild,
        mk.injEq, and_true]
      funext node
      by_cases new : node = registry.count
      · subst node
        simp [Function.update_of_ne (Ne.symm apart), Ne.symm lastOld]
      · by_cases same : node = parent
        · subst node
          simp [new, nonempty, ending, lastOther, Ne.symm lastOther]
        · by_cases final : node = last
          · subst node
            simp [new, same, ending]
          · simp [new, same, final, ending, Ne.symm final]

section WithChild

variable {registry : Registry} {parent : Nat} {name : List WChar}

theorem withChild_new :
    (withChild registry parent name).nodes registry.count =
      ⟨name, some parent, none, none, 0, 0, []⟩ := by
  simp [withChild]

theorem withChild_old {node : Nat} (old : node < registry.count) :
    ((withChild registry parent name).nodes node).name = (registry.nodes node).name ∧
      ((withChild registry parent name).nodes node).parent = (registry.nodes node).parent ∧
      ((withChild registry parent name).nodes node).values = (registry.nodes node).values ∧
      ((withChild registry parent name).nodes node).valueCount =
        (registry.nodes node).valueCount := by
  have different : node ≠ registry.count := Nat.ne_of_lt old
  simp [withChild, different]

theorem subkeys_withChild (key : Nat) :
    subkeys (withChild registry parent name) key =
      subkeys registry key ++ if parent = key then [registry.count] else [] := by
  have old : (range registry.count).filter (fun node =>
      ((withChild registry parent name).nodes node).parent = some key) =
        subkeys registry key := by
    apply filter_congr
    intro node member
    rw [(withChild_old (mem_range.mp member)).2.1]
  have count : (withChild registry parent name).count = registry.count + 1 := rfl
  rw [subkeys, count, range_succ, filter_append, old, filter_singleton, withChild_new]
  simp

theorem withChild_childHead_other {key : Nat} (old : key < registry.count) (other : key ≠ parent) :
    ((withChild registry parent name).nodes key).childHead = (registry.nodes key).childHead := by
  simp [withChild, Nat.ne_of_lt old, other]

theorem withChild_next {node : Nat} (old : node < registry.count)
    (notLast : (subkeys registry parent).getLast? ≠ some node) :
    (withChild registry parent name).next node = registry.next node := by
  simp [Registry.next, withChild, Nat.ne_of_lt old, notLast]

section Tree

variable (tree : RegistryTree registry)
include tree

/-- The new child comes last in the list of its parent. -/
theorem RegistryTree.listed_parent (inside : parent < registry.count) :
    Listed (withChild registry parent name).next
      ((withChild registry parent name).nodes parent).childHead
      (subkeys registry parent ++ [registry.count]) := by
  have listed := tree.listed parent inside
  have ends : (withChild registry parent name).next registry.count = none := by
    simp [Registry.next, withChild_new]
  have different : parent ≠ registry.count := Nat.ne_of_lt inside
  cases ending : (subkeys registry parent).getLast? with
  | none =>
    have empty := getLast?_eq_none_iff.mp ending
    rw [empty]
    refine ⟨?_, ends⟩
    simp [withChild, different, empty]
  | some last =>
    obtain ⟨front, shape⟩ := getLast?_eq_some_iff.mp ending
    have nonempty : subkeys registry parent ≠ [] := by simp [shape]
    have head : ((withChild registry parent name).nodes parent).childHead =
        (registry.nodes parent).childHead := by
      simp [withChild, different, nonempty]
    have lastOld : last < registry.count := by
      have member : last ∈ subkeys registry parent := by simp [shape]
      exact (mem_subkeys.mp member).1
    rw [head]
    rw [shape] at listed ⊢
    apply listed.extend _ ends
    · intro node member
      have once := subkeys_nodup registry parent
      rw [shape] at once
      have apart : node ≠ last := by
        rintro rfl
        exact (nodup_append.mp once).2.2 node member node (mem_singleton.mpr rfl) rfl
      have inKeys : node ∈ subkeys registry parent := by
        rw [shape]
        exact mem_append_left _ member
      apply withChild_next (mem_subkeys.mp inKeys).1
      rw [ending]
      exact fun same => apart (Option.some.inj same).symm
    · simp [Registry.next, withChild, Nat.ne_of_lt lastOld, ending]

theorem RegistryTree.listed_other {key : Nat} (inside : key < registry.count)
    (other : key ≠ parent) :
    Listed (withChild registry parent name).next
      ((withChild registry parent name).nodes key).childHead (subkeys registry key) := by
  rw [withChild_childHead_other inside other]
  apply (tree.listed key inside).congr
  intro node member
  obtain ⟨nodeInside, known⟩ := mem_subkeys.mp member
  apply withChild_next nodeInside
  intro last
  have also := (mem_subkeys.mp (mem_of_getLast? last)).2
  rw [known] at also
  exact other (Option.some.inj also)

/-- A new child keeps the registry a tree. -/
theorem RegistryTree.withChild (inside : parent < registry.count)
    (room : registry.count < cmNodeLimit) (absent : ∀ child ∈ subkeys registry parent,
      rtlEqualUnicodeString (registry.nodes child).name name = false) :
    RegistryTree (withChild registry parent name) := by
  have count : (Cm.withChild registry parent name).count = registry.count + 1 := rfl
  have noneYet : subkeys registry registry.count = [] := by
    apply eq_nil_iff_forall_not_mem.mpr
    intro node member
    have above := tree.parent_lt member
    have below := (mem_subkeys.mp member).1
    omega
  have oldNames : ∀ key, DifferentNames registry (subkeys registry key) →
      DifferentNames (Cm.withChild registry parent name) (subkeys registry key) := by
    intro key different
    apply List.Pairwise.imp_of_mem _ different
    intro node other member otherMember distinct
    rw [(withChild_old (mem_subkeys.mp member).1).1,
      (withChild_old (mem_subkeys.mp otherMember).1).1]
    exact distinct
  -- A key of the new registry is the new one, the parent, or another old one.
  have keys : ∀ key, key < registry.count + 1 →
      key = registry.count ∨ key = parent ∨ key < registry.count ∧ key ≠ parent := by
    intro key bound
    omega
  constructor
  · have first : cmGetRootKey < registry.count := tree.root.1
    refine ⟨Nat.succ_pos _, ?_⟩
    rw [(withChild_old first).2.1, tree.root.2]
  · intro node positive bound
    rw [count] at bound
    by_cases new : node = registry.count
    · subst node
      rw [withChild_new]
      exact ⟨parent, rfl, inside⟩
    · have old : node < registry.count := by omega
      rw [(withChild_old old).2.1]
      exact tree.older node positive old
  · intro key bound
    rw [subkeys_withChild]
    rcases keys key bound with rfl | rfl | ⟨old, other⟩
    · simp [withChild_new, noneYet, Nat.ne_of_lt inside, Listed]
    · rw [if_pos rfl]
      exact tree.listed_parent inside
    · rw [if_neg (Ne.symm other), append_nil]
      exact tree.listed_other old other
  · intro key bound
    rw [subkeys_withChild]
    rcases keys key bound with rfl | rfl | ⟨old, other⟩
    · simp [noneYet, Nat.ne_of_lt inside, DifferentNames]
    · rw [if_pos rfl]
      apply pairwise_append.mpr
      refine ⟨oldNames key (tree.different key inside), pairwise_singleton _ _, ?_⟩
      intro node member new isNew
      obtain rfl := mem_singleton.mp isNew
      rw [(withChild_old (mem_subkeys.mp member).1).1, withChild_new]
      exact absent node member
    · rw [if_neg (Ne.symm other), append_nil]
      exact oldNames key (tree.different key old)
  · intro key bound
    rw [subkeys_withChild]
    rcases keys key bound with rfl | rfl | ⟨old, other⟩
    · simp [withChild_new, noneYet, Nat.ne_of_lt inside]
    · have counted := tree.subKeysCounted key inside
      have length := subkeys_length_le registry key
      have limit : cmNodeLimit < 2 ^ 32 := by decide
      rw [if_pos rfl, length_append, length_singleton]
      simp only [Cm.withChild, Nat.ne_of_lt inside, ↓reduceIte, counted]
      exact Nat.mod_eq_of_lt (by omega)
    · rw [if_neg (Ne.symm other), append_nil, ← tree.subKeysCounted key old]
      simp [Cm.withChild, Nat.ne_of_lt old, other]
  · intro key bound
    rw [count] at bound
    by_cases new : key = registry.count
    · subst key
      simp [withChild_new]
    · have old : key < registry.count := by omega
      rw [(withChild_old old).2.2.1, (withChild_old old).2.2.2]
      exact tree.valuesCounted key old
  · rw [count]
    omega

end Tree

end WithChild

end MinNT.Cm
