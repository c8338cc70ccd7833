import Mathlib.Data.List.Find
import MinNT.Cm.RegistryTree

namespace MinNT.Cm

open NullTerminated List

/-- Keys are only added, behind those that are there, and keep their names. -/
structure Grows (before after : Registry) : Prop where
  count : before.count ≤ after.count
  name : ∀ node, node < before.count → (after.nodes node).name = (before.nodes node).name
  subkeys : ∀ key, key < before.count → subkeys before key <+: subkeys after key

theorem Grows.refl (registry : Registry) : Grows registry registry :=
  ⟨Nat.le_refl _, fun _ _ => rfl, fun _ _ => prefix_refl _⟩

theorem Grows.trans {first second third : Registry} (left : Grows first second)
    (right : Grows second third) : Grows first third where
  count := Nat.le_trans left.count right.count
  name := by
    intro node inside
    rw [right.name node (Nat.lt_of_lt_of_le inside left.count), left.name node inside]
  subkeys := by
    intro key inside
    exact (left.subkeys key inside).trans (right.subkeys key (Nat.lt_of_lt_of_le inside left.count))

theorem withChild_grows (registry : Registry) (parent : Nat) (name : List WChar) :
    Grows registry (withChild registry parent name) where
  count := Nat.le_succ _
  name := fun _ inside => (withChild_old inside).1
  subkeys := by
    intro key _
    rw [subkeys_withChild]
    exact prefix_append _ _

/-- The node that the segments lead to from a key. -/
def Resolves (registry : Registry) : Nat → List (List WChar) → Nat → Prop
  | parent, [], node => parent = node
  | parent, segment :: segments, node =>
      ∃ child, (subkeys registry parent).find? (fun child =>
          rtlEqualUnicodeString (registry.nodes child).name segment) = some child ∧
        Resolves registry child segments node

variable {registry : Registry}

theorem find_subkeys_inside {parent child : Nat} {wanted : Nat → Bool}
    (found : (subkeys registry parent).find? wanted = some child) : child < registry.count :=
  (mem_subkeys.mp (mem_of_find?_eq_some found)).1

/-- A path still resolves when keys are added. -/
theorem Resolves.grows {before after : Registry} (grows : Grows before after)
    {segments : List (List WChar)} {parent node : Nat} (inside : parent < before.count)
    (resolves : Resolves before parent segments node) : Resolves after parent segments node := by
  induction segments generalizing parent with
  | nil => exact resolves
  | cons segment segments ih =>
    obtain ⟨child, found, rest⟩ := resolves
    have childInside := find_subkeys_inside found
    refine ⟨child, ?_, ih childInside rest⟩
    obtain ⟨added, whole⟩ := grows.subkeys parent inside
    have same : (subkeys before parent).find? (fun child =>
        rtlEqualUnicodeString (after.nodes child).name segment) = some child := by
      rw [← found]
      apply find?_congr
      intro other member
      rw [grows.name other (mem_subkeys.mp member).1]
    rw [← whole, find?_append, same, Option.some_or]

theorem Resolves.variant {segments variants : List (List WChar)} {parent node : Nat}
    (same : segments.map (List.map rtlpUpcase) = variants.map (List.map rtlpUpcase))
    (resolves : Resolves registry parent segments node) :
    Resolves registry parent variants node := by
  induction segments generalizing parent variants with
  | nil =>
    obtain rfl : variants = [] := by simpa using same.symm
    exact resolves
  | cons segment segments ih =>
    cases variants with
    | nil => simp at same
    | cons variant variants =>
      simp only [map_cons, List.cons.injEq] at same
      obtain ⟨child, found, rest⟩ := resolves
      refine ⟨child, ?_, ih same.2 rest⟩
      rw [← found]
      apply find?_congr
      intro other _
      rw [Bool.eq_iff_iff, rtlEqualUnicodeString_iff, rtlEqualUnicodeString_iff, same.1]

theorem Resolves.findOrCreate_eq (tree : RegistryTree registry)
    {segments : List (List WChar)} {parent node : Nat} (inside : parent < registry.count)
    (resolves : Resolves registry parent segments node) (room : Nat → Bool) :
    findOrCreate room segments parent registry = some (statusSuccess, some node, registry) := by
  induction segments generalizing parent with
  | nil =>
    obtain rfl : parent = node := resolves
    rfl
  | cons segment segments ih =>
    obtain ⟨child, found, rest⟩ := resolves
    simp only [findOrCreate, tree.cmFindChild_eq inside, found]
    exact ih (find_subkeys_inside found) rest

/-- What one call of `CmCreateKey` can do. -/
structure CreateEffect (before after : Registry) (parent : Nat) (segments : List (List WChar))
    (status : NtStatus) (out : Option Nat) : Prop where
  tree : RegistryTree after
  grows : Grows before after
  outcome : status = statusNoMemory ∧ out = none ∨
    status = statusSuccess ∧ ∃ node, out = some node ∧ node < after.count ∧
      Resolves after parent segments node

/-- The whole walk, along the segments. -/
theorem findOrCreate_effect (room : Nat → Bool) (tree : RegistryTree registry)
    (segments : List (List WChar)) {parent : Nat} (inside : parent < registry.count) :
    ∃ status out after, findOrCreate room segments parent registry = some (status, out, after) ∧
      CreateEffect registry after parent segments status out := by
  induction segments generalizing registry parent with
  | nil =>
    refine ⟨statusSuccess, some parent, registry, rfl, tree, .refl _, .inr ⟨rfl, ?_⟩⟩
    exact ⟨parent, rfl, inside, rfl⟩
  | cons segment segments ih =>
    simp only [findOrCreate, tree.cmFindChild_eq inside]
    cases found : (subkeys registry parent).find? (fun child =>
        rtlEqualUnicodeString (registry.nodes child).name segment) with
    | some child =>
      obtain ⟨status, out, after, result, effect⟩ := ih tree (find_subkeys_inside found)
      refine ⟨status, out, after, result, effect.tree, effect.grows, ?_⟩
      rcases effect.outcome with failed | ⟨rfl, node, rfl, nodeInside, resolves⟩
      · exact .inl failed
      · have first : Resolves registry parent [segment] child := ⟨child, found, rfl⟩
        obtain ⟨_, again, rfl⟩ := first.grows effect.grows inside
        exact .inr ⟨rfl, node, rfl, nodeInside, _, again, resolves⟩
    | none =>
      have absent : ∀ child ∈ subkeys registry parent,
          rtlEqualUnicodeString (registry.nodes child).name segment = false := by
        simpa using find?_eq_none.mp found
      simp only [cmAllocateKeyNode]
      by_cases roomy : room registry.count = true ∧ registry.count < cmNodeLimit
      · rw [if_pos roomy]
        have linked := linkChild_eq tree inside segment
        simp only [withNode] at linked
        simp only [linked]
        have childTree := tree.withChild inside roomy.2 absent
        have grown := withChild_grows registry parent segment
        obtain ⟨status, out, after, result, effect⟩ := ih childTree (Nat.lt_succ_self _)
        refine ⟨status, out, after, result, effect.tree, grown.trans effect.grows, ?_⟩
        rcases effect.outcome with failed | ⟨rfl, node, rfl, nodeInside, resolves⟩
        · exact .inl failed
        have fresh : Resolves (withChild registry parent segment) parent [segment]
            registry.count := by
          refine ⟨registry.count, ?_, rfl⟩
          rw [subkeys_withChild, if_pos rfl, find?_append]
          have before : (subkeys registry parent).find? (fun child =>
              rtlEqualUnicodeString ((withChild registry parent segment).nodes child).name
                segment) = none := by
            rw [← found]
            apply find?_congr
            intro other member
            rw [(withChild_old (mem_subkeys.mp member).1).1]
          rw [before, Option.none_or, find?_singleton, withChild_new,
            if_pos ((rtlEqualUnicodeString_iff segment segment).mpr rfl)]
        obtain ⟨_, again, rfl⟩ := fresh.grows effect.grows (Nat.lt_succ_of_lt inside)
        exact .inr ⟨rfl, node, rfl, nodeInside, _, again, resolves⟩
      · rw [if_neg roomy]
        exact ⟨statusNoMemory, none, registry, rfl, tree, .refl _, .inl ⟨rfl, rfl⟩⟩

theorem findIdx_variant {path variant : List WChar}
    (same : path.map rtlpUpcase = variant.map rtlpUpcase) :
    path.findIdx (fun c => c == backslash) = variant.findIdx (fun c => c == backslash) := by
  induction path generalizing variant with
  | nil =>
    obtain rfl : variant = [] := by simpa using same.symm
    rfl
  | cons first path ih =>
    cases variant with
    | nil => simp at same
    | cons second variant =>
      simp only [map_cons, List.cons.injEq] at same
      have heads : (first == backslash) = (second == backslash) := by
        rw [Bool.eq_iff_iff, beq_iff_eq, beq_iff_eq]
        exact rtlpUpcase_backslash same.1
      rw [findIdx_cons, findIdx_cons, heads, ih same.2]

theorem pathSegments_variant {path variant : List WChar}
    (same : path.map rtlpUpcase = variant.map rtlpUpcase) (passes : Nat) :
    (pathSegments passes path).map (List.map rtlpUpcase) =
      (pathSegments passes variant).map (List.map rtlpUpcase) := by
  induction passes generalizing path variant with
  | zero => rfl
  | succ passes ih =>
    have lengths : path.length = variant.length := by
      simpa using congrArg List.length same
    have empty : path = [] ↔ variant = [] := by
      rw [← length_eq_zero_iff, ← length_eq_zero_iff, lengths]
    have stops := findIdx_variant same
    by_cases nothing : path = []
    · simp only [pathSegments, nothing, empty.mp nothing]
    have something : variant ≠ [] := fun none => nothing (empty.mpr none)
    simp only [pathSegments, nothing, something, ↓reduceIte, map_cons, List.cons.injEq,
      nextSegment, stops, lengths]
    constructor
    · split
      · rw [map_take, map_take, same]
      · exact same
    · by_cases found : variant.findIdx (fun c => c == backslash) < variant.length
      · simp only [found, ↓reduceIte]
        apply ih
        rw [map_drop, map_drop, same]
      · simp only [found, ↓reduceIte]

theorem skipBackslash_variant {path variant : List WChar}
    (same : path.map rtlpUpcase = variant.map rtlpUpcase) :
    (skipBackslash path).map rtlpUpcase = (skipBackslash variant).map rtlpUpcase := by
  cases path with
  | nil =>
    obtain rfl : variant = [] := by simpa using same.symm
    rfl
  | cons first path =>
    cases variant with
    | nil => simp at same
    | cons second variant =>
      have parts := same
      simp only [map_cons, List.cons.injEq] at parts
      have heads := rtlpUpcase_backslash parts.1
      simp only [skipBackslash, head?_cons, Option.some.injEq, tail_cons]
      by_cases slash : first = backslash
      · rw [if_pos slash, if_pos (heads.mp slash), parts.2]
      · rw [if_neg slash, if_neg (fun other => slash (heads.mpr other)), same]

section Calls

variable {registry : Registry}

section Tree

variable (tree : RegistryTree registry)
include tree

theorem cmCreateKey_effect (path : List WChar) (room : Nat → Bool) :
    ∃ status out after, cmCreateKey registry path room = some (status, out, after) ∧
      CreateEffect registry after cmGetRootKey
        (pathSegments path.length (skipBackslash path)) status out :=
  findOrCreate_effect room tree _ tree.root.1

/-- A later creation finds the key again. -/
theorem cmCreateKey_again {after later : Registry} {path variant : List WChar} {node : Nat}
    {room : Nat → Bool}
    (created : cmCreateKey registry path room = some (statusSuccess, some node, after))
    (grows : Grows after later) (laterTree : RegistryTree later)
    (same : rtlEqualUnicodeString path variant = true) (room' : Nat → Bool) :
    cmCreateKey later variant room' = some (statusSuccess, some node, later) := by
  obtain ⟨status, out, after', result, effect⟩ := cmCreateKey_effect tree path room
  rw [created] at result
  simp only [Option.some.injEq, Prod.mk.injEq] at result
  obtain ⟨rfl, rfl, rfl⟩ := result
  rcases effect.outcome with ⟨failed, _⟩ | ⟨_, reached, known, _, resolves⟩
  · exact absurd failed (by decide)
  obtain rfl := Option.some.inj known
  have upcase := (rtlEqualUnicodeString_iff path variant).mp same
  have lengths : path.length = variant.length := by
    simpa using congrArg List.length upcase
  have segments := pathSegments_variant (skipBackslash_variant upcase) path.length
  unfold cmCreateKey
  rw [← lengths]
  exact ((resolves.grows grows effect.tree.root.1).variant segments).findOrCreate_eq laterTree
    laterTree.root.1 room'

/-- A new value keeps the tree. -/
theorem addValue_keeps {key : Nat} (inside : key < registry.count)
    (value : KeyValue) (room : (registry.nodes key).values.length < cmValueLimit) :
    RegistryTree (registry.setNode key ((registry.nodes key).addValue value)) ∧
      Grows registry (registry.setNode key ((registry.nodes key).addValue value)) := by
  have fields : ∀ node,
      ((registry.setNode key ((registry.nodes key).addValue value)).nodes node).name =
          (registry.nodes node).name ∧
        ((registry.setNode key ((registry.nodes key).addValue value)).nodes node).parent =
          (registry.nodes node).parent ∧
        ((registry.setNode key ((registry.nodes key).addValue value)).nodes node).childHead =
          (registry.nodes node).childHead ∧
        ((registry.setNode key ((registry.nodes key).addValue value)).nodes node).nextSibling =
          (registry.nodes node).nextSibling ∧
        ((registry.setNode key ((registry.nodes key).addValue value)).nodes node).subKeyCount =
          (registry.nodes node).subKeyCount := by
    intro node
    by_cases same : node = key
    · subst node
      simp [Registry.setNode, KeyNode.addValue]
    · simp [Registry.setNode, same]
  have values : ∀ node, node ≠ key →
      (registry.setNode key ((registry.nodes key).addValue value)).nodes node =
        registry.nodes node := by
    intro node other
    exact Function.update_of_ne other _ _
  have own : (registry.setNode key ((registry.nodes key).addValue value)).nodes key =
      (registry.nodes key).addValue value := Function.update_self _ _ _
  have count : (registry.setNode key ((registry.nodes key).addValue value)).count =
      registry.count := rfl
  generalize registry.setNode key ((registry.nodes key).addValue value) = after at *
  have children : ∀ node, subkeys after node = subkeys registry node := by
    intro node
    unfold subkeys
    rw [count]
    apply filter_congr
    intro other _
    rw [(fields other).2.1]
  constructor
  · constructor
    · rw [count, (fields _).2.1]
      exact tree.root
    · intro node positive bound
      rw [(fields node).2.1]
      exact tree.older node positive (count ▸ bound)
    · intro node bound
      rw [children, (fields node).2.2.1]
      apply (tree.listed node (count ▸ bound)).congr
      intro other _
      exact (fields other).2.2.2.1
    · intro node bound
      rw [children]
      apply (tree.different node (count ▸ bound)).imp
      intro left right distinct
      rw [(fields left).1, (fields right).1]
      exact distinct
    · intro node bound
      rw [children, (fields node).2.2.2.2]
      exact tree.subKeysCounted node (count ▸ bound)
    · intro node bound
      by_cases same : node = key
      · subst node
        have limit : cmValueLimit < 2 ^ 32 := by decide
        have counted := (tree.valuesCounted key inside).1
        rw [own]
        simp only [KeyNode.addValue, length_append, length_singleton, counted]
        exact ⟨Nat.mod_eq_of_lt (by omega), room⟩
      · rw [values node same]
        exact tree.valuesCounted node (count ▸ bound)
    · rw [count]
      exact tree.nodesBounded
  · constructor
    · rw [count]
    · intro node _
      exact (fields node).1
    · intro node _
      exact (children node).symm ▸ prefix_refl _

theorem cmSetValue_keeps {key : Option Nat} (held : ∀ node, key = some node → node < registry.count)
    (name : Option UnicodeString) (dataType : Nat) (data : List UInt8) (room : Bool) :
    RegistryTree (cmSetValue registry key name dataType data room).2 ∧
      Grows registry (cmSetValue registry key name dataType data room).2 := by
  unfold cmSetValue
  split
  · rename_i node valueName
    split
    · rename_i roomy
      exact addValue_keeps tree (held node rfl) _ roomy.2.2
    · exact ⟨tree, .refl _⟩
  · exact ⟨tree, .refl _⟩

end Tree

end Calls

/-- The registries that calls lead to. A key is given by a node that exists; the
pool may be empty at any allocation. -/
inductive Runs (start : Registry) : Registry → Prop
  | refl : Runs start start
  | create {registry after : Registry} {status : NtStatus} {out : Option Nat}
      (run : Runs start registry) (path : List WChar) (room : Nat → Bool)
      (call : cmCreateKey registry path room = some (status, out, after)) : Runs start after
  | openKey {registry after : Registry} {status : NtStatus} {out : Option Nat}
      (run : Runs start registry) (path : List WChar) (room : Nat → Bool)
      (call : cmOpenKey registry path room = some (status, out, after)) : Runs start after
  | setValue {registry : Registry} (run : Runs start registry) (key : Option Nat)
      (held : ∀ node, key = some node → node < registry.count) (name : Option UnicodeString)
      (dataType : Nat) (data : List UInt8) (room : Bool) :
      Runs start (cmSetValue registry key name dataType data room).2

/-- Every run keeps the tree and its keys. -/
theorem Runs.keeps {start registry : Registry} (tree : RegistryTree start)
    (run : Runs start registry) : RegistryTree registry ∧ Grows start registry := by
  have create : ∀ {before after : Registry} {path : List WChar} {room : Nat → Bool}
      {status : NtStatus} {out : Option Nat}, RegistryTree before ∧ Grows start before →
      cmCreateKey before path room = some (status, out, after) →
      RegistryTree after ∧ Grows start after := by
    intro before after path room status out kept call
    obtain ⟨_, _, _, result, effect⟩ := cmCreateKey_effect kept.1 path room
    rw [call] at result
    simp only [Option.some.injEq, Prod.mk.injEq] at result
    obtain ⟨rfl, rfl, rfl⟩ := result
    exact ⟨effect.tree, kept.2.trans effect.grows⟩
  induction run with
  | refl => exact ⟨tree, .refl _⟩
  | create _ path room call ih => exact create ih call
  | openKey _ path room call ih => exact create ih call
  | setValue _ key held name dataType data room ih =>
    have kept := cmSetValue_keeps ih.1 held name dataType data room
    exact ⟨kept.1, ih.2.trans kept.2⟩

/-- What the enumeration of a key's children gives for an index. -/
def enumerated (registry : Registry) : Option Nat → NtStatus × Option (List WChar)
  | none => (statusNoMoreEntries, none)
  | some child => (statusSuccess, some (registry.nodes child).name)

theorem RegistryTree.enumerate_eq (tree : RegistryTree registry) {key : Nat}
    (inside : key < registry.count) (index : Nat) :
    cmEnumerateSubKey registry (some key) index =
      enumerated registry (subkeys registry key)[index]? := by
  simp only [cmEnumerateSubKey, (tree.listed key inside).follow_eq index]
  cases (subkeys registry key)[index]? <;> rfl

/-- In every registry that calls lead to, the keys form a tree with the right
names and counts; enumeration goes through the children once, in the order of
their creation; `CmCreateKey` returns; and a path that it has once created
leads to the same node ever after, in any case, and changes nothing. -/
theorem registry_wellFormed (registry : Registry) (run : Runs cmInitSystem registry) :
    RegistryTree registry ∧
      (∀ key, key < registry.count → (subkeys registry key).Pairwise (· < ·) ∧
        ∀ index, cmEnumerateSubKey registry (some key) index =
          enumerated registry (subkeys registry key)[index]?) ∧
      (∀ path room, ∃ result, cmCreateKey registry path room = some result) ∧
      ∀ path room node after,
        cmCreateKey registry path room = some (statusSuccess, some node, after) →
        ∀ later, Runs after later → ∀ variant room', rtlEqualUnicodeString path variant = true →
          cmCreateKey later variant room' = some (statusSuccess, some node, later) := by
  have tree := (run.keeps registryTree_init).1
  refine ⟨tree, ?_, ?_, ?_⟩
  · intro key inside
    refine ⟨?_, tree.enumerate_eq inside⟩
    exact List.Pairwise.filter _ pairwise_lt_range
  · intro path room
    obtain ⟨status, out, after, result, _⟩ := cmCreateKey_effect tree path room
    exact ⟨_, result⟩
  · intro path room node after created later laterRun variant room' same
    have afterTree := ((run.create path room created).keeps registryTree_init).1
    have kept := laterRun.keeps afterTree
    exact cmCreateKey_again tree created kept.2 kept.1 same room'

/-- The registry with the one key `\A`. -/
def oneKeyRegistry : Registry :=
  ((cmCreateKey cmInitSystem [backslash, 0x41#16] (fun _ => true)).getD
    (statusSuccess, none, cmInitSystem)).2.2

theorem oneKeyRegistry_created :
    cmCreateKey cmInitSystem [backslash, 0x41#16] (fun _ => true) =
      some (statusSuccess, some 1, oneKeyRegistry) := rfl

/-- Opening it as `\a` finds the same node. -/
theorem oneKeyRegistry_reopened :
    cmCreateKey oneKeyRegistry [backslash, 0x61#16] (fun _ => true) =
      some (statusSuccess, some 1, oneKeyRegistry) :=
  (registry_wellFormed cmInitSystem .refl).2.2.2 [backslash, 0x41#16] (fun _ => true) 1
    oneKeyRegistry oneKeyRegistry_created oneKeyRegistry .refl [backslash, 0x61#16]
    (fun _ => true) (by decide)

end MinNT.Cm
