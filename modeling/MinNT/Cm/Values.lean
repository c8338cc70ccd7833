import Mathlib.Data.List.Dedup
import Mathlib.Data.List.Induction
import MinNT.Cm.RegistryRun

namespace MinNT.Cm

open List

/-- `RtlEqualUnicodeString` of a stored name, read from its buffer. -/
def UnicodeString.equals (buffers : Buffers) (string : UnicodeString) (name : List WChar) : Bool :=
  (string.text buffers).any (fun text => rtlEqualUnicodeString text name)

/-- What `CmQueryValue` returns and leaves in its out parameters. -/
structure QueryResult where
  status : NtStatus
  dataType : Option Nat
  actualLength : Option Nat
  data : Option (List UInt8)
deriving DecidableEq, Repr

/-- `CmQueryValue`: the first value of that name. The data are copied if
`OutData`, of `outDataLength` bytes, is there and large enough. -/
def cmQueryValue (buffers : Buffers) (registry : Registry) (key : Option Nat)
    (valueName : List WChar) (outDataLength : Option Nat) : QueryResult :=
  match key with
  | none => ⟨statusInvalidParameter, none, none, none⟩
  | some key =>
      match (registry.nodes key).values.find? (fun value =>
          value.name.equals buffers valueName) with
      | none => ⟨statusObjectNameNotFound, none, none, none⟩
      | some value =>
          ⟨statusSuccess, some value.dataType, some value.data.length,
            if outDataLength.any (fun length => value.data.length ≤ length) then some value.data
            else none⟩

/-- `RemoveEntryList` of the first value of that name, and the count. -/
def KeyNode.removeValue (buffers : Buffers) (node : KeyNode) (name : List WChar) : KeyNode :=
  { node with
    values := node.values.eraseP (fun value => value.name.equals buffers name)
    valueCount := subtract32 node.valueCount 1 }

/-- `NtDeleteValueKey`, for the key that the handle was found to refer to. -/
def ntDeleteValueKey (buffers : Buffers) (registry : Registry) (key : Except NtStatus Nat)
    (valueName : Option (List WChar)) : NtStatus × Registry :=
  match valueName, key with
  | none, _ => (statusInvalidParameter, registry)
  | some _, .error status => (status, registry)
  | some name, .ok key =>
      if (registry.nodes key).values.any (fun value => value.name.equals buffers name) then
        (statusSuccess, registry.setNode key ((registry.nodes key).removeValue buffers name))
      else (statusObjectNameNotFound, registry)

/-- An operation on the values of a key. -/
inductive ValueOp where
  | set (name : UnicodeString) (dataType : Nat) (data : List UInt8)
  | delete (name : List WChar)
deriving DecidableEq

def ValueOp.run (buffers : Buffers) (key : Nat) (registry : Registry) :
    ValueOp → NtStatus × Registry
  | .set name dataType data => cmSetValue registry (some key) (some name) dataType data true
  | .delete name => ntDeleteValueKey buffers registry (.ok key) (some name)

/-- The type and the data that the operations, oldest first, leave under a name. -/
def latest (buffers : Buffers) (name : List WChar) : List ValueOp → Option (Nat × List UInt8) :=
  List.foldl (fun found op =>
    match op with
    | .set other dataType data => if other.equals buffers name then some (dataType, data) else found
    | .delete other => if rtlEqualUnicodeString other name then none else found) none

/-- The names, in upper case, under which the operations leave a value. -/
def presentNames (buffers : Buffers) (history : List ValueOp) : List (List WChar) :=
  (history.filterMap (fun op =>
    match op with
    | .set name _ _ => (name.text buffers).map (List.map rtlpUpcase)
    | .delete _ => none)).dedup.filter (fun name => (latest buffers name history).isSome)

/-- What a query must give for the type and the data under a name. -/
def expectedQuery : Option (Nat × List UInt8) → QueryResult
  | none => ⟨statusObjectNameNotFound, none, none, none⟩
  | some (dataType, data) => ⟨statusSuccess, some dataType, some data.length, some data⟩

/-- The values of the key are the map that the operations describe. -/
def IsValueMap (buffers : Buffers) (key : Nat) (registry : Registry) (history : List ValueOp) :
    Prop :=
  (∀ name outDataLength,
    (∀ found, latest buffers name history = some found → found.2.length ≤ outDataLength) →
    cmQueryValue buffers registry (some key) name (some outDataLength) =
      expectedQuery (latest buffers name history)) ∧
  (registry.nodes key).valueCount = (presentNames buffers history).length

/-- They are so before and after each of the operations to come. -/
def IsValueMapThroughout (buffers : Buffers) (key : Nat) :
    Registry → List ValueOp → List ValueOp → Prop
  | registry, history, [] => IsValueMap buffers key registry history
  | registry, history, op :: ops =>
      IsValueMap buffers key registry history ∧
        IsValueMapThroughout buffers key (op.run buffers key registry).2 (history ++ [op]) ops

/-- Each value is set under a name that no value has at that time. -/
def SetsNewNames (buffers : Buffers) : List ValueOp → List ValueOp → Prop
  | _, [] => True
  | history, op :: ops =>
      (∀ name text dataType data, op = .set name dataType data → name.text buffers = some text →
        latest buffers text history = none) ∧
      SetsNewNames buffers (history ++ [op]) ops

/-- The memory does not run out and the names are still there. -/
def RunsThrough (buffers : Buffers) (key : Nat) : Registry → List ValueOp → Prop
  | _, [] => True
  | registry, op :: ops =>
      (∀ name dataType data, op = .set name dataType data →
        (op.run buffers key registry).1 = statusSuccess ∧ ∃ text, name.text buffers = some text) ∧
      RunsThrough buffers key (op.run buffers key registry).2 ops

theorem rtlpUpcase_idem (c : WChar) : rtlpUpcase (rtlpUpcase c) = rtlpUpcase c := by
  unfold rtlpUpcase
  split
  · rw [if_neg (by bv_omega)]
  · rfl

theorem map_upcase_idem (name : List WChar) :
    (name.map rtlpUpcase).map rtlpUpcase = name.map rtlpUpcase := by
  simp only [map_map]
  apply map_congr_left
  intro c _
  exact rtlpUpcase_idem c

/-- A stored name in upper case. -/
def UnicodeString.upper (buffers : Buffers) (string : UnicodeString) : Option (List WChar) :=
  (string.text buffers).map (List.map rtlpUpcase)

theorem UnicodeString.equals_iff (buffers : Buffers) (string : UnicodeString) (name : List WChar) :
    string.equals buffers name = true ↔ string.upper buffers = some (name.map rtlpUpcase) := by
  unfold UnicodeString.equals UnicodeString.upper
  cases string.text buffers with
  | none => simp
  | some text => simp [rtlEqualUnicodeString_iff]

theorem UnicodeString.upper_upcase {buffers : Buffers} {string : UnicodeString} {name : List WChar}
    (known : string.upper buffers = some name) : name.map rtlpUpcase = name := by
  simp only [UnicodeString.upper, Option.map_eq_some_iff] at known
  obtain ⟨text, _, rfl⟩ := known
  exact map_upcase_idem text

theorem UnicodeString.equals_congr (buffers : Buffers) (string : UnicodeString)
    {name name' : List WChar} (same : name.map rtlpUpcase = name'.map rtlpUpcase) :
    string.equals buffers name = string.equals buffers name' := by
  rw [Bool.eq_iff_iff, UnicodeString.equals_iff, UnicodeString.equals_iff, same]

section Latest

variable (buffers : Buffers)

theorem latest_append (name : List WChar) (history : List ValueOp) (op : ValueOp) :
    latest buffers name (history ++ [op]) =
      match op with
      | .set other dataType data =>
        if other.equals buffers name then some (dataType, data) else latest buffers name history
      | .delete other =>
        if rtlEqualUnicodeString other name then none else latest buffers name history := by
  simp only [latest, foldl_append, foldl_cons, foldl_nil]

theorem latest_congr {name name' : List WChar} (same : name.map rtlpUpcase = name'.map rtlpUpcase)
    (history : List ValueOp) : latest buffers name history = latest buffers name' history := by
  induction history using List.reverseRecOn with
  | nil => rfl
  | append_singleton history op ih =>
    rw [latest_append, latest_append, ih]
    cases op with
    | set other dataType data => simp only [UnicodeString.equals_congr buffers other same]
    | delete other =>
      have equal : rtlEqualUnicodeString other name = rtlEqualUnicodeString other name' := by
        rw [Bool.eq_iff_iff, rtlEqualUnicodeString_iff, rtlEqualUnicodeString_iff, same]
      simp only [equal]

/-- The names of the values that were set. -/
def setNames (history : List ValueOp) : List (List WChar) :=
  history.filterMap (fun op =>
    match op with
    | .set name _ _ => (name.text buffers).map (List.map rtlpUpcase)
    | .delete _ => none)

variable {name : List WChar} {history : List ValueOp}

theorem mem_setNames_of_latest {found : Nat × List UInt8}
    (known : latest buffers name history = some found) :
    name.map rtlpUpcase ∈ setNames buffers history := by
  induction history using List.reverseRecOn with
  | nil => cases known
  | append_singleton history op ih =>
    have older : latest buffers name history = some found →
        name.map rtlpUpcase ∈ setNames buffers (history ++ [op]) := by
      intro before
      rw [setNames, filterMap_append]
      exact mem_append_left _ (ih before)
    rw [latest_append] at known
    cases op with
    | set other dataType data =>
      dsimp only at known
      split at known
      · rename_i equal
        rw [setNames, filterMap_append]
        apply mem_append_right
        have upper := (UnicodeString.equals_iff buffers other name).mp equal
        simp only [UnicodeString.upper] at upper
        simp [upper]
      · exact older known
    | delete other =>
      dsimp only at known
      split at known
      · cases known
      · exact older known

theorem upcase_of_mem_setNames
    (member : name ∈ setNames buffers history) : name.map rtlpUpcase = name := by
  simp only [setNames, mem_filterMap] at member
  obtain ⟨op, _, known⟩ := member
  cases op with
  | set other dataType data => exact UnicodeString.upper_upcase known
  | delete other => cases known

theorem mem_presentNames :
    name ∈ presentNames buffers history ↔
      name.map rtlpUpcase = name ∧ (latest buffers name history).isSome = true := by
  have shape : presentNames buffers history = (setNames buffers history).dedup.filter
      (fun name => (latest buffers name history).isSome) := rfl
  rw [shape, mem_filter, mem_dedup]
  constructor
  · intro both
    exact ⟨upcase_of_mem_setNames buffers both.1, both.2⟩
  · intro both
    obtain ⟨found, known⟩ := Option.isSome_iff_exists.mp both.2
    have member := mem_setNames_of_latest buffers known
    rw [both.1] at member
    exact ⟨member, both.2⟩

theorem presentNames_nodup (history : List ValueOp) : (presentNames buffers history).Nodup :=
  (nodup_dedup _).filter _

theorem presentNames_length_congr {history history' : List ValueOp}
    (same : ∀ name, (latest buffers name history).isSome = (latest buffers name history').isSome) :
    (presentNames buffers history).length = (presentNames buffers history').length := by
  apply List.Perm.length_eq
  apply (perm_ext_iff_of_nodup (presentNames_nodup buffers history)
    (presentNames_nodup buffers history')).mpr
  intro name
  rw [mem_presentNames, mem_presentNames, same name]

end Latest

/-- The values of the key, while no name has been set twice. -/
structure ValueInv (buffers : Buffers) (node : KeyNode) (history : List ValueOp) : Prop where
  alive : ∀ value ∈ node.values, ∃ name, value.name.upper buffers = some name
  different : node.values.Pairwise (fun value other =>
    value.name.upper buffers ≠ other.name.upper buffers)
  found : ∀ name, (node.values.find? (fun value => value.name.equals buffers name)).map
    (fun value => (value.dataType, value.data)) = latest buffers name history
  counted : node.valueCount = node.values.length
  bounded : node.values.length ≤ cmValueLimit

section Invariant

variable {buffers : Buffers} {node : KeyNode} {history : List ValueOp}

theorem ValueInv.length_eq (inv : ValueInv buffers node history) :
    node.values.length = (presentNames buffers history).length := by
  have uppers : (node.values.filterMap (fun value => value.name.upper buffers)).length =
      node.values.length := by
    rw [length_filterMap_eq_countP, countP_eq_length]
    intro value member
    obtain ⟨name, known⟩ := inv.alive value member
    rw [known, Option.isSome_some]
  rw [← uppers]
  apply List.Perm.length_eq
  apply (perm_ext_iff_of_nodup _ (presentNames_nodup buffers history)).mpr
  · intro name
    rw [mem_presentNames, ← inv.found name, Option.isSome_map, find?_isSome, mem_filterMap]
    constructor
    · rintro ⟨value, member, known⟩
      have upcase := UnicodeString.upper_upcase known
      refine ⟨upcase, value, member, ?_⟩
      rw [UnicodeString.equals_iff, upcase, known]
    · rintro ⟨upcase, value, member, equal⟩
      rw [UnicodeString.equals_iff, upcase] at equal
      exact ⟨value, member, equal⟩
  · apply List.Pairwise.filterMap _ _ inv.different
    intro value other distinct name known name' known' same
    subst name'
    exact distinct (known.trans known'.symm)

theorem ValueInv.isValueMap {registry : Registry} {key : Nat}
    (inv : ValueInv buffers (registry.nodes key) history) :
    IsValueMap buffers key registry history := by
  constructor
  · intro name outDataLength large
    have known := inv.found name
    unfold cmQueryValue
    dsimp only
    rw [← known] at large ⊢
    cases first : (registry.nodes key).values.find? (fun value =>
        value.name.equals buffers name) with
    | none => rfl
    | some value =>
      rw [first] at large
      have fits : value.data.length ≤ outDataLength := large _ rfl
      simp [expectedQuery, fits]
  · rw [inv.counted, inv.length_eq]

/-- A name that is not set gets a value of its own. -/
theorem ValueInv.addValue (inv : ValueInv buffers node history)
    {name : UnicodeString} {text : List WChar} (alive : name.text buffers = some text)
    (new : latest buffers text history = none) (room : node.values.length < cmValueLimit)
    (dataType : Nat) (data : List UInt8) :
    ValueInv buffers (node.addValue ⟨name, dataType, data⟩)
      (history ++ [.set name dataType data]) := by
  have upper : name.upper buffers = some (text.map rtlpUpcase) := by
    rw [UnicodeString.upper, alive, Option.map_some]
  have absent : ∀ value ∈ node.values, value.name.equals buffers text = false := by
    have nothing := inv.found text
    rw [new, Option.map_eq_none_iff, find?_eq_none] at nothing
    simpa using nothing
  constructor
  · intro value member
    rcases mem_append.mp member with old | added
    · exact inv.alive value old
    · obtain rfl := mem_singleton.mp added
      exact ⟨_, upper⟩
  · apply pairwise_append.mpr
    refine ⟨inv.different, pairwise_singleton _ _, ?_⟩
    intro value member added isAdded same
    obtain rfl := mem_singleton.mp isAdded
    have equal := (UnicodeString.equals_iff buffers value.name text).mpr (same.trans upper)
    rw [absent value member] at equal
    cases equal
  · intro other
    rw [latest_append, KeyNode.addValue]
    dsimp only
    rw [find?_append]
    by_cases equal : name.equals buffers other = true
    · have same : text.map rtlpUpcase = other.map rtlpUpcase := by
        rw [UnicodeString.equals_iff, upper] at equal
        exact Option.some.inj equal
      have older : node.values.find? (fun value => value.name.equals buffers other) = none := by
        apply find?_eq_none.mpr
        intro value member
        rw [← UnicodeString.equals_congr buffers value.name same, absent value member]
        decide
      rw [older]
      simp [equal]
    · rw [if_neg equal, ← inv.found other, find?_singleton, if_neg equal, Option.or_none]
  · have limit : cmValueLimit < 2 ^ 32 := by decide
    simp only [KeyNode.addValue, length_append, length_singleton, inv.counted]
    exact Nat.mod_eq_of_lt (by omega)
  · simp only [KeyNode.addValue, length_append, length_singleton]
    exact room

/-- What a deletion leaves to be found. -/
theorem find_eraseP {values : List KeyValue}
    (different : values.Pairwise (fun value other =>
      value.name.upper buffers ≠ other.name.upper buffers)) (gone name : List WChar) :
    (values.eraseP (fun value => value.name.equals buffers gone)).find? (fun value =>
        value.name.equals buffers name) =
      if rtlEqualUnicodeString gone name then none
      else values.find? (fun value => value.name.equals buffers name) := by
  induction values with
  | nil => simp
  | cons value values ih =>
    obtain ⟨apart, rest⟩ := pairwise_cons.mp different
    by_cases first : value.name.equals buffers gone = true
    · have known := (UnicodeString.equals_iff buffers value.name gone).mp first
      rw [eraseP_cons, first, cond_true]
      by_cases same : rtlEqualUnicodeString gone name = true
      · rw [if_pos same, find?_eq_none]
        intro other member equal
        rw [rtlEqualUnicodeString_iff] at same
        rw [UnicodeString.equals_iff, ← same, ← known] at equal
        exact apart other member equal.symm
      · rw [if_neg same, find?_cons_of_neg]
        intro equal
        rw [UnicodeString.equals_iff, known, Option.some.injEq] at equal
        exact same ((rtlEqualUnicodeString_iff gone name).mpr equal)
    · rw [eraseP_cons, Bool.eq_false_iff.mpr first, cond_false, find?_cons, ih rest]
      by_cases equal : value.name.equals buffers name = true
      · have other : ¬ rtlEqualUnicodeString gone name = true := by
          intro same
          rw [rtlEqualUnicodeString_iff] at same
          rw [UnicodeString.equals_congr buffers value.name same] at first
          exact first equal
        simp [equal, other]
      · simp [equal]

theorem ValueInv.removeValue (inv : ValueInv buffers node history) (name : List WChar)
    (present : node.values.any (fun value => value.name.equals buffers name) = true) :
    ValueInv buffers (node.removeValue buffers name) (history ++ [.delete name]) := by
  obtain ⟨value, member, equal⟩ := any_eq_true.mp present
  have sub : (node.values.eraseP (fun value => value.name.equals buffers name)).Sublist
      node.values := eraseP_sublist
  have length : (node.values.eraseP (fun value => value.name.equals buffers name)).length =
      node.values.length - 1 := length_eraseP_of_mem member equal
  have positive : 0 < node.values.length := length_pos_of_mem member
  constructor
  · intro other inside
    exact inv.alive other (sub.subset inside)
  · exact inv.different.sublist sub
  · intro other
    rw [latest_append, KeyNode.removeValue]
    dsimp only
    rw [find_eraseP inv.different, ← inv.found other]
    by_cases same : rtlEqualUnicodeString name other = true
    · rw [if_pos same, if_pos same, Option.map_none]
    · rw [if_neg same, if_neg same]
  · rw [KeyNode.removeValue, length, inv.counted]
    exact subtract32_of_le positive
  · rw [KeyNode.removeValue]
    dsimp only
    have bounded := inv.bounded
    omega

theorem ValueInv.deleteNothing (inv : ValueInv buffers node history) (name : List WChar)
    (absent : ¬ node.values.any (fun value => value.name.equals buffers name) = true) :
    ValueInv buffers node (history ++ [.delete name]) := by
  refine ⟨inv.alive, inv.different, ?_, inv.counted, inv.bounded⟩
  intro other
  rw [latest_append]
  dsimp only
  split
  · rename_i same
    rw [rtlEqualUnicodeString_iff] at same
    rw [Option.map_eq_none_iff, find?_eq_none]
    intro value member equal
    rw [← UnicodeString.equals_congr buffers value.name same] at equal
    exact absent (any_eq_true.mpr ⟨value, member, equal⟩)
  · exact inv.found other

end Invariant

section Runs

variable {buffers : Buffers} {registry : Registry} {key : Nat} {history : List ValueOp}

theorem setValue_success {name : UnicodeString} {dataType : Nat} {data : List UInt8}
    (done : (ValueOp.run buffers key registry (.set name dataType data)).1 = statusSuccess) :
    (registry.nodes key).values.length < cmValueLimit ∧
      (ValueOp.run buffers key registry (.set name dataType data)).2.nodes key =
        (registry.nodes key).addValue ⟨name, dataType, data⟩ := by
  simp only [ValueOp.run, cmSetValue, true_and] at done ⊢
  split at done
  · rename_i room
    rw [if_pos room]
    exact ⟨room.2, Function.update_self _ _ _⟩
  · simp [statusNoMemory, statusSuccess] at done

theorem ValueInv.run_delete (inv : ValueInv buffers (registry.nodes key) history)
    (name : List WChar) :
    ValueInv buffers ((ValueOp.run buffers key registry (.delete name)).2.nodes key)
      (history ++ [.delete name]) := by
  simp only [ValueOp.run, ntDeleteValueKey]
  split
  · rename_i present
    have own : (registry.setNode key ((registry.nodes key).removeValue buffers name)).nodes key =
        (registry.nodes key).removeValue buffers name := Function.update_self _ _ _
    dsimp only
    rw [own]
    exact inv.removeValue name present
  · rename_i absent
    exact inv.deleteNothing name absent

theorem ValueInv.not_isValueMap (inv : ValueInv buffers (registry.nodes key) history)
    {name : UnicodeString} {text : List WChar} {dataType : Nat} {data : List UInt8}
    (alive : name.text buffers = some text) (taken : latest buffers text history ≠ none)
    (done : (ValueOp.run buffers key registry (.set name dataType data)).1 = statusSuccess) :
    ¬ IsValueMap buffers key (ValueOp.run buffers key registry (.set name dataType data)).2
      (history ++ [.set name dataType data]) := by
  intro map
  have counted := map.2
  obtain ⟨room, own⟩ := setValue_success done
  have same : (presentNames buffers (history ++ [.set name dataType data])).length =
      (presentNames buffers history).length := by
    apply presentNames_length_congr
    intro other
    rw [latest_append]
    dsimp only
    split
    · rename_i equal
      have upper : text.map rtlpUpcase = other.map rtlpUpcase := by
        rw [UnicodeString.equals_iff, UnicodeString.upper, alive, Option.map_some] at equal
        exact Option.some.inj equal
      rw [← latest_congr buffers upper history]
      exact (Option.isSome_iff_ne_none.mpr taken).symm
    · rfl
  rw [own, same, ← inv.length_eq, KeyNode.addValue] at counted
  dsimp only at counted
  rw [inv.counted, Nat.mod_eq_of_lt (by omega)] at counted
  omega

theorem IsValueMapThroughout.now {ops : List ValueOp}
    (throughout : IsValueMapThroughout buffers key registry history ops) :
    IsValueMap buffers key registry history := by
  cases ops with
  | nil => exact throughout
  | cons op ops => exact throughout.1

/-- Along a run, from any values that are in order. -/
theorem isValueMapThroughout_iff (inv : ValueInv buffers (registry.nodes key) history)
    (ops : List ValueOp) (through : RunsThrough buffers key registry ops) :
    IsValueMapThroughout buffers key registry history ops ↔ SetsNewNames buffers history ops := by
  induction ops generalizing registry history with
  | nil => exact iff_of_true inv.isValueMap trivial
  | cons op ops ih =>
    obtain ⟨succeeds, later⟩ := through
    cases op with
    | delete name =>
      have next := ih (inv.run_delete name) later
      constructor
      · intro throughout
        exact ⟨(fun _ _ _ _ other => nomatch other), next.mp throughout.2⟩
      · intro sets
        exact ⟨inv.isValueMap, next.mpr sets.2⟩
    | set name dataType data =>
      obtain ⟨done, text, alive⟩ := succeeds name dataType data rfl
      obtain ⟨room, own⟩ := setValue_success done
      have next : latest buffers text history = none →
          (IsValueMapThroughout buffers key
            (ValueOp.run buffers key registry (.set name dataType data)).2
            (history ++ [.set name dataType data]) ops ↔
          SetsNewNames buffers (history ++ [.set name dataType data]) ops) := by
        intro new
        have kept := inv.addValue alive new room dataType data
        rw [← own] at kept
        exact ih kept later
      constructor
      · intro throughout
        have new : latest buffers text history = none := by
          by_contra taken
          exact inv.not_isValueMap alive taken done throughout.2.now
        refine ⟨?_, (next new).mp throughout.2⟩
        intro other otherText otherType otherData same otherAlive
        cases same
        rw [alive] at otherAlive
        cases otherAlive
        exact new
      · intro sets
        have new := sets.1 name text dataType data rfl alive
        exact ⟨inv.isValueMap, (next new).mpr sets.2⟩

end Runs

/-- The values of a key that had none are the map that the operations on it
describe, in every state they go through, exactly when no value is set under a
name that is present. -/
theorem values_areMap_iff (buffers : Buffers) (registry : Registry) (key : Nat) (ops : List ValueOp)
    (unset : (registry.nodes key).values = [] ∧ (registry.nodes key).valueCount = 0)
    (through : RunsThrough buffers key registry ops) :
    IsValueMapThroughout buffers key registry [] ops ↔ SetsNewNames buffers [] ops := by
  apply isValueMapThroughout_iff _ ops through
  constructor
  · simp [unset.1]
  · simp [unset.1]
  · intro name
    rw [unset.1]
    rfl
  · rw [unset.1, unset.2]
    rfl
  · simp [unset.1]

/-- One buffer that holds the name `A`. -/
def oneName : Buffers := fun buffer => if buffer = 0 then some [0x41#16] else none

/-- Setting, deleting as `a` and setting again. -/
def setDeleteSet : List ValueOp :=
  [.set ⟨0, 1⟩ 4 [1], .delete [0x61#16], .set ⟨0, 1⟩ 4 [2]]

/-- A value that is set, deleted and set again. -/
theorem setDeleteSet_isMap :
    IsValueMapThroughout oneName cmGetRootKey cmInitSystem [] setDeleteSet := by
  have name : UnicodeString.text oneName ⟨0, 1⟩ = some [0x41#16] := by decide
  have through : RunsThrough oneName cmGetRootKey cmInitSystem setDeleteSet := by
    refine ⟨?_, (fun _ _ _ other => nomatch other), ?_, trivial⟩
    · rintro _ _ _ ⟨⟩
      exact ⟨by decide, _, name⟩
    · rintro _ _ _ ⟨⟩
      exact ⟨by decide, _, name⟩
  have sets : SetsNewNames oneName [] setDeleteSet := by
    refine ⟨?_, (fun _ _ _ _ other => nomatch other), ?_, trivial⟩
    · rintro _ _ _ _ ⟨⟩ alive
      rw [name] at alive
      cases alive
      decide
    · rintro _ _ _ _ ⟨⟩ alive
      rw [name] at alive
      cases alive
      decide
  exact (values_areMap_iff oneName cmInitSystem cmGetRootKey setDeleteSet ⟨rfl, rfl⟩ through).mpr
    sets

/-- Setting a name twice leaves the first value to be found. -/
theorem setTwice_isNoMap :
    ¬ IsValueMapThroughout oneName cmGetRootKey cmInitSystem []
      [.set ⟨0, 1⟩ 4 [1], .set ⟨0, 1⟩ 4 [2]] := by
  intro throughout
  have query := throughout.2.2.1 [0x41#16] 1
  have set : latest oneName [0x41#16] [.set ⟨0, 1⟩ 4 [1], .set ⟨0, 1⟩ 4 [2]] = some (4, [2]) := by
    decide
  simp only [nil_append, cons_append, set, Option.some.injEq, forall_eq'] at query
  exact absurd (query (by decide)) (by decide)

end MinNT.Cm
