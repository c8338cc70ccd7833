import Mathlib.Logic.Function.Basic
import MinNT.Lib.NullTerminated
import MinNT.Mm.PhysicalPage

open NullTerminated

namespace MinNT.Cm

abbrev WChar := BitVec 16

/-- `L'\\'`. -/
def backslash : WChar := 0x5C#16

def rtlpUpcase (c : WChar) : WChar := if 0x61#16 ≤ c ∧ c ≤ 0x7A#16 then c - 32#16 else c

/-- `RtlEqualUnicodeString` with `CaseInsensitive`. -/
def rtlEqualUnicodeString (a b : List WChar) : Bool :=
  a.length == b.length && (a.zip b).all (fun pair => rtlpUpcase pair.1 == rtlpUpcase pair.2)

/-- `UNICODE_STRING`: a buffer, by its address, and a length in characters. -/
structure UnicodeString where
  buffer : Nat
  length : Nat
deriving DecidableEq, Repr

/-- What the memory behind string buffers holds, as long as it is there. -/
abbrev Buffers := Nat → Option (List WChar)

/-- The characters of a string whose buffer is still there. -/
def UnicodeString.text (buffers : Buffers) (string : UnicodeString) : Option (List WChar) :=
  if string.length = 0 then some []
  else
    (buffers string.buffer).bind (fun chars =>
      if string.length ≤ chars.length then some (chars.take string.length) else none)

/-- `CM_KEY_VALUE`. The name is the caller's `UNICODE_STRING`, copied with its
buffer pointer; the data are a copy of `DataLength` bytes. -/
structure KeyValue where
  name : UnicodeString
  dataType : Nat
  data : List UInt8
deriving DecidableEq, Repr

/-- `CM_KEY_NODE`. The name is a copy in the pool; a node is named by the order
in which it was allocated. -/
structure KeyNode where
  name : List WChar
  parent : Option Nat
  childHead : Option Nat
  nextSibling : Option Nat
  subKeyCount : Nat
  valueCount : Nat
  values : List KeyValue
deriving DecidableEq, Repr

/-- The key nodes; node 0 is `CmRootKey`. -/
structure Registry where
  nodes : Nat → KeyNode
  count : Nat

def cmGetRootKey : Nat := 0

/-- A key node takes 72 bytes of the pool, which lies in the window that the
boot stub maps: more of them there cannot be. -/
def cmNodeLimit : Nat := Mm.mmBootMappedLimit / 72

/-- The same bound for values, of 56 bytes each. -/
def cmValueLimit : Nat := Mm.mmBootMappedLimit / 56

def Registry.setNode (registry : Registry) (node : Nat) (value : KeyNode) : Registry :=
  { registry with nodes := Function.update registry.nodes node value }

/-- The sibling that follows a node. -/
def Registry.next (registry : Registry) (node : Nat) : Option Nat :=
  (registry.nodes node).nextSibling

def cmInitSystem : Registry where
  nodes := fun _ => ⟨[backslash], none, none, none, 0, 0, []⟩
  count := 1

/-- `CmFindChild`. The outer `none` is a list without end. -/
def cmFindChild (registry : Registry) (parent : Nat) (name : List WChar) :
    Option (Option Nat) :=
  search registry.next (fun child => rtlEqualUnicodeString (registry.nodes child).name name)
    registry.count (registry.nodes parent).childHead

/-- `CmAllocateKeyNode`, with `room` saying whether the pool has space for the
node and its name. -/
def cmAllocateKeyNode (registry : Registry) (name : List WChar) (room : Bool) :
    Option (Nat × Registry) :=
  if room = true ∧ registry.count < cmNodeLimit then
    some (registry.count,
      { nodes := Function.update registry.nodes registry.count ⟨name, none, none, none, 0, 0, []⟩
        count := registry.count + 1 })
  else none

/-- The part of `CmCreateKey` that hangs a new node behind the last child. -/
def linkChild (registry : Registry) (parent node : Nat) : Option Registry :=
  let owned := registry.setNode node { registry.nodes node with parent := some parent }
  let linked :=
    match (owned.nodes parent).childHead with
    | some first =>
        (lastCell owned.next owned.count first).map (fun last =>
          owned.setNode last { owned.nodes last with nextSibling := some node })
    | none =>
        some (owned.setNode parent { owned.nodes parent with childHead := some node })
  linked.map (fun linked =>
    linked.setNode parent
      { linked.nodes parent with
        subKeyCount := ((linked.nodes parent).subKeyCount + 1) % 2 ^ 32 })

/-- One pass of the parsing loop: the segment, and what remains behind the
backslash it stopped at. A backslash in front leaves the length at 0, which the
code takes for "none found": the segment is then all that remains. -/
def nextSegment (remaining : List WChar) : List WChar × Option (List WChar) :=
  let i := remaining.findIdx (fun c => c == backslash)
  let segment := if i < remaining.length ∧ i ≠ 0 then remaining.take i else remaining
  (segment, if i < remaining.length then some (remaining.drop (i + 1)) else none)

/-- The segments of a path, one for each pass of the loop. -/
def pathSegments : Nat → List WChar → List (List WChar)
  | 0, _ => []
  | passes + 1, remaining =>
      if remaining = [] then []
      else
        (nextSegment remaining).1 ::
          match (nextSegment remaining).2 with
          | none => []
          | some rest => pathSegments passes rest

/-- `Skip leading backslash`. -/
def skipBackslash (path : List WChar) : List WChar :=
  if path.head? = some backslash then path.tail else path

/-- The loop of `CmCreateKey` over the segments: the status, the node reached
and the registry. `room` answers for the allocation of each node. -/
def findOrCreate (room : Nat → Bool) :
    List (List WChar) → Nat → Registry → Option (NtStatus × Option Nat × Registry)
  | [], parent, registry => some (statusSuccess, some parent, registry)
  | segment :: segments, parent, registry =>
      match cmFindChild registry parent segment with
      | none => none
      | some (some node) => findOrCreate room segments node registry
      | some none =>
          match cmAllocateKeyNode registry segment (room registry.count) with
          | none => some (statusNoMemory, none, registry)
          | some (node, allocated) =>
              match linkChild allocated parent node with
              | none => none
              | some linked => findOrCreate room segments node linked

/-- `CmCreateKey`. The outer `none` is a call that does not return. -/
def cmCreateKey (registry : Registry) (keyName : List WChar) (room : Nat → Bool) :
    Option (NtStatus × Option Nat × Registry) :=
  findOrCreate room (pathSegments keyName.length (skipBackslash keyName)) cmGetRootKey registry

def cmOpenKey (registry : Registry) (keyName : List WChar) (room : Nat → Bool) :
    Option (NtStatus × Option Nat × Registry) :=
  cmCreateKey registry keyName room

/-- `InsertTailList` of a value, and the count. -/
def KeyNode.addValue (node : KeyNode) (value : KeyValue) : KeyNode :=
  { node with
    values := node.values ++ [value]
    valueCount := (node.valueCount + 1) % 2 ^ 32 }

/-- `CmSetValue`, with `room` saying whether the pool has space for the value
and its data; it never has an empty block. -/
def cmSetValue (registry : Registry) (key : Option Nat) (valueName : Option UnicodeString)
    (dataType : Nat) (data : List UInt8) (room : Bool) : NtStatus × Registry :=
  match key, valueName with
  | some key, some valueName =>
      if data ≠ [] ∧ room = true ∧ (registry.nodes key).values.length < cmValueLimit then
        (statusSuccess,
          registry.setNode key ((registry.nodes key).addValue ⟨valueName, dataType, data⟩))
      else (statusNoMemory, registry)
  | _, _ => (statusInvalidParameter, registry)

def cmEnumerateSubKey (registry : Registry) (key : Option Nat) (index : Nat) :
    NtStatus × Option (List WChar) :=
  match key with
  | none => (statusInvalidParameter, none)
  | some key =>
      match follow registry.next index (registry.nodes key).childHead with
      | none => (statusNoMoreEntries, none)
      | some child => (statusSuccess, some (registry.nodes child).name)

theorem rtlEqualUnicodeString_iff (a b : List WChar) :
    rtlEqualUnicodeString a b = true ↔ a.map rtlpUpcase = b.map rtlpUpcase := by
  induction a generalizing b with
  | nil => cases b <;> simp [rtlEqualUnicodeString]
  | cons first a ih =>
    cases b with
    | nil => simp [rtlEqualUnicodeString]
    | cons second b =>
      have rest := ih b
      simp only [rtlEqualUnicodeString, Bool.and_eq_true, beq_iff_eq] at rest
      simp only [rtlEqualUnicodeString, List.length_cons, List.zip_cons_cons, List.all_cons,
        Bool.and_eq_true, beq_iff_eq, List.map_cons, List.cons.injEq, Nat.add_right_cancel_iff,
        ← rest]
      constructor
      · intro parts
        exact ⟨parts.2.1, parts.1, parts.2.2⟩
      · intro parts
        exact ⟨parts.2.1, parts.1, parts.2.2⟩

theorem rtlpUpcase_backslash {c d : WChar} (same : rtlpUpcase c = rtlpUpcase d) :
    c = backslash ↔ d = backslash := by
  unfold rtlpUpcase backslash at *
  split at same <;> split at same <;> bv_omega

end MinNT.Cm
