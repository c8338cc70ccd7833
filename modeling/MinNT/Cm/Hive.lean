import MinNT.Cm.RegistryRun
import MinNT.Lib.PrefixCodec

open ByteMemory
open NullTerminated
open PrefixCodec

namespace MinNT.Cm

/-- `SER_BUFFER`. Behind `size` the bytes of `data` are whatever the pool left. -/
structure SerBuffer where
  data : ByteMemory
  size : Nat
  capacity : Nat

/-- What has been written so far. -/
def SerBuffer.contents (b : SerBuffer) : List UInt8 := b.data.read 0 b.size

/-- A run of the serializer: `none` is one that does not return, an error is the
status it returns. -/
abbrev Ser (α : Type) := ExceptT NtStatus Option α

/-- What the pool grants: which sizes it has room for at the moment, and what is
in the memory it hands out. It has no more than the window that is mapped. -/
structure PoolGrants where
  room : Nat → Bool
  garbage : ByteMemory

def PoolGrants.has (pool : PoolGrants) (bytes : Nat) : Prop :=
  pool.room bytes = true ∧ bytes ≤ Mm.mmBootMappedLimit

instance (pool : PoolGrants) (bytes : Nat) : Decidable (pool.has bytes) :=
  inferInstanceAs (Decidable (_ ∧ _))

def serInit (pool : PoolGrants) (initialCap : Nat) : Ser SerBuffer :=
  if pool.has initialCap then pure ⟨pool.garbage, 0, initialCap⟩ else throw statusNoMemory

/-- The loop that doubles the capacity in 64-bit arithmetic. After 64 doublings
it is 0 and stays so. -/
def doubleCapacity (needed : Nat) : Nat → Nat → Option Nat
  | 0, _ => none
  | doublings + 1, capacity =>
      if capacity < needed then doubleCapacity needed doublings (capacity * 2 % 2 ^ 64)
      else some capacity

def serEnsure (pool : PoolGrants) (b : SerBuffer) (need : Nat) : Ser SerBuffer :=
  if (b.size + need) % 2 ^ 64 ≤ b.capacity then pure b
  else
    match doubleCapacity ((b.size + need) % 2 ^ 64) 65 b.capacity with
    | none => ExceptT.mk none
    | some capacity =>
        if pool.has capacity then
          pure ⟨pool.garbage.write 0 b.contents, b.size, capacity⟩
        else throw statusNoMemory

def serWrite (pool : PoolGrants) (b : SerBuffer) (bytes : List UInt8) : Ser SerBuffer := do
  let b ← serEnsure pool b bytes.length
  pure { b with data := b.data.write b.size bytes, size := (b.size + bytes.length) % 2 ^ 64 }

def serWriteU16 (pool : PoolGrants) (b : SerBuffer) (value : Nat) : Ser SerBuffer :=
  serWrite pool b (encodeLE 2 value)

def serWriteU32 (pool : PoolGrants) (b : SerBuffer) (value : Nat) : Ser SerBuffer :=
  serWrite pool b (encodeLE 4 value)

/-- The bytes of a name. -/
def nameBytes (name : List WChar) : List UInt8 := name.flatMap (fun c => encodeLE 2 c.toNat)

section Serialize

variable (buffers : Buffers) (pool : PoolGrants) (registry : Registry)

/-- One value of `CmSerializeKey`. A name whose buffer is gone gives no bytes
that the model could know. -/
def serializeValue (b : SerBuffer) (value : KeyValue) : Ser SerBuffer := do
  let b ← serWriteU16 pool b value.name.length
  let b ← serWrite pool b (nameBytes ((value.name.text buffers).getD []))
  let b ← serWriteU32 pool b value.dataType
  let b ← serWriteU32 pool b value.data.length
  serWrite pool b value.data

mutual

/-- `CmSerializeKey`. The fuel bounds the depth of the recursion and the steps
along the child lists together. -/
def cmSerializeKey : Nat → SerBuffer → Nat → Ser SerBuffer
  | 0, _, _ => ExceptT.mk none
  | fuel + 1, b, key => do
      let b ← serWriteU16 pool b (registry.nodes key).name.length
      let b ← serWrite pool b (nameBytes (registry.nodes key).name)
      let b ← serWriteU32 pool b (registry.nodes key).subKeyCount
      let b ← serializeChildren fuel b (registry.nodes key).childHead
      let b ← serWriteU32 pool b (registry.nodes key).valueCount
      (registry.nodes key).values.foldlM (serializeValue buffers pool) b

/-- The loop of `CmSerializeKey` over the children. -/
def serializeChildren : Nat → SerBuffer → Option Nat → Ser SerBuffer
  | _, b, none => pure b
  | 0, _, some _ => ExceptT.mk none
  | fuel + 1, b, some child => do
      let b ← cmSerializeKey fuel b child
      serializeChildren fuel b (registry.next child)

end

def hiveMagic : List UInt8 := [0x4D, 0x49, 0x4E, 0x4E, 0x54, 0x52, 0x45, 0x47]

/-- The part of `CmSaveHive` that builds the bytes of the file. Two steps of
fuel for each node are enough. -/
def cmSaveHive : Ser SerBuffer := do
  let b ← serInit pool (64 * 1024)
  let b ← serWrite pool b hiveMagic
  let b ← serWriteU32 pool b 0
  let b ← serWriteU32 pool b 0
  cmSerializeKey buffers pool registry (2 * registry.count) b cmGetRootKey

end Serialize

/-- A value as the format has it. -/
structure TreeValue where
  name : List WChar
  dataType : Nat
  data : List UInt8
deriving DecidableEq, Repr

/-- A key with everything below it. -/
inductive KeyTree where
  | key (name : List WChar) (children : List KeyTree) (values : List TreeValue)

def encodeName (name : List WChar) : List UInt8 := encodeLE 2 name.length ++ nameBytes name

def encodeValue (value : TreeValue) : List UInt8 :=
  encodeName value.name ++ encodeLE 4 value.dataType ++ encodeLE 4 value.data.length ++ value.data

mutual

/-- The record of a key, by the grammar of the format. -/
def encodeKey : KeyTree → List UInt8
  | .key name children values =>
      encodeName name ++ encodeLE 4 children.length ++ encodeKeys children ++
        encodeLE 4 values.length ++ values.flatMap encodeValue

def encodeKeys : List KeyTree → List UInt8
  | [] => []
  | tree :: trees => encodeKey tree ++ encodeKeys trees

end

def decodeName : Decoder (List WChar) := fun bytes => do
  let (length, bytes) ← takeLE 2 bytes
  let (chars, bytes) ← times (takeLE 2) length bytes
  pure (chars.map (BitVec.ofNat 16), bytes)

def decodeValue : Decoder TreeValue := fun bytes => do
  let (name, bytes) ← decodeName bytes
  let (dataType, bytes) ← takeLE 4 bytes
  let (length, bytes) ← takeLE 4 bytes
  let (data, bytes) ← takeBytes length bytes
  pure (⟨name, dataType, data⟩, bytes)

/-- A decoder of the grammar, for trees of less than the given depth. -/
def decodeKeyWithin : Nat → Decoder KeyTree
  | 0, _ => none
  | depth + 1, bytes => do
      let (name, bytes) ← decodeName bytes
      let (subkeys, bytes) ← takeLE 4 bytes
      let (children, bytes) ← times (decodeKeyWithin depth) subkeys bytes
      let (count, bytes) ← takeLE 4 bytes
      let (values, bytes) ← times decodeValue count bytes
      pure (.key name children values, bytes)

/-- A reference decoder: no tree is deeper than its record is long. -/
def decodeKey : Decoder KeyTree := fun bytes => decodeKeyWithin (bytes.length + 1) bytes

/-- The names and data of a value fit their length fields. -/
def TreeValue.Fits (value : TreeValue) : Prop :=
  value.name.length < 2 ^ 15 ∧ value.dataType < 2 ^ 32 ∧ value.data.length < 2 ^ 32

mutual

/-- Everything in the tree fits its length field. -/
def KeyTree.Fits : KeyTree → Prop
  | .key name children values =>
      name.length < 2 ^ 15 ∧ children.length < 2 ^ 32 ∧ KeysFit children ∧
        values.length < 2 ^ 32 ∧ ∀ value ∈ values, value.Fits

def KeysFit : List KeyTree → Prop
  | [] => True
  | tree :: trees => tree.Fits ∧ KeysFit trees

end

/-- The node is the root of that tree: its list of children leads through the
roots of the subtrees in their order. -/
inductive Represents (buffers : Buffers) (registry : Registry) : Nat → KeyTree → Prop
  | intro {node : Nat} {children : List Nat} {trees : List KeyTree} {values : List TreeValue}
      (listed : Listed registry.next (registry.nodes node).childHead children)
      (sameLength : children.length = trees.length)
      (below : ∀ pair ∈ children.zip trees, Represents buffers registry pair.1 pair.2)
      (sameValues : (registry.nodes node).values.map (fun value =>
        (value.name.text buffers).map (fun name =>
          (⟨name, value.dataType, value.data⟩ : TreeValue))) = values.map some) :
      Represents buffers registry node (.key (registry.nodes node).name trees values)

end MinNT.Cm
