import MinNT.Cm.HiveCodec

open ByteMemory
open NullTerminated
open PrefixCodec

namespace MinNT.Cm

/-- `DES_SER`, as the bytes that are still to be read, and the registry that the
calls of the parser change. -/
structure DesState where
  unread : List UInt8
  registry : Registry

/-- A run of the parser. An error keeps what was changed before it; `none` is a
run that does not return. -/
abbrev Des (α : Type) := ExceptT NtStatus (StateT DesState Option) α

def Des.runFrom {α : Type} (action : Des α) (d : DesState) :
    Option (Except NtStatus α × DesState) :=
  StateT.run (ExceptT.run action) d

/-- A run that does not return. -/
def Des.stuck {α : Type} : Des α := ExceptT.mk (fun _ => none)

def desRead (len : Nat) : Des (List UInt8) := do
  let d ← get
  match takeBytes len d.unread with
  | none => throw statusInvalidImageFormat
  | some (bytes, unread) =>
      set { d with unread }
      pure bytes

def desReadU16 : Des Nat := do
  let bytes ← desRead 2
  pure (decodeLE bytes)

def desReadU32 : Des Nat := do
  let bytes ← desRead 4
  pure (decodeLE bytes)

/-- A counted loop. -/
def desTimes (action : Des Unit) : Nat → Des Unit
  | 0 => pure ()
  | count + 1 => do
      action
      desTimes action count

/-- The `WCHAR`s of a name that was read. -/
def decodeChars : List UInt8 → List WChar
  | low :: high :: bytes => BitVec.ofNat 16 (decodeLE [low, high]) :: decodeChars bytes
  | _ => []

section Deserialize

/- `room` answers for the pool, by the number of bytes still unread and the
number of keys; `vname` is the address of the array `vname` in each frame of
`CmDeserializeKey`, the frames numbered by the fuel they have left. -/
variable (room : Nat → Nat → Bool) (vname : Nat → Nat)

/-- The call of `CmCreateKey`. -/
def desCreateKey (name : List WChar) : Des Nat := do
  let d ← get
  match cmCreateKey d.registry name (room d.unread.length) with
  | none => Des.stuck
  | some (status, out, registry) => do
      set { d with registry }
      match out with
      | some node => pure node
      | none => throw status

/-- The data of a value, read into a pool block of their length. -/
def desReadData (dlen : Nat) : Des (List UInt8) := do
  let d ← get
  if room d.unread.length d.registry.count then desRead dlen else throw statusNoMemory

/-- The call of `CmSetValue`. -/
def desSetValue (node : Nat) (name : UnicodeString) (dataType : Nat) (data : List UInt8) :
    Des Unit := do
  let d ← get
  let (status, registry) := cmSetValue d.registry (some node) (some name) dataType data
    (room d.unread.length d.registry.count)
  set { d with registry }
  if ntSuccess status then pure () else throw status

/-- One value of `CmDeserializeKey`. The name is handed on as a pointer to the
array on the stack. -/
def deserializeValue (frame node : Nat) : Des Unit := do
  let vnlen ← desReadU16
  if 255 < vnlen then throw statusInvalidImageFormat
  else do
    let _ ← desRead (vnlen * 2)
    let dataType ← desReadU32
    let dlen ← desReadU32
    if 65536 < dlen then throw statusInvalidImageFormat
    else do
      let data ← if 0 < dlen then desReadData room dlen else pure []
      desSetValue room node ⟨vname frame, vnlen⟩ dataType data

/-- `CmDeserializeKey`. Under the root it takes the root itself for the key that
it reads. The fuel bounds the depth of the recursion. -/
def cmDeserializeKey : Nat → Nat → Des Unit
  | 0, _ => Des.stuck
  | fuel + 1, parent => do
      let nameLen ← desReadU16
      if 255 < nameLen then throw statusInvalidImageFormat
      else do
        let name ← desRead (nameLen * 2)
        let node ←
          if parent = cmGetRootKey then pure parent else desCreateKey room (decodeChars name)
        let subkeyCount ← desReadU32
        desTimes (cmDeserializeKey fuel node) subkeyCount
        let valueCount ← desReadU32
        desTimes (deserializeValue room vname fuel node) valueCount

/-- The header check of `CmLoadHive`, and the root key behind it. A key takes at
least two bytes, so the recursion is never deeper than the hive is long. -/
def parseHive (hiveData : List UInt8) : Des Unit := do
  let magic ← desRead 8
  if magic = hiveMagic then do
    let _ ← desReadU32
    let _ ← desReadU32
    cmDeserializeKey room vname hiveData.length cmGetRootKey
  else throw statusInvalidImageFormat

/-- `CmLoadHive`, from the bytes that were read from the file. -/
def cmLoadHive (hiveData : List UInt8) (registry : Registry) : Option (NtStatus × Registry) :=
  if hiveData.length < 16 then some (statusInvalidImageFormat, registry)
  else
    match (parseHive room vname hiveData).runFrom ⟨hiveData, registry⟩ with
    | none => none
    | some (.ok _, d) => some (statusSuccess, d.registry)
    | some (.error status, d) => some (status, d.registry)

end Deserialize

end MinNT.Cm
