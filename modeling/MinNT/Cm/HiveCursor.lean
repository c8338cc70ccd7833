import MinNT.Cm.HiveReject

open ByteMemory
open Fallible

namespace MinNT.Cm

structure DesSer where
  data : ByteMemory
  size : Nat
  pos : Nat

/-- What the parser does to memory besides filling numbers: it reads bytes of
the hive, moves the cursor, and fills bytes of an array of 256 characters. -/
inductive HiveAccess where
  | read (offset len : Nat)
  | moveTo (pos : Nat)
  | fillName (offset len : Nat)
deriving DecidableEq, Repr

structure CursorState where
  d : DesSer
  registry : Registry
  accesses : List HiveAccess

abbrev Cursor (α : Type) := Action CursorState NtStatus α

/-- Bytes that are still to be read. -/
def CursorState.left (s : CursorState) : Nat := s.d.size - s.d.pos

def CursorState.advance (s : CursorState) (pos : Nat) : CursorState :=
  { s with d := { s.d with pos } }

def CursorState.note (s : CursorState) (accesses : List HiveAccess) : CursorState :=
  { s with accesses := s.accesses ++ accesses }

/-- `DesRead`, in 64-bit arithmetic. -/
def cursorRead (len : Nat) : Cursor (List UInt8) := do
  let s ← get
  if s.d.size < (s.d.pos + len) % 2 ^ 64 then throw statusInvalidImageFormat
  else do
    set ((s.advance ((s.d.pos + len) % 2 ^ 64)).note
      [.read s.d.pos len, .moveTo ((s.d.pos + len) % 2 ^ 64)])
    pure (s.d.data.read s.d.pos len)

/-- `DesReadU16` and `DesReadU32`. -/
def cursorReadNumber (width : Nat) : Cursor Nat := do
  let bytes ← cursorRead width
  pure (decodeLE bytes)

/-- The name behind a length, read into the array, and the 0 behind it. -/
def cursorReadName (count : Nat) : Cursor (List UInt8) := do
  let bytes ← cursorRead (count * 2)
  let s ← get
  set (s.note [.fillName 0 (count * 2), .fillName (count * 2) 2])
  pure bytes

section Cursor

variable (room : Nat → Nat → Bool) (vname : Nat → Nat)

/-- The call of `CmCreateKey`. -/
def cursorCreateKey (name : List WChar) : Cursor Nat := do
  let s ← get
  match cmCreateKey s.registry name (room s.left) with
  | none => stuck
  | some (status, out, registry) => do
      set { s with registry }
      match out with
      | some node => pure node
      | none => throw status

/-- The data of a value. -/
def cursorReadData (dlen : Nat) : Cursor (List UInt8) := do
  let s ← get
  if room s.left s.registry.count then cursorRead dlen else throw statusNoMemory

/-- The call of `CmSetValue`. -/
def cursorSetValue (node : Nat) (name : UnicodeString) (dataType : Nat) (data : List UInt8) :
    Cursor Unit := do
  let s ← get
  let (status, registry) := cmSetValue s.registry (some node) (some name) dataType data
    (room s.left s.registry.count)
  set { s with registry }
  if ntSuccess status then pure () else throw status

/-- One value of `CmDeserializeKey`. -/
def cursorDeserializeValue (frame node : Nat) : Cursor Unit := do
  let vnlen ← cursorReadNumber 2
  if 255 < vnlen then throw statusInvalidImageFormat
  else do
    let _ ← cursorReadName vnlen
    let dataType ← cursorReadNumber 4
    let dlen ← cursorReadNumber 4
    if 65536 < dlen then throw statusInvalidImageFormat
    else do
      let data ← if 0 < dlen then cursorReadData room dlen else pure []
      cursorSetValue room node ⟨vname frame, vnlen⟩ dataType data

/-- `CmDeserializeKey`, with the fuel for the depth of the recursion. -/
def cursorDeserializeKey : Nat → Nat → Cursor Unit
  | 0, _ => stuck
  | fuel + 1, parent => do
      let nameLen ← cursorReadNumber 2
      if 255 < nameLen then throw statusInvalidImageFormat
      else do
        let name ← cursorReadName nameLen
        let node ←
          if parent = cmGetRootKey then pure parent else cursorCreateKey room (decodeChars name)
        let subkeyCount ← cursorReadNumber 4
        times (cursorDeserializeKey fuel node) subkeyCount
        let valueCount ← cursorReadNumber 4
        times (cursorDeserializeValue room vname fuel node) valueCount

end Cursor

/-- The bytes that are still to be read are those behind the cursor. -/
structure Matches (s : CursorState) (d : DesState) : Prop where
  unread : d.unread = s.d.data.read s.d.pos s.left
  registry : d.registry = s.registry
  inside : s.d.pos ≤ s.d.size
  small : s.d.size ≤ 2 ^ 20

theorem Matches.length {s : CursorState} {d : DesState} (together : Matches s d) :
    d.unread.length = s.left := by
  rw [together.unread, read_length]

theorem runFrom_getCursor {α : Type} (next : CursorState → Cursor α) (s : CursorState) :
    (get >>= next : Cursor α).runFrom s = (next s).runFrom s := rfl

theorem runFrom_setCursor {α : Type} (next : PUnit → Cursor α) (s after : CursorState) :
    (set after >>= next : Cursor α).runFrom s = (next ()).runFrom after := rfl

theorem cursorRead_run {len : Nat} (s : CursorState) (small : s.d.size ≤ 2 ^ 20)
    (inside : s.d.pos ≤ s.d.size) (short : len ≤ 2 ^ 20) :
    (cursorRead len).runFrom s =
      if s.d.size < s.d.pos + len then some (.error statusInvalidImageFormat, s)
      else some (.ok (s.d.data.read s.d.pos len),
        (s.advance (s.d.pos + len)).note [.read s.d.pos len, .moveTo (s.d.pos + len)]) := by
  have noWrap : (s.d.pos + len) % 2 ^ 64 = s.d.pos + len := Nat.mod_eq_of_lt (by omega)
  unfold cursorRead
  rw [runFrom_getCursor, noWrap]
  split
  · rfl
  · rfl

theorem simulates_read {len : Nat} (short : len ≤ 2 ^ 20) :
    Simulates Matches (cursorRead len) (desRead len) := by
  intro s d together
  have left : s.left = s.d.size - s.d.pos := rfl
  have inside := together.inside
  have ran : Action.runFrom (desRead len) d = _ := desRead_run len d
  rw [cursorRead_run s together.small together.inside short, ran, PrefixCodec.takeBytes,
    together.length]
  by_cases beyond : s.d.size < s.d.pos + len
  · rw [if_pos beyond, if_neg (by omega)]
    exact .some ⟨rfl, together⟩
  have split : s.left = len + (s.d.size - (s.d.pos + len)) := by omega
  have bytes := together.unread
  rw [split, read_append] at bytes
  have fits : s.d.pos + len ≤ s.d.size := by omega
  rw [if_neg beyond, if_pos (by omega)]
  refine .some ⟨?_, ⟨?_, together.registry, fits, together.small⟩⟩
  · rw [bytes, List.take_left' (read_length _ _ _)]
  · dsimp only
    rw [bytes, List.drop_left' (read_length _ _ _)]
    rfl

theorem simulates_number (width : Nat) (short : width ≤ 2 ^ 20) :
    Simulates Matches (cursorReadNumber width)
      (desRead width >>= fun bytes => pure (decodeLE bytes) : Des Nat) :=
  (simulates_read short).bind (fun bytes => simulates_pure (decodeLE bytes))

theorem simulates_name {count : Nat} (short : count ≤ 255) :
    Simulates Matches (cursorReadName count) (desRead (count * 2)) := by
  have logged : Simulates Matches (cursorReadName count)
      (desRead (count * 2) >>= fun bytes => pure bytes : Des (List UInt8)) := by
    apply (simulates_read (by omega)).bind
    intro bytes s d together
    exact .some ⟨rfl, together.unread, together.registry, together.inside, together.small⟩
  rwa [bind_pure] at logged

section Simulation

variable (room : Nat → Nat → Bool) (vname : Nat → Nat)

/-- What `CmCreateKey` answered, for the parser. -/
def nodeOr : NtStatus × Option Nat × Registry → Except NtStatus Nat
  | (_, some node, _) => .ok node
  | (status, none, _) => .error status

theorem cursorCreateKey_run (name : List WChar) (s : CursorState) :
    (cursorCreateKey room name).runFrom s =
      (cmCreateKey s.registry name (room s.left)).map
        (fun answer => (nodeOr answer, { s with registry := answer.2.2 })) := by
  unfold cursorCreateKey
  rw [runFrom_getCursor]
  cases cmCreateKey s.registry name (room s.left) with
  | none => rfl
  | some answer =>
    obtain ⟨status, out, registry⟩ := answer
    cases out <;> rfl

theorem desCreateKey_run (name : List WChar) (d : DesState) :
    (desCreateKey room name).runFrom d =
      (cmCreateKey d.registry name (room d.unread.length)).map
        (fun answer => (nodeOr answer, { d with registry := answer.2.2 })) := by
  unfold desCreateKey
  rw [runFrom_bind, runFrom_get]
  dsimp only
  cases cmCreateKey d.registry name (room d.unread.length) with
  | none => rfl
  | some answer =>
    obtain ⟨status, out, registry⟩ := answer
    cases out <;> rfl

theorem simulates_createKey (name : List WChar) :
    Simulates Matches (cursorCreateKey room name) (desCreateKey room name) := by
  intro s d together
  have ran : Action.runFrom (desCreateKey room name) d = _ := desCreateKey_run room name d
  rw [cursorCreateKey_run, ran, together.registry, together.length]
  cases cmCreateKey s.registry name (room s.left) with
  | none => exact .none
  | some answer => exact .some ⟨rfl, together.unread, rfl, together.inside, together.small⟩

theorem simulates_readData {dlen : Nat} (short : dlen ≤ 65536) :
    Simulates Matches (cursorReadData room dlen) (desReadData room dlen) := by
  intro s d together
  have granted : room s.left s.registry.count = room d.unread.length d.registry.count := by
    rw [together.registry, together.length]
  have cursor : (cursorReadData room dlen).runFrom s =
      (if room s.left s.registry.count then cursorRead dlen
        else throw statusNoMemory : Cursor (List UInt8)).runFrom s := rfl
  have parser : Action.runFrom (desReadData room dlen) d =
      Action.runFrom (if room d.unread.length d.registry.count then desRead dlen
        else throw statusNoMemory : Des (List UInt8)) d := rfl
  rw [cursor, parser, granted]
  exact simulates_ite (simulates_read (by omega)) (simulates_throw _) s d together

theorem cursorSetValue_run (node : Nat) (name : UnicodeString) (dataType : Nat)
    (data : List UInt8) (s : CursorState) :
    (cursorSetValue room node name dataType data).runFrom s =
      let (status, registry) := cmSetValue s.registry (some node) (some name) dataType data
        (room s.left s.registry.count)
      some (if ntSuccess status then .ok () else .error status, { s with registry }) := by
  unfold cursorSetValue
  rw [runFrom_getCursor]
  dsimp only
  rw [runFrom_setCursor]
  split
  · rfl
  · rfl

theorem simulates_setValue (node : Nat) (name : UnicodeString) (dataType : Nat)
    (data : List UInt8) :
    Simulates Matches (cursorSetValue room node name dataType data)
      (desSetValue room node name dataType data) := by
  intro s d together
  have ran : Action.runFrom (desSetValue room node name dataType data) d = _ :=
    desSetValue_run room node name dataType data d
  rw [cursorSetValue_run, ran, together.registry, together.length]
  exact .some ⟨rfl, together.unread, rfl, together.inside, together.small⟩

theorem simulates_deserializeValue (frame node : Nat) :
    Simulates Matches (cursorDeserializeValue room vname frame node)
      (deserializeValue room vname frame node) := by
  unfold cursorDeserializeValue deserializeValue
  apply (simulates_number 2 (by decide)).bind
  intro vnlen
  by_cases long : 255 < vnlen
  · rw [if_pos long, if_pos long]
    exact simulates_throw _
  rw [if_neg long, if_neg long]
  apply (simulates_name (by omega)).bind
  intro _
  apply (simulates_number 4 (by decide)).bind
  intro dataType
  apply (simulates_number 4 (by decide)).bind
  intro dlen
  by_cases large : 65536 < dlen
  · rw [if_pos large, if_pos large]
    exact simulates_throw _
  rw [if_neg large, if_neg large]
  apply simulates_ite
  · apply (simulates_readData room (by omega)).bind
    exact simulates_setValue room node ⟨vname frame, vnlen⟩ dataType
  · exact (simulates_pure []).bind (simulates_setValue room node ⟨vname frame, vnlen⟩ dataType)

theorem desTimes_eq (action : Des Unit) (count : Nat) :
    desTimes action count = times action count := by
  induction count with
  | zero => rfl
  | succ count ih => rw [desTimes, times, ih]

/-- The parser with a cursor does what the parser of the unread bytes does. -/
theorem simulates_deserializeKey (fuel parent : Nat) :
    Simulates Matches (cursorDeserializeKey room vname fuel parent)
      (cmDeserializeKey room vname fuel parent) := by
  induction fuel generalizing parent with
  | zero => exact simulates_stuck
  | succ fuel ih =>
    rw [cursorDeserializeKey, cmDeserializeKey]
    apply (simulates_number 2 (by decide)).bind
    intro nameLen
    by_cases long : 255 < nameLen
    · rw [if_pos long, if_pos long]
      exact simulates_throw _
    rw [if_neg long, if_neg long]
    apply (simulates_name (by omega)).bind
    intro name
    have behind : ∀ node, Simulates Matches
        (cursorReadNumber 4 >>= fun subkeyCount =>
          times (cursorDeserializeKey room vname fuel node) subkeyCount >>= fun _ =>
            cursorReadNumber 4 >>= fun valueCount =>
              times (cursorDeserializeValue room vname fuel node) valueCount)
        (desReadU32 >>= fun subkeyCount =>
          desTimes (cmDeserializeKey room vname fuel node) subkeyCount >>= fun _ =>
            desReadU32 >>= fun valueCount =>
              desTimes (deserializeValue room vname fuel node) valueCount : Des Unit) := by
      intro node
      apply (simulates_number 4 (by decide)).bind
      intro subkeyCount
      rw [desTimes_eq]
      apply (simulates_times (ih node) subkeyCount).bind
      intro _
      apply (simulates_number 4 (by decide)).bind
      intro valueCount
      rw [desTimes_eq]
      exact simulates_times (simulates_deserializeValue room vname fuel node) valueCount
    apply simulates_ite
    · exact (simulates_pure parent).bind behind
    · exact (simulates_createKey room (decodeChars name)).bind behind

end Simulation

end MinNT.Cm
