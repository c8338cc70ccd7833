import MinNT.Cm.HiveLoad
import MinNT.Lib.Fallible

namespace MinNT.Cm

open ByteMemory NullTerminated PrefixCodec List

section Runs

variable {α β : Type}

theorem runFrom_bind (action : Des α) (next : α → Des β) (d : DesState) :
    (action >>= next).runFrom d =
      match action.runFrom d with
      | none => none
      | some (.error status, after) => some (.error status, after)
      | some (.ok value, after) => (next value).runFrom after := by
  have runs : action.runFrom d = Fallible.Action.runFrom action d := rfl
  refine (Fallible.runFrom_bind action next d).trans ?_
  rw [runs]
  cases Fallible.Action.runFrom action d with
  | none => rfl
  | some outcome =>
    obtain ⟨value, after⟩ := outcome
    cases value <;> rfl

theorem runFrom_get (d : DesState) : (get : Des DesState).runFrom d = some (.ok d, d) := rfl

theorem runFrom_set (d after : DesState) :
    (set after : Des PUnit).runFrom d = some (.ok (), after) := rfl

/-- The action does not break what holds of the registry. -/
def Keeps (inv : Registry → Prop) (action : Des α) : Prop :=
  ∀ d result after, inv d.registry → action.runFrom d = some (result, after) → inv after.registry

variable {inv : Registry → Prop}

variable {next : α → Des β}

theorem Keeps.after_bind {action : Des α} {d after : DesState} {result : Except NtStatus β}
    (left : ∀ value middle, action.runFrom d = some (value, middle) → inv middle.registry)
    (right : ∀ value, Keeps inv (next value))
    (run : (action >>= next).runFrom d = some (result, after)) : inv after.registry := by
  rw [runFrom_bind] at run
  cases first : action.runFrom d with
  | none =>
    rw [first] at run
    cases run
  | some outcome =>
    obtain ⟨value, middle⟩ := outcome
    have kept := left _ _ first
    rw [first] at run
    cases value with
    | error status =>
      cases run
      exact kept
    | ok value => exact right value middle result after kept run

theorem Keeps.bind {action : Des α} (left : Keeps inv action)
    (right : ∀ value, Keeps inv (next value)) : Keeps inv (action >>= next) := by
  intro d result after before run
  exact Keeps.after_bind (fun value middle => left d value middle before) right run

theorem keeps_pure (value : α) : Keeps inv (pure value : Des α) := by
  intro d result after before run
  cases run
  exact before

theorem keeps_throw (status : NtStatus) : Keeps inv (throw status : Des α) := by
  intro d result after before run
  cases run
  exact before

theorem keeps_stuck : Keeps inv (Des.stuck : Des α) := by
  intro d result after before run
  cases run

theorem keeps_desTimes {action : Des Unit} (keeps : Keeps inv action) (count : Nat) :
    Keeps inv (desTimes action count) := by
  induction count with
  | zero => exact keeps_pure ()
  | succ count ih => exact keeps.bind (fun _ => ih)

theorem desRead_run (len : Nat) (d : DesState) :
    (desRead len).runFrom d =
      match takeBytes len d.unread with
      | none => some (.error statusInvalidImageFormat, d)
      | some (bytes, unread) => some (.ok bytes, { d with unread }) := by
  unfold desRead
  rw [runFrom_bind, runFrom_get]
  dsimp only
  cases taken : takeBytes len d.unread with
  | none => rfl
  | some outcome => rfl

theorem keeps_desRead (len : Nat) : Keeps inv (desRead len) := by
  intro d result after before run
  rw [desRead_run] at run
  cases taken : takeBytes len d.unread with
  | none =>
    rw [taken] at run
    cases run
    exact before
  | some outcome =>
    rw [taken] at run
    cases run
    exact before

theorem keeps_desReadU16 : Keeps inv desReadU16 :=
  (keeps_desRead 2).bind (fun _ => keeps_pure _)

theorem keeps_desReadU32 : Keeps inv desReadU32 :=
  (keeps_desRead 4).bind (fun _ => keeps_pure _)

/-- The action reads these bytes, returns the value and takes the registry from
`before` to `after`. -/
def Consumes (action : Des α) (bytes : List UInt8) (value : α) (before after : Registry) : Prop :=
  ∀ rest, action.runFrom ⟨bytes ++ rest, before⟩ = some (.ok value, ⟨rest, after⟩)

theorem Consumes.bind {action : Des α} {bytes bytes' : List UInt8} {value : α}
    {value' : β} {before middle after : Registry} (left : Consumes action bytes value before middle)
    (right : Consumes (next value) bytes' value' middle after) :
    Consumes (action >>= next) (bytes ++ bytes') value' before after := by
  intro rest
  rw [append_assoc, runFrom_bind, left]
  exact right rest

theorem consumes_pure (value : α) (registry : Registry) :
    Consumes (pure value) [] value registry registry := fun _ => rfl

theorem consumes_desRead (bytes : List UInt8) (registry : Registry) :
    Consumes (desRead bytes.length) bytes bytes registry registry := by
  intro rest
  rw [desRead_run, takeBytes_recovers bytes rest]

theorem consumes_number {width value : Nat} (small : value < 256 ^ width) (registry : Registry) :
    Consumes (do let bytes ← desRead width; pure (decodeLE bytes)) (encodeLE width value) value
      registry registry := by
  have bytes := consumes_desRead (encodeLE width value) registry
  rw [encodeLE_length] at bytes
  have number : Consumes (desRead width >>= fun bytes => pure (decodeLE bytes))
      (encodeLE width value ++ []) (decodeLE (encodeLE width value)) registry registry :=
    bytes.bind (consumes_pure _ registry)
  rwa [append_nil, decodeLE_encodeLE, Nat.mod_eq_of_lt small] at number

theorem consumes_desReadU16 {value : Nat} (small : value < 2 ^ 16) (registry : Registry) :
    Consumes desReadU16 (encodeLE 2 value) value registry registry :=
  consumes_number (by omega) registry

theorem consumes_desReadU32 {value : Nat} (small : value < 2 ^ 32) (registry : Registry) :
    Consumes desReadU32 (encodeLE 4 value) value registry registry :=
  consumes_number (by omega) registry

end Runs

section Loading

variable (room : Nat → Nat → Bool) (vname : Nat → Nat)

/-- The root has no subkeys, and the names of its values are on the stack of the
parser. -/
def RootOnly (registry : Registry) : Prop :=
  (registry.nodes cmGetRootKey).childHead = none ∧
    ∀ value ∈ (registry.nodes cmGetRootKey).values, ∃ frame, value.name.buffer = vname frame

theorem rootOnly_init : RootOnly vname cmInitSystem :=
  ⟨rfl, fun _ member => by cases member⟩

theorem desSetValue_run (node : Nat) (name : UnicodeString) (dataType : Nat) (data : List UInt8)
    (d : DesState) :
    (desSetValue room node name dataType data).runFrom d =
      let (status, registry) := cmSetValue d.registry (some node) (some name) dataType data
        (room d.unread.length d.registry.count)
      some (if ntSuccess status then .ok () else .error status, { d with registry }) := by
  unfold desSetValue
  rw [runFrom_bind, runFrom_get]
  dsimp only
  rw [runFrom_bind, runFrom_set]
  dsimp only
  split
  · rfl
  · rfl

variable {vname}

theorem RootOnly.addValue {registry : Registry} (only : RootOnly vname registry) (frame : Nat)
    (length dataType : Nat) (data : List UInt8) (room : Bool) :
    RootOnly vname (cmSetValue registry (some cmGetRootKey) (some ⟨vname frame, length⟩) dataType
      data room).2 := by
  unfold cmSetValue
  dsimp only
  split
  · simp only [RootOnly, Registry.setNode, Function.update_self, KeyNode.addValue,
      mem_append, mem_singleton]
    refine ⟨only.1, ?_⟩
    rintro value (old | rfl)
    · exact only.2 value old
    · exact ⟨frame, rfl⟩
  · exact only

theorem keeps_desSetValue (frame length dataType : Nat) (data : List UInt8) :
    Keeps (RootOnly vname) (desSetValue room cmGetRootKey ⟨vname frame, length⟩ dataType data) := by
  intro d result after before run
  rw [desSetValue_run] at run
  cases run
  exact before.addValue frame length dataType data _

theorem keeps_desReadData {inv : Registry → Prop} (dlen : Nat) :
    Keeps inv (desReadData room dlen) := by
  intro d result after before run
  unfold desReadData at run
  rw [runFrom_bind, runFrom_get] at run
  dsimp only at run
  split at run
  · exact keeps_desRead dlen d result after before run
  · exact keeps_throw _ d result after before run

theorem keeps_ite {α : Type} {inv : Registry → Prop} {condition : Prop} [Decidable condition]
    {yes no : Des α} (left : Keeps inv yes) (right : Keeps inv no) :
    Keeps inv (if condition then yes else no) := by
  split
  · exact left
  · exact right

section Values

variable {inv : Registry → Prop} (set : ∀ frame length dataType data,
  Keeps inv (desSetValue room cmGetRootKey ⟨vname frame, length⟩ dataType data))

include set

theorem keeps_deserializeValue (frame : Nat) :
    Keeps inv (deserializeValue room vname frame cmGetRootKey) := by
  unfold deserializeValue
  refine keeps_desReadU16.bind (fun vnlen => keeps_ite (keeps_throw _) ?_)
  refine (keeps_desRead _).bind (fun _ => ?_)
  refine keeps_desReadU32.bind (fun dataType => ?_)
  refine keeps_desReadU32.bind (fun dlen => keeps_ite (keeps_throw _) ?_)
  exact keeps_ite ((keeps_desReadData room dlen).bind (set frame vnlen dataType))
    ((keeps_pure []).bind (set frame vnlen dataType))

/-- Parsing under the root keeps what storing values there keeps: the key that
is read is taken for the root, which is then the parent again. -/
theorem keeps_cmDeserializeKey (fuel : Nat) :
    Keeps inv (cmDeserializeKey room vname fuel cmGetRootKey) := by
  induction fuel with
  | zero => exact keeps_stuck
  | succ fuel ih =>
    unfold cmDeserializeKey
    refine keeps_desReadU16.bind (fun nameLen => keeps_ite (keeps_throw _) ?_)
    refine (keeps_desRead _).bind (fun name => ?_)
    rw [if_pos rfl, pure_bind]
    refine keeps_desReadU32.bind (fun subkeyCount => ?_)
    refine (keeps_desTimes ih subkeyCount).bind (fun _ => ?_)
    refine keeps_desReadU32.bind (fun valueCount => ?_)
    exact keeps_desTimes (keeps_deserializeValue room set fuel) valueCount

theorem keeps_parseHive (hiveData : List UInt8) : Keeps inv (parseHive room vname hiveData) := by
  unfold parseHive
  refine (keeps_desRead 8).bind (fun magic => keeps_ite ?_ (keeps_throw _))
  refine keeps_desReadU32.bind (fun _ => keeps_desReadU32.bind (fun _ => ?_))
  exact keeps_cmDeserializeKey room set hiveData.length

end Values

theorem cmLoadHive_rootOnly {hiveData : List UInt8} {registry after : Registry} {status : NtStatus}
    (only : RootOnly vname registry)
    (loaded : cmLoadHive room vname hiveData registry = some (status, after)) :
    RootOnly vname after := by
  unfold cmLoadHive at loaded
  split at loaded
  · cases loaded
    exact only
  split at loaded
  · cases loaded
  · rename_i result
    cases loaded
    exact keeps_parseHive room (keeps_desSetValue room) hiveData _ _ _ only result
  · rename_i result
    cases loaded
    exact keeps_parseHive room (keeps_desSetValue room) hiveData _ _ _ only result

end Loading

/-- What the parser allows of a value. -/
def TreeValue.Short (value : TreeValue) : Prop :=
  value.name.length ≤ 255 ∧ value.dataType < 2 ^ 32 ∧ value.data.length ≤ 65536

/-- What it stores. -/
def TreeValue.stored (vname : Nat → Nat) (frame : Nat) (value : TreeValue) : KeyValue :=
  ⟨⟨vname frame, value.name.length⟩, value.dataType, value.data⟩

/-- There is room for a value with these bytes behind it: in the pool for its
data, of which there are some, and for the value, and in the list of the root. -/
structure RoomFor (room : Nat → Nat → Bool) (registry : Registry) (value : TreeValue)
    (rest : List UInt8) : Prop where
  positive : 0 < value.data.length
  data : room (value.data.length + rest.length) registry.count = true
  value : room rest.length registry.count = true
  few : (registry.nodes cmGetRootKey).values.length < cmValueLimit

theorem nameBytes_length (name : List WChar) : (nameBytes name).length = name.length * 2 := by
  simp [nameBytes, length_flatMap]

section OneValue

variable {room : Nat → Nat → Bool} {vname : Nat → Nat} {registry : Registry} {value : TreeValue}
  {rest : List UInt8}

theorem desSetValue_stores (roomFor : RoomFor room registry value rest) (frame : Nat) :
    (desSetValue room cmGetRootKey ⟨vname frame, value.name.length⟩ value.dataType
        value.data).runFrom ⟨rest, registry⟩ =
      some (.ok (), ⟨rest, registry.setNode cmGetRootKey
        ((registry.nodes cmGetRootKey).addValue (value.stored vname frame))⟩) := by
  have success : ntSuccess statusSuccess = true := by decide
  have some : value.data ≠ [] := ne_nil_of_length_pos roomFor.positive
  rw [desSetValue_run]
  simp only [cmSetValue, some, roomFor.value, roomFor.few, ne_eq, not_false_eq_true, and_self,
    if_true, success]
  rfl

theorem desReadData_run (roomFor : RoomFor room registry value rest) :
    (desReadData room value.data.length).runFrom ⟨value.data ++ rest, registry⟩ =
      some (.ok value.data, ⟨rest, registry⟩) := by
  have granted := roomFor.data
  rw [← length_append] at granted
  unfold desReadData
  rw [runFrom_bind, runFrom_get]
  dsimp only
  rw [if_pos granted]
  exact consumes_desRead value.data registry rest

theorem deserializeValue_run (frame : Nat) (short : value.Short)
    (roomFor : RoomFor room registry value rest) :
    (deserializeValue room vname frame cmGetRootKey).runFrom ⟨encodeValue value ++ rest, registry⟩ =
      some (.ok (), ⟨rest, registry.setNode cmGetRootKey
        ((registry.nodes cmGetRootKey).addValue (value.stored vname frame))⟩) := by
  obtain ⟨shortName, smallType, shortData⟩ := short
  have chars := consumes_desRead (nameBytes value.name) registry
  rw [nameBytes_length] at chars
  unfold deserializeValue encodeValue encodeName
  simp only [append_assoc]
  rw [runFrom_bind, consumes_desReadU16 (by omega)]
  dsimp only
  rw [if_neg (by omega), runFrom_bind, chars]
  dsimp only
  rw [runFrom_bind, consumes_desReadU32 smallType]
  dsimp only
  rw [runFrom_bind, consumes_desReadU32 (by omega)]
  dsimp only
  rw [if_neg (by omega), if_pos roomFor.positive, runFrom_bind, desReadData_run roomFor]
  exact desSetValue_stores roomFor frame

end OneValue

section Loads

variable (vname : Nat → Nat)

/-- The value that the parser stores for an unnamed value. -/
def unnamed (frame : Nat) (content : TreeValue) : KeyValue :=
  ⟨⟨vname frame, 0⟩, content.dataType, content.data⟩

/-- Adding values to the root. -/
def withValues (registry : Registry) (values : List KeyValue) : Registry :=
  values.foldl (fun registry value =>
    registry.setNode cmGetRootKey ((registry.nodes cmGetRootKey).addValue value)) registry

theorem withValues_root (registry : Registry) (values : List KeyValue) :
    ((withValues registry values).nodes cmGetRootKey).values =
        (registry.nodes cmGetRootKey).values ++ values ∧
      ((withValues registry values).nodes cmGetRootKey).childHead =
        (registry.nodes cmGetRootKey).childHead ∧
      ((withValues registry values).nodes cmGetRootKey).name =
        (registry.nodes cmGetRootKey).name := by
  induction values generalizing registry with
  | nil => exact ⟨(append_nil _).symm, rfl, rfl⟩
  | cons value values ih =>
    have rest := ih (registry.setNode cmGetRootKey ((registry.nodes cmGetRootKey).addValue value))
    simp only [Registry.setNode, Function.update_self, KeyNode.addValue, append_assoc,
      singleton_append] at rest
    exact rest

/-- What the format and the parser allow of an unnamed value. -/
def TreeValue.Loadable (content : TreeValue) : Prop :=
  content.name = [] ∧ content.dataType < 2 ^ 32 ∧ 0 < content.data.length ∧
    content.data.length ≤ 65536

variable {registry : Registry}

theorem consumes_deserializeValue (frame : Nat) {content : TreeValue} (loadable : content.Loadable)
    (few : (registry.nodes cmGetRootKey).values.length < cmValueLimit) :
    Consumes (deserializeValue (fun _ _ => true) vname frame cmGetRootKey) (encodeValue content) ()
      registry (withValues registry [unnamed vname frame content]) := by
  obtain ⟨noName, smallType, positive, short⟩ := loadable
  have brief : content.Short := ⟨by simp [noName], smallType, short⟩
  have same : content.stored vname frame = unnamed vname frame content := by
    simp [TreeValue.stored, unnamed, noName]
  intro rest
  rw [deserializeValue_run frame brief ⟨positive, rfl, rfl, few⟩, same]
  rfl

variable {contents : List TreeValue}

theorem consumes_values (frame : Nat) (loadable : ∀ content ∈ contents, content.Loadable)
    (few : (registry.nodes cmGetRootKey).values.length + contents.length ≤ cmValueLimit) :
    Consumes (desTimes (deserializeValue (fun _ _ => true) vname frame cmGetRootKey)
        contents.length) (contents.flatMap encodeValue) () registry
      (withValues registry (contents.map (unnamed vname frame))) := by
  induction contents generalizing registry with
  | nil => exact consumes_pure () registry
  | cons content contents ih =>
    rw [length_cons] at few
    have first := consumes_deserializeValue vname frame (loadable content mem_cons_self)
      (show (registry.nodes cmGetRootKey).values.length < cmValueLimit by omega)
    have rest := ih (fun other member => loadable other (mem_cons_of_mem _ member))
      (show ((withValues registry [unnamed vname frame content]).nodes cmGetRootKey).values.length
        + contents.length ≤ cmValueLimit by
          rw [(withValues_root _ _).1, length_append, length_singleton]
          omega)
    exact first.bind rest

theorem consumes_cmDeserializeKey (fuel : Nat) {name : List WChar} (short : name.length ≤ 255)
    (loadable : ∀ content ∈ contents, content.Loadable)
    (few : (registry.nodes cmGetRootKey).values.length + contents.length ≤ cmValueLimit) :
    Consumes (cmDeserializeKey (fun _ _ => true) vname (fuel + 1) cmGetRootKey)
      (encodeKey (.key name [] contents)) () registry
      (withValues registry (contents.map (unnamed vname fuel))) := by
  have limit : cmValueLimit < 2 ^ 32 := by decide
  have chars := consumes_desRead (nameBytes name) registry
  rw [nameBytes_length] at chars
  unfold cmDeserializeKey encodeKey encodeName
  simp only [append_assoc, encodeKeys, nil_append, length_nil]
  apply (consumes_desReadU16 (by omega) registry).bind
  rw [if_neg (by omega)]
  apply chars.bind
  rw [if_pos trivial, pure_bind]
  apply (consumes_desReadU32 (by decide) registry).bind
  change Consumes (pure () >>= fun _ => _) _ _ _ _
  rw [pure_bind]
  apply (consumes_desReadU32 (by omega) registry).bind
  exact consumes_values vname fuel loadable few

theorem consumes_parseHive (hiveData : List UInt8) (nonempty : hiveData ≠ []) {name : List WChar}
    (short : name.length ≤ 255) (loadable : ∀ content ∈ contents, content.Loadable)
    (few : (registry.nodes cmGetRootKey).values.length + contents.length ≤ cmValueLimit) :
    Consumes (parseHive (fun _ _ => true) vname hiveData)
      (hiveMagic ++ encodeLE 4 0 ++ encodeLE 4 0 ++ encodeKey (.key name [] contents)) () registry
      (withValues registry (contents.map (unnamed vname (hiveData.length - 1)))) := by
  obtain ⟨fuel, positive⟩ : ∃ fuel, hiveData.length = fuel + 1 :=
    Nat.exists_eq_succ_of_ne_zero (by simpa using nonempty)
  unfold parseHive
  simp only [append_assoc]
  rw [positive, Nat.add_sub_cancel]
  apply (consumes_desRead hiveMagic registry).bind
  rw [if_pos rfl]
  apply (consumes_desReadU32 (by decide) registry).bind
  apply (consumes_desReadU32 (by decide) registry).bind
  exact consumes_cmDeserializeKey vname fuel short loadable few

end Loads

/-- Names of at most 255 characters, which are still there, and data of 1 to
65536 bytes. -/
def HiveBounded (buffers : Buffers) (registry : Registry) : Prop :=
  ∀ node, node < registry.count → (registry.nodes node).name.length ≤ 255 ∧
    ∀ value ∈ (registry.nodes node).values, ∃ content, value.content buffers = some content ∧
      content.name.length ≤ 255 ∧ content.dataType < 2 ^ 32 ∧ 1 ≤ content.data.length ∧
      content.data.length ≤ 65536

variable {buffers : Buffers} {registry : Registry} {bytes : List UInt8}

theorem HiveBounded.fits (bounded : HiveBounded buffers registry) : HiveFits buffers registry := by
  intro node inside
  obtain ⟨short, known⟩ := bounded node inside
  refine ⟨by omega, ?_⟩
  intro value member
  obtain ⟨content, found, shortName, smallType, _, smallData⟩ := known value member
  exact ⟨content, found, by omega, smallType, by omega⟩

/-- `CmSaveHive` makes these bytes of a registry that calls have led to. -/
structure Saved (buffers : Buffers) (registry : Registry) (bytes : List UInt8) : Prop where
  run : Runs cmInitSystem registry
  bounded : HiveBounded buffers registry
  written : ∃ (pool : PoolGrants) (b : SerBuffer), cmSaveHive buffers pool registry = some (.ok b) ∧
    b.contents = bytes

/-- Loading the bytes into a fresh registry succeeds and gives the same tree.
`later` is the memory of strings once the parser has returned. -/
def Reloads (vname : Nat → Nat) (buffers later : Buffers) (registry : Registry)
    (bytes : List UInt8) : Prop :=
  ∃ after, cmLoadHive (fun _ _ => true) vname bytes cmInitSystem = some (statusSuccess, after) ∧
    ∀ root, Represents buffers registry cmGetRootKey root →
      Represents later after cmGetRootKey root

/-- A saved hive is the encoding of the tree. -/
theorem Saved.encodes (saved : Saved buffers registry bytes) {root : KeyTree}
    (represents : Represents buffers registry cmGetRootKey root) :
    bytes = hiveMagic ++ encodeLE 4 0 ++ encodeLE 4 0 ++ encodeKey root := by
  obtain ⟨pool, after, done, rfl⟩ := saved.written
  have header := (serWrite_appends pool (show hiveMagic.length < 2 ^ 32 by decide)).bind
    ((serWrite_appends pool (encodeLE_short 4 0 (by decide))).bind
      ((serWrite_appends pool (encodeLE_short 4 0 (by decide))).bind
        (serializeRoot_appends pool saved.run saved.bounded.fits represents)))
  cases granted : serInit pool (64 * 1024) with
  | none =>
    unfold serInit at granted
    split at granted <;> cases granted
  | some outcome =>
    unfold cmSaveHive at done
    change ExceptT.bind (serInit pool (64 * 1024)) _ = _ at done
    simp only [ExceptT.bind, ExceptT.mk, granted] at done
    cases outcome with
    | error status => cases done
    | ok b =>
      obtain ⟨ok, empty⟩ := serInit_ok granted
      rcases header b ok with failed | ⟨after', done', _, contents⟩
      · have same := done.symm.trans failed
        cases same
      · have same := done.symm.trans done'
        cases same
        rw [contents, empty, nil_append]
        simp only [append_assoc]

theorem RootOnly.values_unnamed {vname : Nat → Nat} {later : Buffers}
    (only : RootOnly vname registry) (gone : ∀ frame, later (vname frame) = none)
    {value : KeyValue} (member : value ∈ (registry.nodes cmGetRootKey).values)
    {content : TreeValue} (known : value.content later = some content) : content.name = [] := by
  obtain ⟨frame, address⟩ := only.2 value member
  simp only [KeyValue.content, Option.map_eq_some_iff, UnicodeString.text, address, gone,
    Option.bind_none] at known
  obtain ⟨name, text, rfl⟩ := known
  split at text
  · cases text
    rfl
  · cases text

theorem Represents.parts {node : Nat} {root : KeyTree}
    (represents : Represents buffers registry node root) :
    ∃ children trees contents, root = .key (registry.nodes node).name trees contents ∧
      Listed registry.next (registry.nodes node).childHead children ∧
      children.length = trees.length ∧
      (registry.nodes node).values.map (KeyValue.content buffers) = contents.map some := by
  cases represents with
  | intro listed sameLength _ sameValues => exact ⟨_, _, _, rfl, listed, sameLength, sameValues⟩

theorem Represents.childless {node : Nat} {root : KeyTree}
    (represents : Represents buffers registry node root)
    (noChildren : (registry.nodes node).childHead = none) :
    ∃ contents, root = .key (registry.nodes node).name [] contents ∧
      (registry.nodes node).values.map (KeyValue.content buffers) = contents.map some := by
  obtain ⟨children, trees, contents, rfl, listed, sameLength, sameValues⟩ := represents.parts
  rw [noChildren] at listed
  cases children with
  | nil =>
    obtain rfl : trees = [] := length_eq_zero_iff.mp sameLength.symm
    exact ⟨contents, rfl, sameValues⟩
  | cons child children => cases listed.1

variable {contents : List TreeValue}

theorem content_mem {values : List KeyValue}
    (same : values.map (KeyValue.content buffers) = contents.map some) {content : TreeValue} :
    content ∈ contents ↔ ∃ value ∈ values, value.content buffers = some content := by
  rw [← List.mem_map, same]
  simp

theorem Reloads.only {vname : Nat → Nat} {buffers later : Buffers} (tree : RegistryTree registry)
    (fits : HiveFits buffers registry) (gone : ∀ frame, later (vname frame) = none)
    (reloads : Reloads vname buffers later registry bytes) :
    (registry.nodes cmGetRootKey).childHead = none ∧
      ∀ value ∈ (registry.nodes cmGetRootKey).values, value.name.length = 0 := by
  obtain ⟨after, loaded, same⟩ := reloads
  have only := cmLoadHive_rootOnly _ (rootOnly_init vname) loaded
  obtain ⟨root, represents⟩ := exists_represents tree fits cmGetRootKey tree.root.1
  obtain ⟨contents, rfl, afterValues⟩ := (same root represents).childless only.1
  obtain ⟨children, trees, contents', equal, listed, sameLength, sameValues⟩ := represents.parts
  rw [KeyTree.key.injEq] at equal
  obtain ⟨_, rfl, rfl⟩ := equal
  obtain rfl : children = [] := length_eq_zero_iff.mp sameLength
  refine ⟨listed, ?_⟩
  intro value member
  obtain ⟨content, known, _⟩ := (fits cmGetRootKey tree.root.1).2 value member
  have inContents := (content_mem sameValues).mpr ⟨value, member, known⟩
  obtain ⟨value', member', known'⟩ := (content_mem afterValues).mp inContents
  have noName := only.values_unnamed gone member' known'
  simp only [KeyValue.content, Option.map_eq_some_iff] at known
  obtain ⟨name, text, rfl⟩ := known
  rw [← UnicodeString.text_length text]
  exact length_eq_zero_iff.mpr noName

theorem Saved.loadable (saved : Saved buffers registry bytes)
    (same : (registry.nodes cmGetRootKey).values.map (KeyValue.content buffers) = contents.map some)
    (noNames : ∀ value ∈ (registry.nodes cmGetRootKey).values, value.name.length = 0) :
    ∀ content ∈ contents, content.Loadable := by
  have tree := (saved.run.keeps registryTree_init).1
  intro content member
  obtain ⟨value, inValues, known⟩ := (content_mem same).mp member
  obtain ⟨_, known', _, smallType, positive, smallData⟩ :=
    (saved.bounded cmGetRootKey tree.root.1).2 value inValues
  rw [known] at known'
  cases known'
  refine ⟨?_, smallType, positive, smallData⟩
  simp only [KeyValue.content, Option.map_eq_some_iff] at known
  obtain ⟨name, text, rfl⟩ := known
  rw [← length_eq_zero_iff, UnicodeString.text_length text, noNames value inValues]

theorem represents_withValues (vname : Nat → Nat) (frame : Nat) (later : Buffers)
    (loadable : ∀ content ∈ contents, content.Loadable) :
    Represents later (withValues cmInitSystem (contents.map (unnamed vname frame))) cmGetRootKey
      (.key (cmInitSystem.nodes cmGetRootKey).name [] contents) := by
  obtain ⟨values, childHead, name⟩ :=
    withValues_root cmInitSystem (contents.map (unnamed vname frame))
  have listed : Listed (withValues cmInitSystem (contents.map (unnamed vname frame))).next
      ((withValues cmInitSystem (contents.map (unnamed vname frame))).nodes cmGetRootKey).childHead
      [] := childHead
  rw [← name]
  refine .intro listed rfl (by simp) ?_
  rw [values, map_append, map_map]
  apply map_congr_left
  intro content member
  simp only [Function.comp_apply, unnamed, UnicodeString.text, if_true, Option.map_some,
    ← (loadable content member).1]

/-- A saved registry of values without names loads again. -/
theorem Saved.reloads (saved : Saved buffers registry bytes) (vname : Nat → Nat) (later : Buffers)
    (noChildren : (registry.nodes cmGetRootKey).childHead = none)
    (noNames : ∀ value ∈ (registry.nodes cmGetRootKey).values, value.name.length = 0) :
    Reloads vname buffers later registry bytes := by
  obtain ⟨tree, grows⟩ := saved.run.keeps registryTree_init
  have rootName := grows.name cmGetRootKey (by decide)
  obtain ⟨root, represents⟩ :=
    exists_represents tree saved.bounded.fits cmGetRootKey tree.root.1
  obtain ⟨contents, rfl, sameValues⟩ := represents.childless noChildren
  have loadable := saved.loadable sameValues noNames
  have whole := saved.encodes represents
  have counted := (tree.valuesCounted cmGetRootKey tree.root.1).2
  have lengths := congrArg List.length sameValues
  rw [length_map, length_map] at lengths
  have long : 16 ≤ bytes.length := by
    rw [whole]
    simp only [length_append, encodeLE_length, hiveMagic, length_cons, length_nil]
    omega
  have few : (cmInitSystem.nodes cmGetRootKey).values.length + contents.length ≤ cmValueLimit := by
    simp only [cmInitSystem, length_nil]
    omega
  have nonempty : bytes ≠ [] := by
    rintro rfl
    simp at long
  have parsed := consumes_parseHive vname bytes nonempty
    (saved.bounded cmGetRootKey tree.root.1).1 loadable few []
  rw [← whole, append_nil] at parsed
  refine ⟨withValues cmInitSystem (contents.map (unnamed vname (bytes.length - 1))), ?_, ?_⟩
  · unfold cmLoadHive
    rw [if_neg (by omega), parsed]
  · intro root' represents'
    obtain ⟨contents', rfl, sameValues'⟩ := represents'.childless noChildren
    rw [sameValues] at sameValues'
    obtain rfl := (List.map_inj_right (fun _ _ => Option.some.inj)).mp sameValues'
    rw [rootName]
    exact represents_withValues vname _ later loadable

/-- A registry comes back from its hive if and only if the root has no subkeys
and its values have no names. -/
theorem hive_reloads_iff (vname : Nat → Nat) (buffers later : Buffers) (registry : Registry)
    (bytes : List UInt8) (saved : Saved buffers registry bytes)
    (gone : ∀ frame, later (vname frame) = none) :
    Reloads vname buffers later registry bytes ↔
      (registry.nodes cmGetRootKey).childHead = none ∧
        ∀ value ∈ (registry.nodes cmGetRootKey).values, value.name.length = 0 := by
  have tree := (saved.run.keeps registryTree_init).1
  constructor
  · exact Reloads.only tree saved.bounded.fits gone
  · rintro ⟨noChildren, noNames⟩
    exact saved.reloads vname later noChildren noNames

theorem saved_of_returns (run : Runs cmInitSystem registry) (bounded : HiveBounded buffers registry)
    (returns : Option.map Except.isOk (cmSaveHive buffers largePool registry).run = some true) :
    ∃ bytes, Saved buffers registry bytes := by
  cases result : (cmSaveHive buffers largePool registry).run with
  | none =>
    rw [result] at returns
    cases returns
  | some outcome =>
    rw [result] at returns
    cases outcome with
    | error status => cases returns
    | ok b => exact ⟨b.contents, run, bounded, largePool, b, result, rfl⟩

/-- The registry with one unnamed value, which no longer names any buffer. -/
def oneValueRegistry : Registry :=
  (cmSetValue cmInitSystem (some cmGetRootKey) (some ⟨0, 0⟩) 1 [0x41] true).2

theorem oneValueRegistry_saved : ∃ bytes, Saved (fun _ => none) oneValueRegistry bytes := by
  have run : Runs cmInitSystem oneValueRegistry :=
    .setValue .refl (some cmGetRootKey) (by intro node held; cases held; decide) _ _ _ _
  have bounded : HiveBounded (fun _ => none) oneValueRegistry := by
    intro node inside
    have one : oneValueRegistry.count = 1 := rfl
    rw [one] at inside
    obtain rfl : node = 0 := by omega
    refine ⟨by decide, ?_⟩
    intro value member
    obtain rfl : value = ⟨⟨0, 0⟩, 1, [0x41]⟩ := mem_singleton.mp member
    exact ⟨⟨[], 1, [0x41]⟩, rfl, by decide, by decide, by decide, by decide⟩
  exact saved_of_returns run bounded (by decide +kernel)

/-- A root with one value is loaded again. -/
theorem oneValueRegistry_reloads : ∃ bytes, Saved (fun _ => none) oneValueRegistry bytes ∧
    Reloads (fun frame => frame) (fun _ => none) (fun _ => none) oneValueRegistry bytes := by
  obtain ⟨bytes, saved⟩ := oneValueRegistry_saved
  have reloads := (hive_reloads_iff (fun frame => frame) (fun _ => none) (fun _ => none)
    oneValueRegistry bytes saved (fun _ => rfl)).mpr ⟨rfl, fun value member => by
      obtain rfl : value = ⟨⟨0, 0⟩, 1, [0x41]⟩ := mem_singleton.mp member
      rfl⟩
  exact ⟨bytes, saved, reloads⟩

/-- The registry with the one key `\\A` does not come back. -/
theorem oneKeyRegistry_lost : ∃ bytes, Saved (fun _ => none) oneKeyRegistry bytes ∧
    ¬ Reloads (fun frame => frame) (fun _ => none) (fun _ => none) oneKeyRegistry bytes := by
  have run : Runs cmInitSystem oneKeyRegistry :=
    .create .refl [backslash, 0x41#16] (fun _ => true) oneKeyRegistry_created
  have bounded : HiveBounded (fun _ => none) oneKeyRegistry := by
    intro node inside
    have two : oneKeyRegistry.count = 2 := rfl
    rw [two] at inside
    obtain rfl | rfl : node = 0 ∨ node = 1 := by omega
    · exact ⟨by decide, by intro value member; cases member⟩
    · exact ⟨by decide, by intro value member; cases member⟩
  obtain ⟨bytes, saved⟩ := saved_of_returns run bounded (by decide +kernel)
  refine ⟨bytes, saved, ?_⟩
  intro reloads
  have only := Reloads.only (run.keeps registryTree_init).1 bounded.fits (fun _ => rfl) reloads
  exact absurd only.1 (by decide)

end MinNT.Cm
