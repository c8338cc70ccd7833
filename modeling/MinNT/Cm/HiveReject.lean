import MinNT.Cm.HiveRoundTrip

namespace MinNT.Cm

open ByteMemory NullTerminated PrefixCodec List

mutual

/-- A key that the parser takes, without a value in it or below it. -/
def KeyTree.Bare : KeyTree → Prop
  | .key name children values =>
      name.length ≤ 255 ∧ children.length < 2 ^ 32 ∧ KeysBare children ∧ values = []

def KeysBare : List KeyTree → Prop
  | [] => True
  | tree :: trees => tree.Bare ∧ KeysBare trees

end

/-- The bytes begin a key whose first value is that one, with those bytes behind
it: it is a value of the key itself, or of one below it with only bare keys in
front. -/
inductive FirstValue : List UInt8 → TreeValue → List UInt8 → Prop
  | own {name : List WChar} {children : List KeyTree} {count : Nat} {value : TreeValue}
      {rest : List UInt8} (short : name.length ≤ 255) (few : children.length < 2 ^ 32)
      (bare : KeysBare children) (positive : 0 < count) (small : count < 2 ^ 32)
      (stored : value.Short) :
      FirstValue (encodeName name ++ encodeLE 4 children.length ++ encodeKeys children ++
        encodeLE 4 count ++ encodeValue value ++ rest) value rest
  | inSubkey {name : List WChar} {children : List KeyTree} {subkeys : Nat} {body : List UInt8}
      {value : TreeValue} {rest : List UInt8} (short : name.length ≤ 255)
      (more : children.length < subkeys) (small : subkeys < 2 ^ 32) (bare : KeysBare children)
      (first : FirstValue body value rest) :
      FirstValue (encodeName name ++ encodeLE 4 subkeys ++ encodeKeys children ++ body) value rest

/-- The hive has its header and a value, and there is room for the first one. -/
def HoldsValue (room : Nat → Nat → Bool) (registry : Registry) (hiveData : List UInt8) : Prop :=
  ∃ totalKeys totalValues body value rest, totalKeys < 2 ^ 32 ∧ totalValues < 2 ^ 32 ∧
    hiveData = hiveMagic ++ encodeLE 4 totalKeys ++ encodeLE 4 totalValues ++ body ∧
    FirstValue body value rest ∧ RoomFor room registry value rest

section Parse

variable {room : Nat → Nat → Bool} {vname : Nat → Nat}

/-- A key without values is read without a store. -/
theorem consumes_bare (fuel : Nat) (tree : KeyTree) (bare : tree.Bare)
    (enough : (encodeKey tree).length ≤ fuel) (registry : Registry) :
    Consumes (cmDeserializeKey room vname fuel cmGetRootKey) (encodeKey tree) () registry
      registry := by
  induction fuel generalizing tree with
  | zero =>
    cases tree with
    | key name children values => simp [encodeKey, encodeName] at enough
  | succ fuel ih =>
    cases tree with
    | key name children values =>
      obtain ⟨short, few, bareChildren, rfl⟩ := bare
      have chars := consumes_desRead (nameBytes name) registry
      rw [nameBytes_length] at chars
      simp only [encodeKey, encodeName, length_append, encodeLE_length] at enough
      have keys : Consumes (desTimes (cmDeserializeKey room vname fuel cmGetRootKey)
          children.length) (encodeKeys children) () registry registry := by
        have shorter : (encodeKeys children).length ≤ fuel := by omega
        clear enough few
        induction children with
        | nil => exact consumes_pure () registry
        | cons child children inner =>
          rw [encodeKeys, length_append] at shorter
          exact (ih child bareChildren.1 (by omega)).bind (inner bareChildren.2 (by omega))
      unfold cmDeserializeKey encodeKey encodeName
      simp only [append_assoc, flatMap_nil, length_nil]
      apply (consumes_desReadU16 (by omega) registry).bind
      rw [if_neg (by omega)]
      apply chars.bind
      rw [if_pos trivial, pure_bind]
      apply (consumes_desReadU32 few registry).bind
      apply keys.bind
      exact (consumes_desReadU32 (by decide) registry).bind (consumes_pure () registry)

theorem consumes_bareKeys {fuel : Nat} {trees : List KeyTree} (bare : KeysBare trees)
    (enough : (encodeKeys trees).length ≤ fuel) (registry : Registry) :
    Consumes (desTimes (cmDeserializeKey room vname fuel cmGetRootKey) trees.length)
      (encodeKeys trees) () registry registry := by
  induction trees with
  | nil => exact consumes_pure () registry
  | cons tree trees ih =>
    rw [encodeKeys, length_append] at enough
    exact (consumes_bare fuel tree bare.1 (by omega) registry).bind (ih bare.2 (by omega))

theorem cmDeserializeKey_header (fuel : Nat) {name : List WChar} (short : name.length ≤ 255)
    {subkeys : Nat} (small : subkeys < 2 ^ 32) (rest : List UInt8) (registry : Registry) :
    (cmDeserializeKey room vname (fuel + 1) cmGetRootKey).runFrom
        ⟨encodeName name ++ encodeLE 4 subkeys ++ rest, registry⟩ =
      (desTimes (cmDeserializeKey room vname fuel cmGetRootKey) subkeys >>= fun _ =>
        desReadU32 >>= fun valueCount =>
          desTimes (deserializeValue room vname fuel cmGetRootKey) valueCount).runFrom
        ⟨rest, registry⟩ := by
  have chars := consumes_desRead (nameBytes name) registry
  rw [nameBytes_length] at chars
  rw [cmDeserializeKey, encodeName]
  simp only [append_assoc]
  rw [runFrom_bind, consumes_desReadU16 (by omega)]
  dsimp only
  rw [if_neg (by omega), runFrom_bind, chars]
  dsimp only
  rw [if_pos trivial, pure_bind, runFrom_bind, consumes_desReadU32 small]

theorem desTimes_add (action : Des Unit) (first second : Nat) :
    desTimes action (first + second) =
      desTimes action first >>= fun _ => desTimes action second := by
  induction first with
  | zero => rw [Nat.zero_add, desTimes, pure_bind]
  | succ first ih => rw [Nat.succ_add, desTimes, desTimes, ih, bind_assoc]

/-- The root has more values than that. -/
def MoreValues (count : Nat) (registry : Registry) : Prop :=
  count < (registry.nodes cmGetRootKey).values.length

variable {registry : Registry}

theorem MoreValues.set {count : Nat} (before : MoreValues count registry)
    (node : Nat) (name : UnicodeString) (dataType : Nat) (data : List UInt8) (granted : Bool) :
    MoreValues count (cmSetValue registry (some node) (some name) dataType data granted).2 := by
  unfold MoreValues cmSetValue at *
  dsimp only
  split
  · by_cases same : cmGetRootKey = node
    · subst same
      simp only [Registry.setNode, Function.update_self, KeyNode.addValue, length_append,
        length_singleton]
      omega
    · simp only [Registry.setNode, Function.update_of_ne same]
      exact before
  · exact before

theorem keeps_moreValues (count : Nat) (node : Nat) (name : UnicodeString) (dataType : Nat)
    (data : List UInt8) : Keeps (MoreValues count) (desSetValue room node name dataType data) := by
  intro d result after before run
  rw [desSetValue_run] at run
  cases run
  exact before.set node name dataType data _

variable {result : Except NtStatus Unit} {d after : DesState}

/-- The first value of the bytes is stored, whatever comes behind it. -/
theorem FirstValue.moreValues {bytes rest : List UInt8} {value : TreeValue}
    (first : FirstValue bytes value rest) (roomFor : RoomFor room registry value rest) {fuel : Nat}
    (enough : bytes.length ≤ fuel) {after : DesState}
    (run : (cmDeserializeKey room vname fuel cmGetRootKey).runFrom ⟨bytes, registry⟩ =
      some (result, after)) :
    MoreValues (registry.nodes cmGetRootKey).values.length after.registry := by
  have keepsValue : ∀ frame, Keeps (MoreValues (registry.nodes cmGetRootKey).values.length)
      (deserializeValue room vname frame cmGetRootKey) :=
    keeps_deserializeValue room (fun frame length => keeps_moreValues _ _ _)
  have keepsKey : ∀ fuel, Keeps (MoreValues (registry.nodes cmGetRootKey).values.length)
      (cmDeserializeKey room vname fuel cmGetRootKey) :=
    keeps_cmDeserializeKey room (fun frame length => keeps_moreValues _ _ _)
  have keepsRest : ∀ fuel, Keeps (MoreValues (registry.nodes cmGetRootKey).values.length)
      (desReadU32 >>= fun valueCount =>
        desTimes (deserializeValue room vname fuel cmGetRootKey) valueCount) := by
    intro fuel
    exact keeps_desReadU32.bind (fun count => keeps_desTimes (keepsValue fuel) count)
  induction first generalizing fuel result after with
  | @own name children count value rest short few bare positive small stored =>
    simp only [length_append, encodeName, encodeLE_length] at enough
    obtain ⟨fuel, rfl⟩ : ∃ less, fuel = less + 1 := ⟨fuel - 1, by omega⟩
    obtain ⟨count, rfl⟩ : ∃ less, count = less + 1 := ⟨count - 1, by omega⟩
    simp only [append_assoc] at run
    rw [← append_assoc, cmDeserializeKey_header fuel short few, runFrom_bind,
      consumes_bareKeys bare (by omega)] at run
    dsimp only at run
    rw [runFrom_bind, consumes_desReadU32 small] at run
    dsimp only at run
    rw [desTimes] at run
    apply Keeps.after_bind _ (fun _ => keeps_desTimes (keepsValue fuel) count) run
    intro outcome middle once
    rw [deserializeValue_run fuel stored roomFor] at once
    cases once
    simp [MoreValues, Registry.setNode, KeyNode.addValue]
  | @inSubkey name children subkeys body value rest short more small bare first ih =>
    simp only [length_append, encodeName, encodeLE_length] at enough
    obtain ⟨fuel, rfl⟩ : ∃ less, fuel = less + 1 := ⟨fuel - 1, by omega⟩
    obtain ⟨left, rfl⟩ : ∃ left, subkeys = children.length + (left + 1) :=
      ⟨subkeys - children.length - 1, by omega⟩
    simp only [append_assoc] at run
    rw [← append_assoc, cmDeserializeKey_header fuel short small, desTimes_add, bind_assoc,
      runFrom_bind, consumes_bareKeys bare (by omega)] at run
    dsimp only at run
    rw [desTimes, bind_assoc] at run
    apply Keeps.after_bind _ _ run
    · intro outcome middle once
      exact ih roomFor (by omega) once
    · intro _
      exact (keeps_desTimes (keepsKey fuel) left).bind (fun _ => keepsRest fuel)

theorem runFrom_bind_cases {α β : Type} {action : Des α} {next : α → Des β}
    {result : Except NtStatus β} (run : (action >>= next).runFrom d = some (result, after)) :
    (∃ status, action.runFrom d = some (.error status, after) ∧ result = .error status) ∨
      ∃ value middle, action.runFrom d = some (.ok value, middle) ∧
        (next value).runFrom middle = some (result, after) := by
  rw [runFrom_bind] at run
  cases first : action.runFrom d with
  | none =>
    rw [first] at run
    cases run
  | some outcome =>
    obtain ⟨value, middle⟩ := outcome
    rw [first] at run
    cases value with
    | error status =>
      cases run
      exact .inl ⟨status, rfl, rfl⟩
    | ok value => exact .inr ⟨value, middle, rfl, run⟩

/-- The run failed and left the registry as it was. -/
def FailsClean {α : Type} (d : DesState) (result : Except NtStatus α) (after : DesState) : Prop :=
  after.registry = d.registry ∧ ∃ status, result = .error status

/-- The action leaves the registry as it is, and where it succeeds the bytes it
has read fit the value. -/
def Fetches {α : Type} (action : Des α) (fits : α → List UInt8 → Prop) : Prop :=
  ∀ d result after, action.runFrom d = some (result, after) →
    FailsClean d result after ∨ ∃ value bytes, result = .ok value ∧ fits value bytes ∧
      d = ⟨bytes ++ after.unread, after.registry⟩

theorem fetches_desRead (len : Nat) :
    Fetches (desRead len) (fun value bytes => value = bytes ∧ bytes.length = len) := by
  intro d result after run
  rw [desRead_run] at run
  unfold takeBytes at run
  by_cases enough : len ≤ d.unread.length
  · rw [if_pos enough] at run
    cases run
    refine .inr ⟨_, _, rfl, ⟨rfl, length_take_of_le enough⟩, ?_⟩
    rw [take_append_drop]
  · rw [if_neg enough] at run
    cases run
    exact .inl ⟨rfl, _, rfl⟩

theorem Fetches.cases {α β : Type} {action : Des α} {fits : α → List UInt8 → Prop}
    (fetches : Fetches action fits) {next : α → Des β}
    {result : Except NtStatus β} (run : (action >>= next).runFrom d = some (result, after)) :
    FailsClean d result after ∨ ∃ value bytes rest registry, fits value bytes ∧
      d = ⟨bytes ++ rest, registry⟩ ∧
        (next value).runFrom ⟨rest, registry⟩ = some (result, after) := by
  rcases runFrom_bind_cases run with ⟨status, failed, rfl⟩ | ⟨value, middle, done, later⟩
  · rcases fetches d _ after failed with clean | ⟨_, _, impossible, _⟩
    · exact .inl ⟨clean.1, status, rfl⟩
    · cases impossible
  · rcases fetches d _ middle done with ⟨_, _, impossible⟩ | ⟨_, bytes, same, fit, before⟩
    · cases impossible
    · cases same
      exact .inr ⟨value, bytes, _, _, fit, before, later⟩

theorem fetches_number (width : Nat) :
    Fetches (do let bytes ← desRead width; pure (decodeLE bytes))
      (fun value bytes => value < 256 ^ width ∧ bytes = encodeLE width value) := by
  intro d result after run
  rcases (fetches_desRead width).cases run with clean |
    ⟨bytes, _, rest, _, ⟨rfl, length⟩, rfl, done⟩
  · exact .inl clean
  · cases done
    refine .inr ⟨_, bytes, rfl, ?_, rfl⟩
    subst length
    exact ⟨decodeLE_lt bytes, (encodeLE_decodeLE bytes).symm⟩

theorem fetches_desReadU16 :
    Fetches desReadU16 (fun value bytes => value < 2 ^ 16 ∧ bytes = encodeLE 2 value) :=
  fetches_number 2

theorem fetches_desReadU32 :
    Fetches desReadU32 (fun value bytes => value < 2 ^ 32 ∧ bytes = encodeLE 4 value) :=
  fetches_number 4

theorem decodeChars_spec (count : Nat) (bytes : List UInt8) (length : bytes.length = count * 2) :
    (decodeChars bytes).length = count ∧ nameBytes (decodeChars bytes) = bytes := by
  induction count generalizing bytes with
  | zero =>
    obtain rfl : bytes = [] := length_eq_zero_iff.mp (by omega)
    exact ⟨rfl, rfl⟩
  | succ count ih =>
    match bytes, length with
    | [], length => simp at length
    | [_], length =>
      simp only [length_singleton] at length
      omega
    | low :: high :: bytes, length =>
      simp only [length_cons] at length
      obtain ⟨rest, same⟩ := ih bytes (by omega)
      have small := decodeLE_lt [low, high]
      have back := encodeLE_decodeLE [low, high]
      simp only [length_cons, length_nil] at small back
      refine ⟨by rw [decodeChars, length_cons, rest], ?_⟩
      rw [nameBytes] at same
      rw [decodeChars, nameBytes, flatMap_cons, same, BitVec.toNat_ofNat,
        Nat.mod_eq_of_lt (by omega), back]
      rfl

theorem encodeName_decodeChars {count : Nat} {bytes : List UInt8}
    (length : bytes.length = count * 2) :
    encodeName (decodeChars bytes) = encodeLE 2 count ++ bytes := by
  obtain ⟨chars, back⟩ := decodeChars_spec count bytes length
  rw [encodeName, chars, back]

theorem name_cases {β : Type} {next : Nat → List UInt8 → Des β} {result : Except NtStatus β}
    (run : (desReadU16 >>= fun count =>
      if 255 < count then throw statusInvalidImageFormat
      else desRead (count * 2) >>= fun bytes => next count bytes).runFrom d =
        some (result, after)) :
    FailsClean d result after ∨ ∃ name bytes rest registry, name.length ≤ 255 ∧
      d = ⟨encodeName name ++ rest, registry⟩ ∧
        (next name.length bytes).runFrom ⟨rest, registry⟩ = some (result, after) := by
  rcases fetches_desReadU16.cases run with
    clean | ⟨count, _, rest, registry, ⟨_, rfl⟩, rfl, named⟩
  · exact .inl clean
  by_cases long : 255 < count
  · rw [if_pos long] at named
    cases named
    exact .inl ⟨rfl, _, rfl⟩
  rw [if_neg long] at named
  rcases (fetches_desRead _).cases named with
    clean | ⟨bytes, _, rest, registry, ⟨rfl, length⟩, same, done⟩
  · exact .inl clean
  cases same
  have chars := (decodeChars_spec count _ length).1
  refine .inr ⟨decodeChars bytes, bytes, rest, registry, by omega, ?_, ?_⟩
  · rw [encodeName_decodeChars length, append_assoc]
  · rw [chars]
    exact done

theorem desSetValue_cases {name : UnicodeString} {dataType : Nat} {data : List UInt8}
    (run : (desSetValue room cmGetRootKey name dataType data).runFrom d = some (result, after)) :
    FailsClean d result after ∨ data ≠ [] ∧ room d.unread.length d.registry.count = true ∧
      (d.registry.nodes cmGetRootKey).values.length < cmValueLimit := by
  by_cases granted : data ≠ [] ∧ room d.unread.length d.registry.count = true ∧
      (d.registry.nodes cmGetRootKey).values.length < cmValueLimit
  · exact .inr granted
  · have failure : ntSuccess statusNoMemory = false := by decide
    rw [desSetValue_run] at run
    simp only [cmSetValue, if_neg granted, failure, Bool.false_eq_true, if_false] at run
    cases run
    exact .inl ⟨rfl, _, rfl⟩

theorem desReadData_cases {dlen : Nat} {next : List UInt8 → Des Unit}
    (run : (if 0 < dlen then desReadData room dlen >>= next else pure [] >>= next).runFrom d =
      some (result, after)) :
    FailsClean d result after ∨ ∃ data rest registry, data.length = dlen ∧
      d = ⟨data ++ rest, registry⟩ ∧
      (0 < data.length → room (data.length + rest.length) registry.count = true) ∧
      (next data).runFrom ⟨rest, registry⟩ = some (result, after) := by
  by_cases positive : 0 < dlen
  · rw [if_pos positive] at run
    unfold desReadData at run
    rw [bind_assoc, runFrom_bind, runFrom_get] at run
    dsimp only at run
    by_cases granted : room d.unread.length d.registry.count = true
    · rw [if_pos granted] at run
      rcases (fetches_desRead dlen).cases run with
        clean | ⟨data, _, rest, registry, ⟨rfl, length⟩, rfl, done⟩
      · exact .inl clean
      · rw [length_append] at granted
        exact .inr ⟨data, rest, registry, length, rfl, fun _ => granted, done⟩
    · rw [if_neg granted] at run
      cases run
      exact .inl ⟨rfl, _, rfl⟩
  · obtain rfl : dlen = 0 := by omega
    rw [if_neg positive, pure_bind] at run
    exact .inr ⟨[], d.unread, d.registry, rfl, rfl, fun some => absurd some (by simp), run⟩

theorem deserializeValue_cases {frame : Nat}
    (run : (deserializeValue room vname frame cmGetRootKey).runFrom d = some (result, after)) :
    FailsClean d result after ∨ ∃ value rest, value.Short ∧ d.unread = encodeValue value ++ rest ∧
      RoomFor room d.registry value rest := by
  unfold deserializeValue at run
  rcases name_cases run with clean | ⟨name, _, rest, registry, short, rfl, typed⟩
  · exact .inl clean
  rcases fetches_desReadU32.cases typed with
    clean | ⟨dataType, _, rest, registry, ⟨smallType, rfl⟩, same, counted⟩
  · exact .inl clean
  cases same
  rcases fetches_desReadU32.cases counted with
    clean | ⟨dlen, _, rest, registry, ⟨_, rfl⟩, same, checked⟩
  · exact .inl clean
  cases same
  by_cases long : 65536 < dlen
  · rw [if_pos long] at checked
    cases checked
    exact .inl ⟨rfl, _, rfl⟩
  rw [if_neg long] at checked
  rcases desReadData_cases checked with clean | ⟨data, rest, registry, rfl, same, granted, stored⟩
  · exact .inl clean
  cases same
  rcases desSetValue_cases stored with clean | ⟨some, roomy, few⟩
  · exact .inl clean
  · have brief : TreeValue.Short ⟨name, dataType, data⟩ :=
      ⟨short, smallType, Nat.le_of_not_lt long⟩
    have positive : 0 < data.length := length_pos_of_ne_nil some
    refine .inr ⟨⟨name, dataType, data⟩, rest, brief, ?_, positive, granted positive, roomy, few⟩
    simp only [encodeValue, append_assoc]

/-- The bytes of a key have a first value in them that there is room for. -/
def StoresFirst (room : Nat → Nat → Bool) (registry : Registry) (bytes : List UInt8) : Prop :=
  ∃ value rest, FirstValue bytes value rest ∧ RoomFor room registry value rest

/-- Subkeys are read without a store, or one of them stores first. -/
theorem desTimes_key_cases {fuel : Nat}
    (each : ∀ {d after : DesState} {result : Except NtStatus Unit},
      (cmDeserializeKey room vname fuel cmGetRootKey).runFrom d = some (result, after) →
      after.registry = d.registry ∧
          (result = .ok () → ∃ tree : KeyTree, tree.Bare ∧
            d.unread = encodeKey tree ++ after.unread) ∨
        StoresFirst room d.registry d.unread) (count : Nat)
    (run : (desTimes (cmDeserializeKey room vname fuel cmGetRootKey) count).runFrom d =
      some (result, after)) :
    after.registry = d.registry ∧
        (result = .ok () → ∃ trees, trees.length = count ∧ KeysBare trees ∧
          d.unread = encodeKeys trees ++ after.unread) ∨
      ∃ trees body, trees.length < count ∧ KeysBare trees ∧ d.unread = encodeKeys trees ++ body ∧
        StoresFirst room d.registry body := by
  induction count generalizing d with
  | zero =>
    cases run
    exact .inl ⟨rfl, fun _ => ⟨[], rfl, trivial, rfl⟩⟩
  | succ count ih =>
    rcases runFrom_bind_cases run with ⟨status, failed, rfl⟩ | ⟨_, middle, done, later⟩
    · rcases each failed with ⟨same, _⟩ | stores
      · exact .inl ⟨same, fun impossible => by cases impossible⟩
      · exact .inr ⟨[], d.unread, Nat.succ_pos _, trivial, rfl, stores⟩
    · rcases each done with ⟨same, read⟩ | stores
      · obtain ⟨tree, bare, front⟩ := read rfl
        rcases ih later with ⟨same', read'⟩ | ⟨trees, body, fewer, bares, back, stores⟩
        · refine .inl ⟨same'.trans same, ?_⟩
          intro succeeded
          obtain ⟨trees, length, bares, back⟩ := read' succeeded
          refine ⟨tree :: trees, by rw [length_cons, length], ⟨bare, bares⟩, ?_⟩
          rw [front, back, encodeKeys, append_assoc]
        · rw [same] at stores
          refine .inr ⟨tree :: trees, body, Nat.succ_lt_succ fewer, ⟨bare, bares⟩, ?_, stores⟩
          rw [front, back, encodeKeys, append_assoc]
      · exact .inr ⟨[], d.unread, Nat.succ_pos _, trivial, rfl, stores⟩

theorem desTimes_value_cases {frame : Nat} (count : Nat)
    (run : (desTimes (deserializeValue room vname frame cmGetRootKey) count).runFrom d =
      some (result, after)) :
    FailsClean d result after ∨ count = 0 ∧ after = d ∨
      0 < count ∧ ∃ value rest, value.Short ∧ d.unread = encodeValue value ++ rest ∧
        RoomFor room d.registry value rest := by
  cases count with
  | zero =>
    cases run
    exact .inr (.inl ⟨rfl, rfl⟩)
  | succ count =>
    have one : ∀ {middle : DesState} {outcome : Except NtStatus Unit},
        (deserializeValue room vname frame cmGetRootKey).runFrom d = some (outcome, middle) →
        FailsClean d outcome middle ∨ ∃ value rest, value.Short ∧
          d.unread = encodeValue value ++ rest ∧ RoomFor room d.registry value rest :=
      deserializeValue_cases
    rcases runFrom_bind_cases run with ⟨status, failed, rfl⟩ | ⟨_, middle, done, _⟩
    · rcases one failed with clean | stores
      · exact .inl ⟨clean.1, status, rfl⟩
      · exact .inr (.inr ⟨Nat.succ_pos _, stores⟩)
    · rcases one done with ⟨_, _, impossible⟩ | stores
      · cases impossible
      · exact .inr (.inr ⟨Nat.succ_pos _, stores⟩)

theorem FailsClean.key {d d' after : DesState}
    (clean : FailsClean d result after) (same : d.registry = d'.registry) :
    after.registry = d'.registry ∧
      (result = .ok () → ∃ tree : KeyTree, tree.Bare ∧
        d'.unread = encodeKey tree ++ after.unread) := by
  obtain ⟨kept, status, rfl⟩ := clean
  exact ⟨kept.trans same, fun impossible => by cases impossible⟩

theorem inside_subkey {name : List WChar} (short : name.length ≤ 255) {subkeys : Nat}
    (small : subkeys < 2 ^ 32) {rest : List UInt8}
    (inside : ∃ trees body, trees.length < subkeys ∧ KeysBare trees ∧
      rest = encodeKeys trees ++ body ∧ StoresFirst room registry body) :
    StoresFirst room registry (encodeName name ++ (encodeLE 4 subkeys ++ rest)) := by
  obtain ⟨trees, body, more, bare, rfl, value, behind, first, roomFor⟩ := inside
  have whole := FirstValue.inSubkey short more small bare first
  simp only [append_assoc] at whole
  exact ⟨value, behind, whole, roomFor⟩

/-- A key: it leaves the registry alone, and is bare if it is read to its end, or
it has a first value. -/
theorem cmDeserializeKey_cases (fuel : Nat)
    (run : (cmDeserializeKey room vname fuel cmGetRootKey).runFrom d = some (result, after)) :
    after.registry = d.registry ∧
        (result = .ok () → ∃ tree : KeyTree, tree.Bare ∧
          d.unread = encodeKey tree ++ after.unread) ∨
      StoresFirst room d.registry d.unread := by
  induction fuel generalizing d result after with
  | zero => cases run
  | succ fuel ih =>
    rw [cmDeserializeKey] at run
    rcases name_cases run with clean | ⟨name, _, rest, registry, short, rfl, counted⟩
    · exact .inl (clean.key rfl)
    dsimp only at counted
    rw [if_pos rfl, pure_bind] at counted
    rcases fetches_desReadU32.cases counted with
      clean | ⟨subkeys, _, rest, registry, ⟨few, rfl⟩, same, looped⟩
    · exact .inl (clean.key rfl)
    cases same
    rcases runFrom_bind_cases looped with ⟨status, failed, rfl⟩ | ⟨_, middle, done, valued⟩
    · rcases desTimes_key_cases ih subkeys failed with ⟨same, _⟩ | inside
      · exact .inl ⟨same, fun impossible => by cases impossible⟩
      · exact .inr (inside_subkey short few inside)
    · rcases desTimes_key_cases ih subkeys done with ⟨same, read⟩ | inside
      · obtain ⟨trees, rfl, bare, front⟩ := read rfl
        obtain ⟨unread, registry⟩ := middle
        obtain rfl : registry = _ := same
        rcases fetches_desReadU32.cases valued with
          clean | ⟨count, _, unread, registry, ⟨small, rfl⟩, same, stored⟩
        · exact .inl (clean.key rfl)
        cases same
        dsimp only at front
        rw [front]
        rcases desTimes_value_cases count stored with
          clean | ⟨rfl, rfl⟩ | ⟨positive, value, behind, brief, found, roomFor⟩
        · exact .inl (clean.key rfl)
        · refine .inl ⟨rfl, fun _ => ⟨.key name trees [], ⟨short, few, bare, rfl⟩, ?_⟩⟩
          simp only [encodeKey, append_assoc, flatMap_nil, length_nil, nil_append]
        · dsimp only at found roomFor
          rw [found]
          have first :=
            @FirstValue.own name trees count value behind short few bare positive small brief
          simp only [append_assoc] at first ⊢
          exact .inr ⟨value, behind, first, roomFor⟩
      · exact .inr (inside_subkey short few inside)

theorem HoldsValue.changes {registry after : Registry} {hiveData : List UInt8} {status : NtStatus}
    (holds : HoldsValue room registry hiveData)
    (loaded : cmLoadHive room vname hiveData registry = some (status, after)) :
    after ≠ registry := by
  obtain ⟨totalKeys, totalValues, body, value, rest, smallKeys, smallValues, whole, first,
    roomFor⟩ := holds
  have magic : hiveMagic.length = 8 := rfl
  have long : 16 ≤ hiveData.length := by
    simp only [whole, length_append, encodeLE_length, magic]
    omega
  have enough : body.length ≤ hiveData.length := by
    rw [whole, length_append]
    omega
  have parsed : (parseHive room vname hiveData).runFrom ⟨hiveData, registry⟩ =
      (cmDeserializeKey room vname hiveData.length cmGetRootKey).runFrom ⟨body, registry⟩ := by
    unfold parseHive
    generalize hiveData.length = fuel
    rw [whole]
    simp only [append_assoc]
    rw [runFrom_bind, ← magic, consumes_desRead hiveMagic registry]
    dsimp only
    rw [if_pos rfl, runFrom_bind, consumes_desReadU32 smallKeys]
    dsimp only
    rw [runFrom_bind, consumes_desReadU32 smallValues]
  unfold cmLoadHive at loaded
  rw [if_neg (by omega), parsed] at loaded
  cases ran : (cmDeserializeKey room vname hiveData.length cmGetRootKey).runFrom
      ⟨body, registry⟩ with
  | none =>
    rw [ran] at loaded
    cases loaded
  | some outcome =>
    obtain ⟨result, d⟩ := outcome
    have more := first.moreValues roomFor enough ran
    have last : d.registry = after := by
      rw [ran] at loaded
      cases result with
      | error status =>
        cases loaded
        rfl
      | ok value =>
        cases loaded
        rfl
    rintro rfl
    rw [last] at more
    exact absurd more (Nat.lt_irrefl _)

/-- A rejected hive without a value changes nothing. -/
theorem cmLoadHive_unchanged {registry after : Registry} {hiveData : List UInt8}
    {status : NtStatus} (loaded : cmLoadHive room vname hiveData registry = some (status, after))
    (rejected : ntSuccess status = false) (bare : ¬ HoldsValue room registry hiveData) :
    after = registry := by
  unfold cmLoadHive at loaded
  split at loaded
  · cases loaded
    rfl
  cases ran : (parseHive room vname hiveData).runFrom ⟨hiveData, registry⟩ with
  | none =>
    rw [ran] at loaded
    cases loaded
  | some outcome =>
    obtain ⟨result, d⟩ := outcome
    rw [ran] at loaded
    cases result with
    | ok value =>
      cases loaded
      exact absurd rejected (by decide)
    | error status =>
      cases loaded
      unfold parseHive at ran
      rcases (fetches_desRead 8).cases ran with
        clean | ⟨magic, _, _, _, ⟨rfl, _⟩, same, checked⟩
      · exact clean.1
      cases same
      by_cases known : magic = hiveMagic
      · subst known
        rw [if_pos rfl] at checked
        rcases fetches_desReadU32.cases checked with
          clean | ⟨totalKeys, _, _, _, ⟨smallKeys, rfl⟩, same, counted⟩
        · exact clean.1
        cases same
        rcases fetches_desReadU32.cases counted with
          clean | ⟨totalValues, _, body, _, ⟨smallValues, rfl⟩, same, parsed⟩
        · exact clean.1
        cases same
        rcases cmDeserializeKey_cases _ parsed with ⟨same, _⟩ | ⟨value, rest, first, roomFor⟩
        · exact same
        · apply absurd _ bare
          refine ⟨totalKeys, totalValues, body, value, rest, smallKeys, smallValues, ?_, first,
            roomFor⟩
          simp only [append_assoc]
      · rw [if_neg known] at checked
        cases checked
        rfl

end Parse

/-- A hive that is rejected leaves the registry as it was exactly if no value
comes, with room for it, before what it is rejected for. -/
theorem cmLoadHive_rejected_iff (room : Nat → Nat → Bool) (vname : Nat → Nat)
    (hiveData : List UInt8) (registry after : Registry) (status : NtStatus)
    (loaded : cmLoadHive room vname hiveData registry = some (status, after))
    (rejected : ntSuccess status = false) :
    after = registry ↔ ¬ HoldsValue room registry hiveData := by
  constructor
  · intro same holds
    exact holds.changes loaded same
  · exact cmLoadHive_unchanged loaded rejected

/-- The root with two values, of which the second is cut off. -/
def truncatedHive : List UInt8 :=
  hiveMagic ++ replicate 8 0 ++ encodeName [] ++ encodeLE 4 0 ++ encodeLE 4 2 ++
    encodeValue ⟨[], 1, [0x41]⟩

theorem truncatedHive_loads :
    (cmLoadHive (fun _ _ => true) (fun frame => frame) truncatedHive cmInitSystem).map
      (fun result => (result.1, (result.2.nodes cmGetRootKey).values.length)) =
        some (statusInvalidImageFormat, 1) := by
  decide +kernel

/-- The hive is rejected, and its first value stays. -/
theorem truncatedHive_rejected_iff : ∃ after,
    cmLoadHive (fun _ _ => true) (fun frame => frame) truncatedHive cmInitSystem =
        some (statusInvalidImageFormat, after) ∧
      (after = cmInitSystem ↔ ¬ HoldsValue (fun _ _ => true) cmInitSystem truncatedHive) := by
  obtain ⟨⟨status, after⟩, loaded, same⟩ := Option.map_eq_some_iff.mp truncatedHive_loads
  simp only [Prod.mk.injEq] at same
  obtain ⟨rfl, _⟩ := same
  exact ⟨after, loaded, cmLoadHive_rejected_iff _ _ _ _ _ _ loaded (by decide)⟩

/-- The first of the values stays in the registry. -/
theorem truncatedHive_notUnchanged : ∃ after,
    cmLoadHive (fun _ _ => true) (fun frame => frame) truncatedHive cmInitSystem =
        some (statusInvalidImageFormat, after) ∧ after ≠ cmInitSystem := by
  obtain ⟨⟨status, after⟩, loaded, same⟩ := Option.map_eq_some_iff.mp truncatedHive_loads
  simp only [Prod.mk.injEq] at same
  obtain ⟨rfl, one⟩ := same
  refine ⟨after, loaded, ?_⟩
  rintro rfl
  exact absurd one (by decide)

end MinNT.Cm
