import MinNT.Cm.Hive

namespace MinNT.Cm

open ByteMemory NullTerminated PrefixCodec List

theorem encodeKeys_eq (trees : List KeyTree) : encodeKeys trees = trees.flatMap encodeKey := by
  induction trees with
  | nil => rfl
  | cons tree trees ih => rw [encodeKeys, ih, flatMap_cons]

theorem keysFit_iff (trees : List KeyTree) : KeysFit trees ↔ ∀ tree ∈ trees, tree.Fits := by
  induction trees with
  | nil => simp [KeysFit]
  | cons tree trees ih => simp [KeysFit, ih]

theorem nameBytes_eq (name : List WChar) :
    nameBytes name = (name.map BitVec.toNat).flatMap (encodeLE 2) := by
  rw [nameBytes, flatMap_map]

theorem decodeName_recovers {name : List WChar} (short : name.length < 2 ^ 15) :
    Recovers decodeName (encodeName name) name := by
  intro rest
  have length : Recovers (takeLE 2) (encodeLE 2 name.length) name.length :=
    takeLE_recovers (by omega)
  have chars : Recovers (times (takeLE 2) name.length) (nameBytes name)
      (name.map BitVec.toNat) := by
    have values := times_recovers (name.map BitVec.toNat) (fun value member => by
      obtain ⟨c, _, rfl⟩ := List.mem_map.mp member
      exact (takeLE_recovers c.isLt : Recovers (takeLE 2) (encodeLE 2 c.toNat) c.toNat))
    rwa [length_map, ← nameBytes_eq] at values
  have back : (name.map BitVec.toNat).map (BitVec.ofNat 16) = name := by
    rw [map_map]
    conv_rhs => rw [← map_id name]
    apply map_congr_left
    intro c _
    simp
  unfold decodeName encodeName
  rw [append_assoc, length _]
  simp only [Option.bind_eq_bind, Option.bind_some]
  rw [chars _]
  simp only [Option.bind_some, back, Option.pure_def]

theorem decodeValue_recovers {value : TreeValue} (fits : value.Fits) :
    Recovers decodeValue (encodeValue value) value := by
  intro rest
  obtain ⟨short, smallType, smallData⟩ := fits
  have dataType : Recovers (takeLE 4) (encodeLE 4 value.dataType) value.dataType :=
    takeLE_recovers smallType
  have length : Recovers (takeLE 4) (encodeLE 4 value.data.length) value.data.length :=
    takeLE_recovers smallData
  unfold decodeValue encodeValue
  simp only [append_assoc, Option.bind_eq_bind]
  rw [decodeName_recovers short _]
  simp only [Option.bind_some]
  rw [dataType _]
  simp only [Option.bind_some]
  rw [length _]
  simp only [Option.bind_some]
  rw [takeBytes_recovers value.data _]
  simp only [Option.bind_some, Option.pure_def]

theorem length_le_flatMap {α : Type} (encode : α → List UInt8) {value : α} {values : List α}
    (member : value ∈ values) : (encode value).length ≤ (values.flatMap encode).length := by
  obtain ⟨front, back, rfl⟩ := append_of_mem member
  simp only [flatMap_append, flatMap_cons, length_append]
  omega

/-- The decoder gives back the tree that was encoded. -/
theorem decodeKeyWithin_recovers (depth : Nat) (tree : KeyTree) (fits : tree.Fits)
    (shallow : (encodeKey tree).length < depth) :
    Recovers (decodeKeyWithin depth) (encodeKey tree) tree := by
  induction depth generalizing tree with
  | zero => cases shallow
  | succ depth ih =>
    obtain ⟨name, children, values⟩ := tree
    simp only [KeyTree.Fits, keysFit_iff] at fits
    obtain ⟨short, fewChildren, childrenFit, fewValues, valuesFit⟩ := fits
    simp only [encodeKey, encodeKeys_eq, length_append, encodeLE_length] at shallow
    have count : Recovers (takeLE 4) (encodeLE 4 children.length) children.length :=
      takeLE_recovers fewChildren
    have below : Recovers (times (decodeKeyWithin depth) children.length)
        (children.flatMap encodeKey) children := by
      apply times_recovers
      intro child member
      have inside := length_le_flatMap encodeKey member
      exact ih child (childrenFit child member) (by omega)
    have valueCount : Recovers (takeLE 4) (encodeLE 4 values.length) values.length :=
      takeLE_recovers fewValues
    have content : Recovers (times decodeValue values.length) (values.flatMap encodeValue)
        values := by
      apply times_recovers
      intro value member
      exact decodeValue_recovers (valuesFit value member)
    intro rest
    simp only [decodeKeyWithin, encodeKey, encodeKeys_eq, append_assoc, Option.bind_eq_bind]
    rw [decodeName_recovers short _]
    simp only [Option.bind_some]
    rw [count _]
    simp only [Option.bind_some]
    rw [below _]
    simp only [Option.bind_some]
    rw [valueCount _]
    simp only [Option.bind_some]
    rw [content _]
    simp only [Option.bind_some, Option.pure_def]

theorem decodeKey_recovers (tree : KeyTree) (fits : tree.Fits) :
    Recovers decodeKey (encodeKey tree) tree := by
  intro rest
  have deep : (encodeKey tree).length < (encodeKey tree ++ rest).length + 1 := by
    rw [length_append]
    omega
  exact decodeKeyWithin_recovers _ tree fits deep rest

/-- What has been written lies in the buffer, and the buffer in the window. -/
structure SerBuffer.Ok (b : SerBuffer) : Prop where
  inside : b.size ≤ b.capacity
  window : b.capacity ≤ Mm.mmBootMappedLimit
  positive : 0 < b.capacity

/-- The action adds these bytes to the buffer, or fails for lack of memory. -/
def Appends (action : SerBuffer → Ser SerBuffer) (bytes : List UInt8) : Prop :=
  ∀ b : SerBuffer, b.Ok →
    action b = some (.error statusNoMemory) ∨
      ∃ after : SerBuffer, action b = some (.ok after) ∧ after.Ok ∧
        after.contents = b.contents ++ bytes

theorem Appends.bind {first second : SerBuffer → Ser SerBuffer} {bytes bytes' : List UInt8}
    (left : Appends first bytes) (right : Appends second bytes') :
    Appends (fun b => first b >>= second) (bytes ++ bytes') := by
  intro b ok
  rcases left b ok with failed | ⟨middle, done, middleOk, contents⟩
  · left
    change ExceptT.bind (first b) second = _
    simp only [ExceptT.bind, ExceptT.mk, failed]
    rfl
  · have step : (first b >>= second) = second middle := by
      change ExceptT.bind (first b) second = _
      simp only [ExceptT.bind, ExceptT.mk, done]
      rfl
    simp only [step]
    rcases right middle middleOk with failed | ⟨after, finished, afterOk, more⟩
    · exact .inl failed
    · refine .inr ⟨after, finished, afterOk, ?_⟩
      rw [more, contents, append_assoc]

theorem appends_pure : Appends pure [] := by
  intro b ok
  exact .inr ⟨b, rfl, ok, (append_nil _).symm⟩

theorem doubleCapacity_some {needed capacity : Nat} (doublings : Nat) (positive : 0 < capacity)
    (small : needed ≤ 2 ^ 63) (below : capacity ≤ 2 ^ 63)
    (enough : needed ≤ capacity * 2 ^ doublings) :
    ∃ larger, doubleCapacity needed (doublings + 1) capacity = some larger ∧ needed ≤ larger ∧
      0 < larger := by
  induction doublings generalizing capacity with
  | zero =>
    rw [Nat.pow_zero, Nat.mul_one] at enough
    refine ⟨capacity, ?_, enough, positive⟩
    rw [doubleCapacity, if_neg (Nat.not_lt.mpr enough)]
  | succ doublings ih =>
    by_cases short : capacity < needed
    · have doubled : capacity * 2 % 2 ^ 64 = capacity * 2 := by omega
      rw [doubleCapacity, if_pos short, doubled]
      by_cases half : capacity * 2 ≤ 2 ^ 63
      · apply ih (by omega) half
        rw [Nat.mul_assoc, ← Nat.pow_succ']
        exact enough
      · refine ⟨capacity * 2, ?_, by omega, by omega⟩
        rw [doubleCapacity, if_neg (by omega)]
    · refine ⟨capacity, ?_, Nat.le_of_not_lt short, positive⟩
      rw [doubleCapacity, if_neg short]

theorem serEnsure_cases (pool : PoolGrants) {b : SerBuffer} (ok : b.Ok) {need : Nat}
    (small : need < 2 ^ 32) :
    serEnsure pool b need = some (.error statusNoMemory) ∨
      ∃ after : SerBuffer, serEnsure pool b need = some (.ok after) ∧ after.Ok ∧
        after.contents = b.contents ∧ after.size = b.size ∧ b.size + need ≤ after.capacity := by
  have window : Mm.mmBootMappedLimit = 2 ^ 36 := by decide
  have inside := ok.inside
  have bounded := ok.window
  rw [window] at bounded
  have noWrap : (b.size + need) % 2 ^ 64 = b.size + need := Nat.mod_eq_of_lt (by omega)
  unfold serEnsure
  rw [noWrap]
  by_cases fits : b.size + need ≤ b.capacity
  · rw [if_pos fits]
    exact .inr ⟨b, rfl, ok, rfl, rfl, fits⟩
  rw [if_neg fits]
  have positive := ok.positive
  obtain ⟨larger, ends, enough, large⟩ := doubleCapacity_some 64 positive
    (show b.size + need ≤ 2 ^ 63 by omega) (by omega) (by omega)
  rw [ends]
  dsimp only
  by_cases granted : pool.has larger
  · rw [if_pos granted]
    refine .inr ⟨_, rfl, ⟨by dsimp only; omega, granted.2, large⟩, ?_, rfl, enough⟩
    have whole := read_write_same pool.garbage 0 b.contents
    simpa only [SerBuffer.contents, read_length] using whole
  · rw [if_neg granted]
    exact .inl rfl

theorem serWrite_appends (pool : PoolGrants) {bytes : List UInt8} (small : bytes.length < 2 ^ 32) :
    Appends (fun b => serWrite pool b bytes) bytes := by
  intro b ok
  unfold serWrite
  rcases serEnsure_cases pool ok small with failed | ⟨grown, done, grownOk, same, size, room⟩
  · left
    change ExceptT.bind (serEnsure pool b bytes.length) _ = _
    simp only [ExceptT.bind, ExceptT.mk, failed]
    rfl
  · right
    have window : Mm.mmBootMappedLimit = 2 ^ 36 := by decide
    have bounded := grownOk.window
    rw [window] at bounded
    have noWrap : (grown.size + bytes.length) % 2 ^ 64 = grown.size + bytes.length :=
      Nat.mod_eq_of_lt (by omega)
    refine ⟨{ grown with
      data := grown.data.write grown.size bytes
      size := (grown.size + bytes.length) % 2 ^ 64 }, ?_, ?_, ?_⟩
    · change ExceptT.bind (serEnsure pool b bytes.length) _ = _
      simp only [ExceptT.bind, ExceptT.mk, done]
      rfl
    · exact ⟨by dsimp only; omega, grownOk.window, grownOk.positive⟩
    · rw [← same]
      simp only [SerBuffer.contents, noWrap]
      rw [read_append, read_write_disjoint _ _ _ _ _ (.inl (by omega)), Nat.zero_add,
        read_write_same]

section Serializer

variable {buffers : Buffers} {pool : PoolGrants} {registry : Registry}

theorem encodeLE_short (width value : Nat) (small : width < 2 ^ 32) :
    (encodeLE width value).length < 2 ^ 32 := by
  rw [encodeLE_length]
  exact small

theorem nameBytes_short {name : List WChar} (short : name.length < 2 ^ 15) :
    (nameBytes name).length < 2 ^ 32 := by
  have length : (nameBytes name).length = 2 * name.length := by
    simp [nameBytes, length_flatMap, Nat.mul_comm]
  omega

theorem UnicodeString.text_length {string : UnicodeString} {text : List WChar}
    (known : string.text buffers = some text) : text.length = string.length := by
  unfold UnicodeString.text at known
  split at known
  · rename_i empty
    cases known
    simp [empty]
  · rw [Option.bind_eq_some_iff] at known
    obtain ⟨chars, _, taken⟩ := known
    split at taken
    · rename_i enough
      cases taken
      simp [enough]
    · cases taken

/-- The value that a stored value stands for. -/
def KeyValue.content (buffers : Buffers) (value : KeyValue) : Option TreeValue :=
  (value.name.text buffers).map (fun name => ⟨name, value.dataType, value.data⟩)

theorem serializeValue_appends {value : KeyValue} {content : TreeValue}
    (known : value.content buffers = some content) (fits : content.Fits) :
    Appends (fun b => serializeValue buffers pool b value) (encodeValue content) := by
  simp only [KeyValue.content, Option.map_eq_some_iff] at known
  obtain ⟨name, text, rfl⟩ := known
  obtain ⟨short, _, smallData⟩ := fits
  have length := UnicodeString.text_length text
  have step := (serWrite_appends pool (encodeLE_short 2 value.name.length (by decide))).bind
    ((serWrite_appends pool (nameBytes_short short)).bind
      ((serWrite_appends pool (encodeLE_short 4 value.dataType (by decide))).bind
        ((serWrite_appends pool (encodeLE_short 4 value.data.length (by decide))).bind
          (serWrite_appends pool smallData))))
  simp only [encodeValue, encodeName, length, append_assoc, serializeValue, text, Option.getD_some]
  exact step

theorem serializeValues_appends {values : List KeyValue} {contents : List TreeValue}
    (known : values.map (KeyValue.content buffers) = contents.map some)
    (fits : ∀ content ∈ contents, content.Fits) :
    Appends (fun b => values.foldlM (serializeValue buffers pool) b)
      (contents.flatMap encodeValue) := by
  induction values generalizing contents with
  | nil =>
    obtain rfl : contents = [] := by simpa using known.symm
    exact appends_pure
  | cons value values ih =>
    cases contents with
    | nil => simp at known
    | cons content contents =>
      simp only [map_cons, List.cons.injEq] at known
      have first : Appends (fun b => serializeValue buffers pool b value) (encodeValue content) :=
        serializeValue_appends known.1 (fits content mem_cons_self)
      have later := ih known.2 (fun other member => fits other (mem_cons_of_mem _ member))
      simp only [foldlM_cons, flatMap_cons]
      exact first.bind later

/-- The serializer writes the record of the tree. Children are younger than
their parent, so the fuel it needs shrinks with the nodes left. -/
theorem cmSerializeKey_appends (tree : RegistryTree registry) (fuel : Nat) :
    (∀ node root, node < registry.count → Represents buffers registry node root → root.Fits →
      2 * (registry.count - node) ≤ fuel →
      Appends (fun b => cmSerializeKey buffers pool registry fuel b node) (encodeKey root)) ∧
    (∀ head children trees low, Listed registry.next head children →
      children.length = trees.length → children.Pairwise (· < ·) →
      (∀ child ∈ children, low ≤ child ∧ child < registry.count) →
      (∀ pair ∈ children.zip trees, Represents buffers registry pair.1 pair.2) →
      KeysFit trees → 2 * (registry.count - low) + 1 ≤ fuel →
      Appends (fun b => serializeChildren buffers pool registry fuel b head)
        (encodeKeys trees)) := by
  induction fuel with
  | zero =>
    constructor
    · intro node root inside _ _ enough
      omega
    · intro head children trees low _ _ _ _ _ _ enough
      omega
  | succ fuel ih =>
    obtain ⟨keys, lists⟩ := ih
    constructor
    · intro node root inside represents fits enough
      cases represents with
      | @intro _ children trees values listed sameLength below sameValues =>
        obtain rfl := listed.unique (tree.listed node inside)
        simp only [KeyTree.Fits] at fits
        obtain ⟨short, fewTrees, treesFit, fewValues, valuesFit⟩ := fits
        have younger : ∀ child ∈ subkeys registry node,
            node + 1 ≤ child ∧ child < registry.count :=
          fun child member => ⟨tree.parent_lt member, (mem_subkeys.mp member).1⟩
        have ordered : (subkeys registry node).Pairwise (· < ·) :=
          List.Pairwise.filter _ pairwise_lt_range
        have inner := lists _ _ trees (node + 1) listed sameLength ordered younger below
          treesFit (by omega)
        have content : Appends
            (fun b => (registry.nodes node).values.foldlM (serializeValue buffers pool) b)
            (values.flatMap encodeValue) :=
          serializeValues_appends sameValues valuesFit
        have counted : (registry.nodes node).subKeyCount = trees.length := by
          rw [tree.subKeysCounted node inside, sameLength]
        have valued : (registry.nodes node).valueCount = values.length := by
          have lengths := congrArg List.length sameValues
          rw [length_map, length_map] at lengths
          rw [(tree.valuesCounted node inside).1, lengths]
        have step := (serWrite_appends pool
          (encodeLE_short 2 (registry.nodes node).name.length (by decide))).bind
          ((serWrite_appends pool (nameBytes_short short)).bind
            ((serWrite_appends pool (encodeLE_short 4 trees.length (by decide))).bind
              (inner.bind
                ((serWrite_appends pool (encodeLE_short 4 values.length (by decide))).bind
                  content))))
        simp only [encodeKey, encodeName, append_assoc, cmSerializeKey, counted, valued]
        exact step
    · intro head children trees low listed sameLength ordered younger below treesFit enough
      cases children with
      | nil =>
        obtain rfl : head = none := listed
        obtain rfl : trees = [] := length_eq_zero_iff.mp sameLength.symm
        simp only [serializeChildren, encodeKeys]
        exact appends_pure
      | cons child children =>
        obtain ⟨rfl, rest⟩ := listed
        cases trees with
        | nil => simp at sameLength
        | cons root trees =>
          obtain ⟨above, inside⟩ := younger child mem_cons_self
          have first := keys child root inside
            (below (child, root) mem_cons_self) treesFit.1 (by omega)
          obtain ⟨smallest, later⟩ := pairwise_cons.mp ordered
          have others := lists _ children trees (child + 1) rest (Nat.succ.inj sameLength) later
            (fun other member => ⟨smallest other member,
              (younger other (mem_cons_of_mem _ member)).2⟩)
            (fun pair member => below pair (mem_cons_of_mem _ member))
            treesFit.2 (by omega)
          simp only [serializeChildren, encodeKeys]
          exact first.bind others

end Serializer

section Tree

variable {buffers : Buffers} {registry : Registry}

/-- The names are still there, and names and data fit their length fields. -/
def HiveFits (buffers : Buffers) (registry : Registry) : Prop :=
  ∀ node, node < registry.count → (registry.nodes node).name.length < 2 ^ 15 ∧
    ∀ value ∈ (registry.nodes node).values, ∃ content, value.content buffers = some content ∧
      content.Fits

theorem exists_contents {values : List KeyValue}
    (known : ∀ value ∈ values, ∃ content, value.content buffers = some content ∧ content.Fits) :
    ∃ contents : List TreeValue, values.map (KeyValue.content buffers) = contents.map some := by
  induction values with
  | nil => exact ⟨[], rfl⟩
  | cons value values ih =>
    obtain ⟨content, first, _⟩ := known value mem_cons_self
    obtain ⟨contents, later⟩ := ih (fun other member => known other (mem_cons_of_mem _ member))
    exact ⟨content :: contents, by rw [map_cons, map_cons, first, later]⟩

theorem exists_trees {nodes : List Nat}
    (known : ∀ node ∈ nodes, ∃ root, Represents buffers registry node root) :
    ∃ trees : List KeyTree, nodes.length = trees.length ∧
      ∀ pair ∈ nodes.zip trees, Represents buffers registry pair.1 pair.2 := by
  induction nodes with
  | nil => exact ⟨[], rfl, by simp⟩
  | cons node nodes ih =>
    obtain ⟨root, first⟩ := known node mem_cons_self
    obtain ⟨trees, sameLength, later⟩ :=
      ih (fun other member => known other (mem_cons_of_mem _ member))
    refine ⟨root :: trees, congrArg Nat.succ sameLength, ?_⟩
    intro pair member
    rw [zip_cons_cons] at member
    rcases mem_cons.mp member with rfl | rest
    · exact first
    · exact later pair rest

/-- Every node of a registry that fits has its tree. -/
theorem exists_represents (tree : RegistryTree registry) (fits : HiveFits buffers registry)
    (node : Nat) (inside : node < registry.count) :
    ∃ root, Represents buffers registry node root := by
  -- Induction on the number of younger nodes.
  induction left : registry.count - node using Nat.strongRecOn generalizing node with
  | ind left ih =>
    have children : ∀ child ∈ subkeys registry node,
        ∃ root, Represents buffers registry child root := by
      intro child member
      have younger := tree.parent_lt member
      have childInside := (mem_subkeys.mp member).1
      exact ih (registry.count - child) (by omega) child childInside rfl
    obtain ⟨trees, sameLength, below⟩ := exists_trees children
    obtain ⟨contents, sameValues⟩ := exists_contents (fits node inside).2
    exact ⟨_, .intro (tree.listed node inside) sameLength below sameValues⟩

/-- The tree of a registry that fits has fields that fit. -/
theorem Represents.fits {node : Nat} {root : KeyTree} (tree : RegistryTree registry)
    (hiveFits : HiveFits buffers registry) (inside : node < registry.count)
    (represents : Represents buffers registry node root) : root.Fits := by
  induction represents with
  | @intro node children trees values listed sameLength below sameValues ih =>
    obtain rfl := listed.unique (tree.listed node inside)
    obtain ⟨short, known⟩ := hiveFits node inside
    have limit : cmNodeLimit < 2 ^ 32 ∧ cmValueLimit < 2 ^ 32 := by decide
    have bounded := tree.nodesBounded
    have few := subkeys_length_le registry node
    have valued := (tree.valuesCounted node inside).2
    have lengths := congrArg List.length sameValues
    rw [length_map, length_map] at lengths
    simp only [KeyTree.Fits, keysFit_iff]
    refine ⟨short, by omega, ?_, by omega, ?_⟩
    · intro root member
      obtain ⟨index, bound, rfl⟩ := getElem_of_mem member
      have childBound : index < (subkeys registry node).length := sameLength ▸ bound
      have pair : ((subkeys registry node)[index], trees[index]) ∈
          (subkeys registry node).zip trees := by
        rw [← getElem_zip (h := by simp [childBound, bound])]
        exact getElem_mem _
      exact ih _ pair (mem_subkeys.mp (getElem_mem childBound)).1
    · intro content member
      have inValues : some content ∈ values.map some := mem_map_of_mem member
      rw [← sameValues] at inValues
      obtain ⟨value, valueMember, same⟩ := List.mem_map.mp inValues
      obtain ⟨other, found, otherFits⟩ := known value valueMember
      have equal : some content = some other := same.symm.trans found
      rw [Option.some.inj equal]
      exact otherFits

end Tree

/-- The serializer, in a buffer that is still empty, returns with these bytes
for the root of a registry that calls have led to. -/
structure Serialized (buffers : Buffers) (registry : Registry) (bytes : List UInt8) : Prop where
  run : Runs cmInitSystem registry
  fits : HiveFits buffers registry
  written : ∃ (pool : PoolGrants) (b after : SerBuffer), serInit pool (64 * 1024) = some (.ok b) ∧
    cmSerializeKey buffers pool registry (2 * registry.count) b cmGetRootKey = some (.ok after) ∧
    after.contents = bytes

theorem serInit_ok {pool : PoolGrants} {b : SerBuffer}
    (granted : serInit pool (64 * 1024) = some (.ok b)) : b.Ok ∧ b.contents = [] := by
  have bounds : 64 * 1024 ≤ Mm.mmBootMappedLimit ∧ 0 < 64 * 1024 := by decide
  unfold serInit at granted
  split at granted
  · cases granted
    exact ⟨⟨Nat.zero_le _, bounds.1, bounds.2⟩, rfl⟩
  · cases granted

/-- The serializer writes the tree of the whole registry, or runs out of memory;
in either case it returns. -/
theorem serializeRoot_appends {buffers : Buffers} {registry : Registry} {root : KeyTree}
    (pool : PoolGrants) (run : Runs cmInitSystem registry) (fits : HiveFits buffers registry)
    (represents : Represents buffers registry cmGetRootKey root) :
    Appends (fun b => cmSerializeKey buffers pool registry (2 * registry.count) b cmGetRootKey)
      (encodeKey root) := by
  have tree := (run.keeps registryTree_init).1
  exact (cmSerializeKey_appends tree (2 * registry.count)).1 cmGetRootKey root tree.root.1
    represents (represents.fits tree fits tree.root.1) (Nat.le_refl _)

/-- Serialized bytes are the encoding of the tree. -/
theorem Serialized.encodes {buffers : Buffers} {registry : Registry} {bytes : List UInt8}
    (serialized : Serialized buffers registry bytes) {root : KeyTree}
    (represents : Represents buffers registry cmGetRootKey root) : bytes = encodeKey root := by
  obtain ⟨pool, b, after, granted, done, rfl⟩ := serialized.written
  obtain ⟨ok, empty⟩ := serInit_ok granted
  rcases serializeRoot_appends pool serialized.run serialized.fits represents b ok with
    failed | ⟨after', done', _, contents⟩
  · dsimp only at failed
    rw [done] at failed
    cases failed
  · dsimp only at done'
    rw [done] at done'
    cases done'
    rw [contents, empty, nil_append]

/-- The bytes of a hive determine its tree: the reference decoder gets it back
from them and whatever follows, and two hives of which one begins the other
hold the same tree. -/
theorem hive_uniquelyDecodable (buffers buffers' : Buffers) (registry registry' : Registry)
    (bytes bytes' : List UInt8) (serialized : Serialized buffers registry bytes)
    (serialized' : Serialized buffers' registry' bytes') :
    (∃ root, Represents buffers registry cmGetRootKey root ∧
      ∀ rest, decodeKey (bytes ++ rest) = some (root, rest)) ∧
    (bytes <+: bytes' → ∀ root root', Represents buffers registry cmGetRootKey root →
      Represents buffers' registry' cmGetRootKey root' → root = root') := by
  have tree := (serialized.run.keeps registryTree_init).1
  have tree' := (serialized'.run.keeps registryTree_init).1
  constructor
  · obtain ⟨root, represents⟩ := exists_represents tree serialized.fits cmGetRootKey tree.root.1
    refine ⟨root, represents, ?_⟩
    rw [serialized.encodes represents]
    exact decodeKey_recovers root (represents.fits tree serialized.fits tree.root.1)
  · intro begins root root' represents represents'
    rw [serialized.encodes represents, serialized'.encodes represents'] at begins
    exact Recovers.eq_of_begins
      (decodeKey_recovers root (represents.fits tree serialized.fits tree.root.1))
      (decodeKey_recovers root' (represents'.fits tree' serialized'.fits tree'.root.1)) begins

/-- A pool that has room for everything. -/
def largePool : PoolGrants := ⟨fun _ => true, fun _ => 0⟩

/-- What the serializer makes of the registry with the one key `\\A`. -/
def oneKeySerialized : Option (Except NtStatus SerBuffer) :=
  cmSerializeKey (fun _ => none) largePool oneKeyRegistry 4 ⟨fun _ => 0, 0, 64 * 1024⟩ cmGetRootKey

theorem oneKeyRegistry_serialized : ∃ bytes, Serialized (fun _ => none) oneKeyRegistry bytes := by
  have run : Runs cmInitSystem oneKeyRegistry :=
    .create .refl [backslash, 0x41#16] (fun _ => true) oneKeyRegistry_created
  have fits : HiveFits (fun _ => none) oneKeyRegistry := by
    intro node inside
    have two : oneKeyRegistry.count = 2 := rfl
    rw [two] at inside
    obtain rfl | rfl : node = 0 ∨ node = 1 := by omega
    · exact ⟨by decide, by intro value member; cases member⟩
    · exact ⟨by decide, by intro value member; cases member⟩
  have returns : oneKeySerialized.map Except.isOk = some true := by decide +kernel
  cases result : oneKeySerialized with
  | none =>
    rw [result] at returns
    cases returns
  | some outcome =>
    rw [result] at returns
    cases outcome with
    | error status => cases returns
    | ok after => exact ⟨after.contents, run, fits, largePool, _, after, rfl, result, rfl⟩

/-- A registry of the root alone is decoded. -/
theorem oneKeyRegistry_decoded : ∃ bytes root,
    Represents (fun _ => none) oneKeyRegistry cmGetRootKey root ∧
      ∀ rest, decodeKey (bytes ++ rest) = some (root, rest) := by
  obtain ⟨bytes, serialized⟩ := oneKeyRegistry_serialized
  have decodable := hive_uniquelyDecodable _ _ _ _ bytes bytes serialized serialized
  exact ⟨bytes, decodable.1⟩

end MinNT.Cm
