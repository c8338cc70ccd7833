import MinNT.Cm.HiveCursor

namespace MinNT.Cm

open ByteMemory Fallible List

/-- The access stays in the hive of that size, or in an array of 256 characters. -/
def HiveAccess.Inside (size : Nat) : HiveAccess → Prop
  | .read offset len => offset + len ≤ size
  | .moveTo pos => pos ≤ size
  | .fillName offset len => offset + len ≤ 256 * 2

/-- What the parser never breaks. It makes no more than three accesses for each
byte that it takes. -/
structure Sound (size : Nat) (s : CursorState) : Prop where
  sized : s.d.size = size
  inside : s.d.pos ≤ size
  accesses : ∀ access ∈ s.accesses, access.Inside size
  few : s.accesses.length ≤ 3 * s.d.pos
  tree : RegistryTree s.registry

/-- The parser has gone on: no key is lost and no byte is read twice. -/
def Later (s after : CursorState) : Prop :=
  s.d.pos ≤ after.d.pos ∧ s.registry.count ≤ after.registry.count

theorem Later.refl (s : CursorState) : Later s s := ⟨Nat.le_refl _, Nat.le_refl _⟩

theorem Later.trans {first second third : CursorState} (left : Later first second)
    (right : Later second third) : Later first third :=
  ⟨Nat.le_trans left.1 right.1, Nat.le_trans left.2 right.2⟩

section Bounds

variable {size : Nat} (small : size ≤ 2 ^ 20) {s : CursorState}

include small

theorem ends_read (sound : Sound size s) {len : Nat} (short : len ≤ 2 ^ 20)
    (slack : s.accesses.length + 2 ≤ 3 * (s.d.pos + len)) :
    Ends (Sound size) (cursorRead len) s (fun _ after => after.d.pos = s.d.pos + len ∧
      after.registry = s.registry ∧ after.accesses.length = s.accesses.length + 2) := by
  have known := sound.sized
  have inside := sound.inside
  have ran := cursorRead_run s (by omega) (by omega) short
  by_cases beyond : s.d.size < s.d.pos + len
  · rw [if_pos beyond] at ran
    exact ⟨_, _, ran, sound, fun _ impossible => by cases impossible⟩
  rw [if_neg beyond] at ran
  have fits : s.d.pos + len ≤ size := by omega
  have length : ((s.advance (s.d.pos + len)).note
      [.read s.d.pos len, .moveTo (s.d.pos + len)]).accesses.length = s.accesses.length + 2 :=
    length_append
  refine ⟨_, _, ran, ⟨known, fits, ?_, ?_, sound.tree⟩, fun _ _ => ⟨rfl, rfl, length⟩⟩
  · intro access member
    rcases mem_append.mp member with old | new
    · exact sound.accesses access old
    · rcases mem_cons.mp new with rfl | moved
      · exact fits
      · obtain rfl := mem_singleton.mp moved
        exact fits
  · rw [length]
    exact slack

theorem ends_number (sound : Sound size s) {width : Nat} (wide : 2 ≤ width) (short : width ≤ 4) :
    Ends (Sound size) (cursorReadNumber width) s (fun _ after => after.d.pos = s.d.pos + width ∧
      after.registry = s.registry ∧ after.accesses.length + 4 ≤ 3 * after.d.pos) := by
  have few := sound.few
  apply (ends_read small sound (show width ≤ 2 ^ 20 by omega) (by omega)).bind
  rintro bytes after kept ⟨moved, same, more⟩
  exact ends_pure kept ⟨moved, same, by omega⟩

theorem ends_name (sound : Sound size s) {count : Nat} (short : count ≤ 255)
    (slack : s.accesses.length + 4 ≤ 3 * s.d.pos) :
    Ends (Sound size) (cursorReadName count) s (fun _ after => s.d.pos ≤ after.d.pos ∧
      after.registry = s.registry) := by
  apply (ends_read small sound (show count * 2 ≤ 2 ^ 20 by omega) (by omega)).bind
  rintro bytes after kept ⟨moved, same, more⟩
  have filled : Sound size (after.note [.fillName 0 (count * 2), .fillName (count * 2) 2]) := by
    refine ⟨kept.sized, kept.inside, ?_, ?_, kept.tree⟩
    · intro access member
      rcases mem_append.mp member with old | new
      · exact kept.accesses access old
      · rcases mem_cons.mp new with rfl | zero
        · show 0 + count * 2 ≤ 256 * 2
          omega
        · obtain rfl := mem_singleton.mp zero
          show count * 2 + 2 ≤ 256 * 2
          omega
    · have length : (after.note [.fillName 0 (count * 2),
        .fillName (count * 2) 2]).accesses.length =
          after.accesses.length + 2 := length_append
      have position : (after.note [.fillName 0 (count * 2), .fillName (count * 2) 2]).d.pos =
          after.d.pos := rfl
      omega
  exact ⟨_, _, rfl, filled, fun _ _ => ⟨by show s.d.pos ≤ after.d.pos; omega, same⟩⟩

variable (room : Nat → Nat → Bool) (vname : Nat → Nat)

omit small in
theorem ends_createKey (sound : Sound size s) (name : List WChar) :
    Ends (Sound size) (cursorCreateKey room name) s (fun node after => Later s after ∧
      node < after.registry.count) := by
  obtain ⟨status, out, registry, call, effect⟩ := cmCreateKey_effect sound.tree name (room s.left)
  have ran := cursorCreateKey_run room name s
  rw [call, Option.map_some] at ran
  refine ⟨_, _, ran, ⟨sound.sized, sound.inside, sound.accesses, sound.few, effect.tree⟩, ?_⟩
  intro node same
  rcases effect.outcome with ⟨_, rfl⟩ | ⟨_, reached, rfl, inside, _⟩
  · cases same
  · cases same
    exact ⟨⟨Nat.le_refl _, effect.grows.count⟩, inside⟩

theorem ends_readData (sound : Sound size s) {dlen : Nat} (positive : 0 < dlen)
    (short : dlen ≤ 65536) :
    Ends (Sound size) (cursorReadData room dlen) s (fun _ after => Later s after) := by
  have few := sound.few
  have ran : (cursorReadData room dlen).runFrom s =
      (if room s.left s.registry.count then cursorRead dlen
        else throw statusNoMemory : Cursor (List UInt8)).runFrom s := rfl
  unfold Ends
  rw [ran]
  split
  · apply (ends_read small sound (show dlen ≤ 2 ^ 20 by omega) (by omega)).mono
    rintro _ after ⟨moved, same, _⟩
    exact ⟨by omega, by rw [same]⟩
  · exact ends_throw sound

omit small in
theorem ends_setValue (sound : Sound size s) {node : Nat} (held : node < s.registry.count)
    (name : UnicodeString) (dataType : Nat) (data : List UInt8) :
    Ends (Sound size) (cursorSetValue room node name dataType data) s
      (fun _ after => Later s after) := by
  have ran := cursorSetValue_run room node name dataType data s
  have exists' : ∀ other, some node = some other → other < s.registry.count := by
    intro other same
    cases same
    exact held
  have kept := cmSetValue_keeps sound.tree exists' (some name) dataType data
    (room s.left s.registry.count)
  refine ⟨_, _, ran, ⟨sound.sized, sound.inside, sound.accesses, sound.few, kept.1⟩, ?_⟩
  exact fun _ _ => ⟨Nat.le_refl _, kept.2.count⟩

/-- Reading a value ends, with the cursor further on. -/
theorem ends_deserializeValue (frame : Nat) (sound : Sound size s) {node : Nat}
    (held : node < s.registry.count) :
    Ends (Sound size) (cursorDeserializeValue room vname frame node) s
      (fun _ after => Later s after) := by
  unfold cursorDeserializeValue
  apply (ends_number small sound (show 2 ≤ 2 by decide) (by decide)).bind
  rintro vnlen s₁ sound₁ ⟨moved₁, same₁, slack⟩
  split
  · exact ends_throw sound₁
  apply (ends_name small sound₁ (show vnlen ≤ 255 by omega) slack).bind
  rintro _ s₂ sound₂ ⟨moved₂, same₂⟩
  apply (ends_number small sound₂ (show 2 ≤ 4 by decide) (by decide)).bind
  rintro dataType s₃ sound₃ ⟨moved₃, same₃, _⟩
  apply (ends_number small sound₃ (show 2 ≤ 4 by decide) (by decide)).bind
  rintro dlen s₄ sound₄ ⟨moved₄, same₄, _⟩
  have later : Later s s₄ := by
    refine ⟨by omega, ?_⟩
    rw [same₄, same₃, same₂, same₁]
  have stored : ∀ data after, Sound size after → Later s₄ after →
      Ends (Sound size) (cursorSetValue room node ⟨vname frame, vnlen⟩ dataType data) after
        (fun _ last => Later s last) := by
    intro data after kept since
    have still : node < after.registry.count :=
      Nat.lt_of_lt_of_le held (later.trans since).2
    apply (ends_setValue room kept still _ dataType data).mono
    intro _ last reached
    exact (later.trans since).trans reached
  split
  · exact ends_throw sound₄
  split
  · rename_i positive
    exact (ends_readData small room sound₄ positive (by omega)).bind stored
  · have none : Ends (Sound size) (pure [] : Cursor (List UInt8)) s₄
        (fun _ after => Later s₄ after) := ends_pure sound₄ (Later.refl s₄)
    exact none.bind stored

/-- A key ends if the fuel is more than the bytes left: each call takes some
before it calls itself. -/
theorem ends_deserializeKey (fuel parent : Nat) (sound : Sound size s)
    (enough : size - s.d.pos < fuel) :
    Ends (Sound size) (cursorDeserializeKey room vname fuel parent) s
      (fun _ after => Later s after) := by
  induction fuel generalizing parent s with
  | zero => omega
  | succ fuel ih =>
    rw [cursorDeserializeKey]
    apply (ends_number small sound (show 2 ≤ 2 by decide) (by decide)).bind
    rintro nameLen s₁ sound₁ ⟨moved₁, same₁, slack⟩
    split
    · exact ends_throw sound₁
    apply (ends_name small sound₁ (show nameLen ≤ 255 by omega) slack).bind
    rintro name s₂ sound₂ ⟨moved₂, same₂⟩
    have behind : ∀ node after, Sound size after →
        Later s₂ after ∧ node < after.registry.count →
        Ends (Sound size)
          (cursorReadNumber 4 >>= fun subkeyCount =>
            times (cursorDeserializeKey room vname fuel node) subkeyCount >>= fun _ =>
              cursorReadNumber 4 >>= fun valueCount =>
                times (cursorDeserializeValue room vname fuel node) valueCount)
          after (fun _ last => Later s last) := by
      rintro node s₃ sound₃ ⟨since, held⟩
      have later₃ : Later s s₃ := by
        refine Later.trans ⟨by omega, ?_⟩ since
        rw [same₂, same₁]
      apply (ends_number small sound₃ (show 2 ≤ 4 by decide) (by decide)).bind
      rintro subkeyCount s₄ sound₄ ⟨moved₄, same₄, _⟩
      have later₄ : Later s₃ s₄ := ⟨by omega, by rw [same₄]⟩
      have keys : Ends (Sound size) (times (cursorDeserializeKey room vname fuel node)
          subkeyCount) s₄ (fun _ => Later s₄) := by
        apply ends_times _ _ sound₄ (Later.refl s₄)
        intro state kept reached
        have further := since.1
        have position := reached.1
        have bounded := kept.inside
        apply (ih node kept (by omega)).mono
        intro _ last next
        exact reached.trans next
      apply keys.bind
      intro _ s₅ sound₅ later₅
      apply (ends_number small sound₅ (show 2 ≤ 4 by decide) (by decide)).bind
      rintro valueCount s₆ sound₆ ⟨moved₆, same₆, _⟩
      have later₆ : Later s₃ s₆ := by
        refine (later₄.trans later₅).trans ⟨by omega, ?_⟩
        rw [same₆]
      have values : Ends (Sound size) (times (cursorDeserializeValue room vname fuel node)
          valueCount) s₆ (fun _ => Later s₃) := by
        apply ends_times _ _ sound₆ later₆
        intro state kept reached
        have still : node < state.registry.count := Nat.lt_of_lt_of_le held reached.2
        apply (ends_deserializeValue small room vname fuel kept still).mono
        intro _ last next
        exact reached.trans next
      apply values.mono
      intro _ last reached
      exact later₃.trans reached
    split
    · rename_i root
      have same : Ends (Sound size) (pure parent : Cursor Nat) s₂
          (fun node after => Later s₂ after ∧ node < after.registry.count) := by
        refine ends_pure sound₂ ⟨Later.refl s₂, ?_⟩
        rw [root]
        exact sound₂.tree.root.1
      exact same.bind behind
    · exact (ends_createKey room sound₂ (decodeChars name)).bind behind

end Bounds

section Total

variable (room : Nat → Nat → Bool) (vname : Nat → Nat)

/-- Whatever the bytes are, `CmDeserializeKey` returns; all its reads are in the
hive, all it puts into its name arrays is inside of them, the cursor never goes
past the end, and it does no more than three of these for each byte. The depth
of its recursion is at most the number of bytes. -/
theorem cmDeserializeKey_total (data : ByteMemory) {size pos : Nat} (small : size ≤ 2 ^ 20)
    (inside : pos ≤ size) {registry : Registry} (tree : RegistryTree registry) (parent : Nat) :
    ∃ result after, (cursorDeserializeKey room vname (size - pos + 1) parent).runFrom
        ⟨⟨data, size, pos⟩, registry, []⟩ = some (result, after) ∧
      after.d.size = size ∧ after.d.pos ≤ size ∧
      (∀ access ∈ after.accesses, access.Inside size) ∧ after.accesses.length ≤ 3 * size := by
  have sound : Sound size ⟨⟨data, size, pos⟩, registry, []⟩ :=
    ⟨rfl, inside, fun access member => absurd member not_mem_nil, Nat.zero_le _, tree⟩
  obtain ⟨result, after, ran, kept, _⟩ :=
    ends_deserializeKey small room vname (size - pos + 1) parent sound (Nat.lt_succ_self _)
  have bounded := kept.inside
  have few := kept.few
  exact ⟨result, after, ran, kept.sized, bounded, kept.accesses, by omega⟩

/-- The hive that ends in its second value. -/
theorem truncatedHive_total : ∃ result after,
    (cursorDeserializeKey (fun _ _ => true) (fun frame => frame) (37 - 16 + 1) cmGetRootKey).runFrom
        ⟨⟨fun offset => truncatedHive.getD offset 0, 37, 16⟩, cmInitSystem, []⟩ =
          some (result, after) ∧
      after.d.size = 37 ∧ after.d.pos ≤ 37 ∧ (∀ access ∈ after.accesses, access.Inside 37) ∧
      after.accesses.length ≤ 3 * 37 :=
  cmDeserializeKey_total _ _ _ (by decide) (by decide) registryTree_init cmGetRootKey

end Total

end MinNT.Cm
