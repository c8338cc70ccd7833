import Mathlib.Algebra.Group.Int.Defs
import Mathlib.Algebra.Group.Nat.Defs
import Mathlib.Data.List.Basic
import Mathlib.Data.List.GetD

/-- Byte-addressed memory. Every address holds a byte; which addresses a program
may touch is a matter for the proofs about that program. -/
abbrev ByteMemory := Nat → UInt8

namespace ByteMemory

open List

/-- The `count` bytes from `address` on. -/
def read (memory : ByteMemory) (address count : Nat) : List UInt8 :=
  (range count).map (fun index => memory (address + index))

/-- Overwrite the bytes from `address` on by `bytes`. -/
def write (memory : ByteMemory) (address : Nat) (bytes : List UInt8) : ByteMemory :=
  fun index =>
    if address ≤ index ∧ index < address + bytes.length then bytes.getD (index - address) 0
    else memory index

/-- Agreement of two memories everywhere outside `[low, high)`. -/
def SameOutside (before after : ByteMemory) (low high : Nat) : Prop :=
  ∀ index, index < low ∨ high ≤ index → after index = before index

@[simp] theorem read_length (memory : ByteMemory) (address count : Nat) :
    (read memory address count).length = count := by
  simp [read]

@[simp] theorem read_zero (memory : ByteMemory) (address : Nat) :
    read memory address 0 = [] := rfl

theorem read_getElem? (memory : ByteMemory) (address count index : Nat) (inside : index < count) :
    (read memory address count)[index]? = some (memory (address + index)) := by
  simp [read, inside]

theorem read_congr (before after : ByteMemory) (address count : Nat)
    (same : ∀ index, address ≤ index → index < address + count → after index = before index) :
    read after address count = read before address count := by
  unfold read
  apply map_congr_left
  intro index member
  have bound := mem_range.mp member
  exact same (address + index) (by omega) (by omega)

theorem read_append (memory : ByteMemory) (address first second : Nat) :
    read memory address (first + second) =
      read memory address first ++ read memory (address + first) second := by
  unfold read
  rw [range_add, map_append, map_map]
  congr 1
  apply map_congr_left
  intro index _
  simp only [Function.comp_apply, Nat.add_assoc]

theorem read_eq_append {memory : ByteMemory} {address : Nat} {first second : List UInt8}
    (held : read memory address (first ++ second).length = first ++ second) :
    read memory address first.length = first ∧
      read memory (address + first.length) second.length = second := by
  rw [length_append, read_append] at held
  exact append_inj held (read_length memory address first.length)

theorem read_eq_cons {memory : ByteMemory} {address : Nat} {byte : UInt8} {bytes : List UInt8}
    (held : read memory address (byte :: bytes).length = byte :: bytes) :
    memory address = byte ∧ read memory (address + 1) bytes.length = bytes := by
  obtain ⟨first, rest⟩ := @read_eq_append memory address [byte] bytes held
  exact ⟨by simpa [read] using first, rest⟩

theorem write_inside (memory : ByteMemory) (address : Nat) (bytes : List UInt8) (index : Nat)
    (lower : address ≤ index) (upper : index < address + bytes.length) :
    write memory address bytes index = bytes.getD (index - address) 0 := by
  simp only [write, lower, upper, and_self, ↓reduceIte]

theorem write_outside (memory : ByteMemory) (address : Nat) (bytes : List UInt8) (index : Nat)
    (outside : index < address ∨ address + bytes.length ≤ index) :
    write memory address bytes index = memory index := by
  have absent : ¬ (address ≤ index ∧ index < address + bytes.length) := by omega
  simp only [write, absent, ↓reduceIte]

theorem write_sameOutside (memory : ByteMemory) (address : Nat) (bytes : List UInt8)
    (low high : Nat) (lower : low ≤ address) (upper : address + bytes.length ≤ high) :
    SameOutside memory (write memory address bytes) low high := by
  intro index outside
  apply write_outside
  omega

variable {low high : Nat} {before after : ByteMemory}

theorem SameOutside.trans {first second third : ByteMemory}
    (left : SameOutside first second low high) (right : SameOutside second third low high) :
    SameOutside first third low high := by
  intro index outside
  rw [right index outside, left index outside]

theorem SameOutside.mono {low high low' high' : Nat} (same : SameOutside before after low high)
    (lower : low' ≤ low) (upper : high ≤ high') : SameOutside before after low' high' := by
  intro index outside
  exact same index (by omega)

theorem SameOutside.read_eq (same : SameOutside before after low high) (address count : Nat)
    (apart : address + count ≤ low ∨ high ≤ address) :
    read after address count = read before address count := by
  apply read_congr
  intro index lower upper
  exact same index (by omega)

@[simp] theorem read_write_same (memory : ByteMemory) (address : Nat) (bytes : List UInt8) :
    read (write memory address bytes) address bytes.length = bytes := by
  apply ext_getElem
  · simp
  · intro index inside bound
    simp only [read, getElem_map, getElem_range]
    rw [write_inside _ _ _ _ (by omega) (by omega)]
    simp only [Nat.add_sub_cancel_left, getD_eq_getElem?_getD, getElem?_eq_getElem bound,
      Option.getD_some]

theorem read_write_disjoint (memory : ByteMemory) (address : Nat) (bytes : List UInt8)
    (start count : Nat) (apart : start + count ≤ address ∨ address + bytes.length ≤ start) :
    read (write memory address bytes) start count = read memory start count :=
  (write_sameOutside memory address bytes address (address + bytes.length)
    (Nat.le_refl _) (Nat.le_refl _)).read_eq start count apart

/-- Writing back what was read with a patch writes the patch. -/
theorem write_patched (memory : ByteMemory) (address count offset : Nat) (bytes : List UInt8)
    (fits : offset + bytes.length ≤ count) :
    write memory address ((read memory address count).take offset ++ bytes ++
      (read memory address count).drop (offset + bytes.length)) =
      write memory (address + offset) bytes := by
  have front : ((read memory address count).take offset).length = offset := by
    rw [length_take, read_length]
    omega
  have whole : ((read memory address count).take offset ++ bytes ++
      (read memory address count).drop (offset + bytes.length)).length = count := by
    simp only [length_append, front, length_drop, read_length]
    omega
  funext index
  by_cases inside : address ≤ index ∧ index < address + count
  · rw [write_inside _ _ _ _ inside.1 (by rw [whole]; exact inside.2)]
    have here := read_getElem? memory address count (index - address) (by omega)
    rw [show address + (index - address) = index by omega] at here
    by_cases early : index - address < offset
    · rw [write_outside _ _ _ _ (by omega), append_assoc,
        getD_append _ _ _ _ (by rw [front]; exact early), getD_eq_getElem?_getD,
        getElem?_take_of_lt early, here, Option.getD_some]
    · by_cases middle : index - address < offset + bytes.length
      · rw [write_inside _ _ _ _ (by omega) (by omega), append_assoc,
          getD_append_right _ _ _ _ (by rw [front]; omega), front,
          getD_append _ _ _ _ (by omega)]
        congr 1
        omega
      · rw [write_outside _ _ _ _ (by omega), getD_append_right _ _ _ _ (by
          rw [length_append, front]; omega), length_append, front,
          getD_eq_getElem?_getD, getElem?_drop,
          show offset + bytes.length + (index - address - (offset + bytes.length)) =
            index - address by omega, here, Option.getD_some]
  · rw [write_outside _ _ _ _ (by rw [whole]; omega), write_outside _ _ _ _ (by omega)]

/-- The `width` little-endian bytes of `value`, which is taken modulo `256 ^ width`. -/
def encodeLE : Nat → Nat → List UInt8
  | 0, _ => []
  | width + 1, value => UInt8.ofNat value :: encodeLE width (value / 256)

def decodeLE : List UInt8 → Nat
  | [] => 0
  | byte :: rest => byte.toNat + 256 * decodeLE rest

@[simp] theorem encodeLE_length (width value : Nat) : (encodeLE width value).length = width := by
  induction width generalizing value with
  | zero => rfl
  | succ width ih => simp only [encodeLE, length_cons, ih]

theorem decodeLE_lt (bytes : List UInt8) : decodeLE bytes < 256 ^ bytes.length := by
  induction bytes with
  | nil => simp [decodeLE]
  | cons byte rest ih =>
    have small := byte.toNat_lt
    simp only [decodeLE, length_cons, Nat.pow_succ]
    omega

theorem decodeLE_append (first second : List UInt8) :
    decodeLE (first ++ second) = decodeLE first + 256 ^ first.length * decodeLE second := by
  induction first with
  | nil => simp [decodeLE]
  | cons byte first ih =>
    rw [cons_append, decodeLE, decodeLE, ih, length_cons, Nat.pow_succ,
      Nat.mul_comm (256 ^ _) 256, Nat.mul_assoc, Nat.mul_add, Nat.add_assoc]

theorem decodeLE_encodeLE (width value : Nat) :
    decodeLE (encodeLE width value) = value % 256 ^ width := by
  induction width generalizing value with
  | zero => simp [encodeLE, decodeLE, Nat.mod_one]
  | succ width ih =>
    have byte : (UInt8.ofNat value).toNat = value % 256 := by
      simp [UInt8.toNat_ofNat']
    rw [encodeLE, decodeLE, ih, byte, Nat.pow_succ, Nat.mul_comm (256 ^ width) 256, Nat.mod_mul]

theorem encodeLE_decodeLE (bytes : List UInt8) :
    encodeLE bytes.length (decodeLE bytes) = bytes := by
  induction bytes with
  | nil => rfl
  | cons byte rest ih =>
    have small := byte.toNat_lt
    have low : UInt8.ofNat (byte.toNat + 256 * decodeLE rest) = byte := by
      apply UInt8.toNat_inj.mp
      rw [UInt8.toNat_ofNat']
      omega
    have high : (byte.toNat + 256 * decodeLE rest) / 256 = decodeLE rest := by omega
    rw [length_cons, decodeLE, encodeLE, low, high, ih]

theorem encodeLE_shifts (value : Nat) :
    encodeLE 6 value = [UInt8.ofNat value, UInt8.ofNat (value / 2 ^ 8),
      UInt8.ofNat (value / 2 ^ 16), UInt8.ofNat (value / 2 ^ 24), UInt8.ofNat (value / 2 ^ 32),
      UInt8.ofNat (value / 2 ^ 40)] := by
  have one : value / 256 = value / 2 ^ 8 := rfl
  have two : value / 256 / 256 = value / 2 ^ 16 := Nat.div_div_eq_div_mul value 256 256
  have three : value / 256 / 256 / 256 = value / 2 ^ 24 :=
    (congrArg (· / 256) two).trans (Nat.div_div_eq_div_mul value (2 ^ 16) 256)
  have four : value / 256 / 256 / 256 / 256 = value / 2 ^ 32 :=
    (congrArg (· / 256) three).trans (Nat.div_div_eq_div_mul value (2 ^ 24) 256)
  have five : value / 256 / 256 / 256 / 256 / 256 = value / 2 ^ 40 :=
    (congrArg (· / 256) four).trans (Nat.div_div_eq_div_mul value (2 ^ 32) 256)
  calc encodeLE 6 value = [UInt8.ofNat value, UInt8.ofNat (value / 256),
        UInt8.ofNat (value / 256 / 256), UInt8.ofNat (value / 256 / 256 / 256),
        UInt8.ofNat (value / 256 / 256 / 256 / 256),
        UInt8.ofNat (value / 256 / 256 / 256 / 256 / 256)] := rfl
    _ = _ := by rw [five, four, three, two, one]

/-- The unsigned word of `width` bytes at `address`. -/
def load (memory : ByteMemory) (width address : Nat) : Nat :=
  decodeLE (read memory address width)

def store (memory : ByteMemory) (width address value : Nat) : ByteMemory :=
  write memory address (encodeLE width value)

theorem load_lt (memory : ByteMemory) (width address : Nat) :
    load memory width address < 256 ^ width := by
  simpa only [load, read_length] using decodeLE_lt (read memory address width)

@[simp] theorem load_one (memory : ByteMemory) (address : Nat) :
    load memory 1 address = (memory address).toNat := by
  simp [load, ByteMemory.read, decodeLE]

theorem or_shiftLeft {word width : Nat} (small : word < 256 ^ width) (byte : Nat) :
    word ||| byte <<< (8 * width) = word + 256 ^ width * byte := by
  have low : word < 2 ^ (8 * width) := by
    rwa [Nat.pow_mul]
  rw [Nat.or_comm, ← Nat.shiftLeft_add_eq_or_of_lt low, Nat.shiftLeft_eq, Nat.pow_mul,
    Nat.mul_comm, Nat.add_comm]

theorem load_add (memory : ByteMemory) (low high address : Nat) :
    load memory (low + high) address =
      load memory low address + 256 ^ low * load memory high (address + low) := by
  rw [load, read_append, decodeLE_append, read_length]
  rfl

theorem load_congr (before after : ByteMemory) (width address : Nat)
    (same : ∀ index, address ≤ index → index < address + width → after index = before index) :
    load after width address = load before width address := by
  rw [load, load, read_congr before after address width same]

theorem load_eq_load_iff (memory : ByteMemory) (width first second : Nat) :
    load memory width first = load memory width second ↔
      ∀ index, index < width → memory (first + index) = memory (second + index) := by
  constructor
  · intro same index inside
    have bytes := congrArg (encodeLE width) same
    have decoded : ∀ address, encodeLE width (load memory width address) =
        read memory address width := by
      intro address
      have back := encodeLE_decodeLE (read memory address width)
      rwa [read_length] at back
    rw [decoded, decoded] at bytes
    have here := congrArg (·[index]?) bytes
    simpa only [read_getElem? _ _ _ _ inside, Option.some_inj] using here
  · intro same
    rw [load, load]
    congr 1
    apply map_congr_left
    intro index member
    exact same index (mem_range.mp member)

/-- Agreement of two memories in `[low, high)`. -/
def SameInside (before after : ByteMemory) (low high : Nat) : Prop :=
  ∀ index, low ≤ index → index < high → after index = before index

theorem SameInside.load_eq
    (same : SameInside before after low high) {width address : Nat} (lower : low ≤ address)
    (upper : address + width ≤ high) : load after width address = load before width address :=
  load_congr before after width address fun index first last =>
    same index (by omega) (by omega)

theorem SameOutside.sameInside (same : SameOutside before after low high) {first last : Nat}
    (apart : last ≤ low ∨ high ≤ first) : SameInside before after first last :=
  fun index lower upper => same index (by omega)

/-- None of the addresses in `[low, high)` is among those changed. -/
def Apart (changed : Nat → Prop) (low high : Nat) : Prop :=
  ∀ index, low ≤ index → index < high → ¬ changed index

/-- Agreement of two memories at every address that is not among those changed. -/
def SameExcept (changed : Nat → Prop) (before after : ByteMemory) : Prop :=
  ∀ index, ¬ changed index → after index = before index

theorem SameExcept.sameInside {changed : Nat → Prop} (same : SameExcept changed before after)
    (apart : Apart changed low high) : SameInside before after low high :=
  fun index lower upper => same index (apart index lower upper)

theorem load_eq_zero (memory : ByteMemory) (width address : Nat)
    (zero : ∀ index, address ≤ index → index < address + width → memory index = 0) :
    load memory width address = 0 := by
  have bytes : read memory address width = replicate width 0 := by
    rw [read_congr (fun _ => 0) memory address width zero]
    simp [read]
  have decoded : ∀ count, decodeLE (replicate count 0) = 0 := by
    intro count
    induction count with
    | zero => rfl
    | succ count ih => simp [replicate_succ, decodeLE, ih]
  rw [load, bytes, decoded]

theorem load_store_same (memory : ByteMemory) (width address value : Nat) :
    load (store memory width address value) width address = value % 256 ^ width := by
  have bytes := read_write_same memory address (encodeLE width value)
  rw [encodeLE_length] at bytes
  rw [load, store, bytes, decodeLE_encodeLE]

theorem store_load (memory : ByteMemory) (width address : Nat) :
    store memory width address (load memory width address) = memory := by
  have bytes := encodeLE_decodeLE (read memory address width)
  rw [read_length] at bytes
  funext index
  rw [store, load, bytes]
  by_cases inside : address ≤ index ∧ index < address + width
  · rw [write_inside _ _ _ _ inside.1 (by rw [read_length]; exact inside.2),
      getD_eq_getElem?_getD, read_getElem? _ _ _ _ (by omega), Option.getD_some]
    congr 1
    omega
  · apply write_outside
    rw [read_length]
    omega

theorem store_sameOutside (memory : ByteMemory) (width address value low high : Nat)
    (lower : low ≤ address) (upper : address + width ≤ high) :
    SameOutside memory (store memory width address value) low high := by
  apply write_sameOutside memory address _ low high lower
  simpa only [encodeLE_length] using upper

theorem SameOutside.load_eq (same : SameOutside before after low high) (width address : Nat)
    (apart : address + width ≤ low ∨ high ≤ address) :
    load after width address = load before width address := by
  rw [load, load, same.read_eq address width apart]

theorem load_store_disjoint (memory : ByteMemory) (width address value width' address' : Nat)
    (apart : address' + width' ≤ address ∨ address + width ≤ address') :
    load (store memory width address value) width' address' = load memory width' address' :=
  (store_sameOutside memory width address value address (address + width)
    (Nat.le_refl _) (Nat.le_refl _)).load_eq width' address' apart

end ByteMemory
