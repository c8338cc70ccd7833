import MinNT.Lib.ByteMemory

/-! Decoders that read a value from the front of a byte string and hand on the
rest. -/

namespace PrefixCodec

open List ByteMemory

variable {α : Type}

/-- A value read from the front, and the bytes behind it. -/
abbrev Decoder (α : Type) := List UInt8 → Option (α × List UInt8)

/-- The decoder gets the value back from its encoding, whatever follows. -/
def Recovers (decode : Decoder α) (bytes : List UInt8) (value : α) : Prop :=
  ∀ rest, decode (bytes ++ rest) = some (value, rest)

def takeBytes (count : Nat) : Decoder (List UInt8) := fun bytes =>
  if count ≤ bytes.length then some (bytes.take count, bytes.drop count) else none

/-- A little-endian number of `width` bytes. -/
def takeLE (width : Nat) : Decoder Nat := fun bytes =>
  (takeBytes width bytes).map (fun taken => (decodeLE taken.1, taken.2))

/-- The same decoder `count` times. -/
def times (decode : Decoder α) : Nat → Decoder (List α)
  | 0, bytes => some ([], bytes)
  | count + 1, bytes =>
      match decode bytes with
      | none => none
      | some (value, rest) =>
          (times decode count rest).map (fun taken => (value :: taken.1, taken.2))

theorem takeBytes_recovers (bytes : List UInt8) :
    Recovers (takeBytes bytes.length) bytes bytes := by
  intro rest
  simp [takeBytes]

theorem takeLE_recovers {width value : Nat} (small : value < 256 ^ width) :
    Recovers (takeLE width) (encodeLE width value) value := by
  intro rest
  have taken := takeBytes_recovers (encodeLE width value) rest
  rw [encodeLE_length] at taken
  rw [takeLE, taken, Option.map_some, decodeLE_encodeLE, Nat.mod_eq_of_lt small]

theorem times_recovers {decode : Decoder α} {encode : α → List UInt8} (values : List α)
    (recovers : ∀ value ∈ values, Recovers decode (encode value) value) :
    Recovers (times decode values.length) (values.flatMap encode) values := by
  intro rest
  induction values with
  | nil => rfl
  | cons value values ih =>
    have first := recovers value mem_cons_self
    have later := ih (fun other member => recovers other (mem_cons_of_mem _ member))
    simp only [length_cons, flatMap_cons, append_assoc, times, first _, later, Option.map_some]

theorem Recovers.eq_of_begins {decode : Decoder α} {bytes bytes' : List UInt8} {value value' : α}
    (recovers : Recovers decode bytes value) (recovers' : Recovers decode bytes' value')
    (begins : bytes <+: bytes') : value = value' := by
  obtain ⟨rest, whole⟩ := begins
  have left := recovers rest
  have right := recovers' []
  rw [append_nil, ← whole, left, Option.some.injEq, Prod.mk.injEq] at right
  exact right.1

end PrefixCodec
