import Mathlib.Data.Nat.Bitwise
import Mathlib.Tactic.Positivity
import MinNT.Lib.ByteMemory
import MinNT.Lib.TwosComplement
import MinNT.NtStatus

namespace MinNT.Ntfs

open List ByteMemory

/-- What `NtfsDecodeDataRun` writes of an `NTFS_DATA_RUN`. -/
structure DataRun where
  lcn : Nat
  length : Nat
deriving DecidableEq, Repr

/-- The loops of `NtfsDecodeDataRun` over the bytes of a field. -/
def readField (memory : ByteMemory) (p size : Nat) : Nat :=
  (range size).foldl (fun field i => field ||| (memory (p + i)).toNat <<< (8 * i)) 0

/-- The loop that sets the bytes of a field from its size on. -/
def signExtend (offset size : Nat) : Nat :=
  (List.range' size (8 - size)).foldl (fun field i => field ||| 0xFF <<< (8 * i)) offset

/-- `NtfsDecodeDataRun`: the run at `p`, and the place behind it. The offset is a 64-bit word
whose upper half stands for the negative numbers. -/
def ntfsDecodeDataRun (memory : ByteMemory) (p : Nat) : Option (DataRun × Nat) :=
  if memory p = 0 then none
  else
    let hdr := (memory p).toNat
    let p := p + 1
    let lenSize := hdr >>> 4
    let offSize := hdr &&& 0x0F
    if lenSize = 0 ∨ lenSize > 8 ∨ offSize > 8 then none
    else
      let length := readField memory p lenSize
      let p := p + lenSize
      let offset := readField memory p offSize
      let p := p + offSize
      let offset :=
        if offSize > 0 ∧ memory (p - 1) &&& 0x80 ≠ 0 then signExtend offset offSize else offset
      some (⟨if 2 ^ 63 ≤ offset then 0 else offset, length⟩, p)

/-- The runs that the loop of `NtfsReadFile` goes through, with the cluster numbers that it
reads them at. `fuel` bounds the number of turns. -/
def dataRuns : Nat → ByteMemory → Nat → Nat → Option (List DataRun)
  | 0, _, _, _ => none
  | fuel + 1, memory, runs, prevLcn =>
      match ntfsDecodeDataRun memory runs with
      | none => some []
      | some (run, next) =>
          let prevLcn := if prevLcn = 0 then run.lcn else (prevLcn + run.lcn) % 2 ^ 64
          (dataRuns fuel memory next ((prevLcn + run.length) % 2 ^ 64)).map
            fun rest => ⟨prevLcn, run.length⟩ :: rest

theorem first_run (prevLcn lcn : Nat) (small : lcn < 2 ^ 64) :
    (if prevLcn = 0 then lcn else (prevLcn + lcn) % 2 ^ 64) = (prevLcn + lcn) % 2 ^ 64 := by
  by_cases first : prevLcn = 0
  · rw [if_pos first, first, Nat.zero_add, Nat.mod_eq_of_lt small]
  · rw [if_neg first]

theorem readField_eq (memory : ByteMemory) (p size : Nat) :
    readField memory p size = load memory size p := by
  unfold readField
  induction size with
  | zero => rfl
  | succ size ih =>
    rw [range_succ, foldl_append, ih, foldl_cons, foldl_nil,
      or_shiftLeft (load_lt memory size p), load_add, load_one]

theorem signExtend_eq {offset size : Nat} (small : offset < 256 ^ size) (size_le : size ≤ 8) :
    signExtend offset size = offset + (2 ^ 64 - 256 ^ size) := by
  have extended : ∀ count, (List.range' size count).foldl
      (fun field i => field ||| 0xFF <<< (8 * i)) offset =
      offset + (256 ^ (size + count) - 256 ^ size) := by
    intro count
    induction count with
    | zero => simp
    | succ count ih =>
      have grows : 256 ^ size ≤ 256 ^ (size + count) :=
        Nat.pow_le_pow_right (by omega) (by omega)
      have next : 256 ^ (size + (count + 1)) = 256 * 256 ^ (size + count) := by
        rw [← Nat.add_assoc, Nat.pow_succ, Nat.mul_comm]
      rw [List.range'_concat, foldl_append, ih, foldl_cons, foldl_nil,
        Nat.one_mul, or_shiftLeft (by omega), next]
      omega
  unfold signExtend
  rw [extended, Nat.add_sub_cancel' size_le, show 256 ^ 8 = 2 ^ 64 by decide]

theorem signBit_iff (byte : UInt8) : byte &&& 0x80 ≠ 0 ↔ 128 ≤ byte.toNat := by
  have less := byte.toNat_lt
  have bit : byte.toNat &&& 128 = 0 ↔ byte.toNat / 128 % 2 = 0 := by
    rw [show 128 = 2 ^ 7 by rfl, Nat.and_two_pow, Nat.testBit_eq_decide_div_mod_eq]
    simp
  rw [ne_eq, ← UInt8.toNat_inj, UInt8.toNat_and]
  change ¬ byte.toNat &&& 128 = 0 ↔ _
  rw [bit]
  omega

theorem sign_iff (memory : ByteMemory) {p size : Nat} (some : 0 < size) :
    memory (p + size - 1) &&& 0x80 ≠ 0 ↔ ¬ 2 * load memory size p < 256 ^ size := by
  obtain ⟨low, rfl⟩ : ∃ low, size = low + 1 := ⟨size - 1, by omega⟩
  have less := load_lt memory low p
  have pow : 256 ^ (low + 1) = 2 * (256 ^ low * 128) := by
    rw [Nat.pow_succ]
    omega
  rw [show p + (low + 1) - 1 = p + low by omega, signBit_iff, load_add, load_one, pow]
  by_cases high : 128 ≤ (memory (p + low)).toNat
  · have scaled := Nat.mul_le_mul_left (256 ^ low) high
    exact iff_of_true high (by omega)
  · have scaled := Nat.mul_le_mul_left (256 ^ low)
      (show (memory (p + low)).toNat + 1 ≤ 128 by omega)
    rw [Nat.mul_add] at scaled
    exact iff_of_false high (by omega)

/-- The decoder at a header: it takes the upper half of the header for the number of length
bytes, and the lower half for the number of offset bytes. -/
theorem ntfsDecodeDataRun_eq {memory : ByteMemory} {p lenSize offSize : Nat}
    (header : (memory p).toNat = lenSize * 16 + offSize) (lenSome : 0 < lenSize)
    (lenSmall : lenSize ≤ 8) (offSome : 0 < offSize) (offSmall : offSize ≤ 8) :
    ntfsDecodeDataRun memory p =
      some (⟨(max (TwosComplement.value offSize (load memory offSize (p + 1 + lenSize))) 0).toNat,
        load memory lenSize (p + 1)⟩, p + 1 + lenSize + offSize) := by
  have upper : (memory p).toNat >>> 4 = lenSize := by
    rw [header, Nat.shiftRight_eq_div_pow]
    omega
  have lower : (memory p).toNat &&& 0x0F = offSize := by
    rw [header, show 0x0F = 2 ^ 4 - 1 by rfl, Nat.and_two_pow_sub_one_eq_mod]
    omega
  have notEnd : memory p ≠ 0 := by
    intro zero
    rw [zero] at header
    simp at header
    omega
  unfold ntfsDecodeDataRun
  rw [if_neg notEnd]
  dsimp only
  rw [upper, lower, if_neg (by omega), readField_eq, readField_eq]
  congr 3
  generalize p + 1 + lenSize = place
  have less := load_lt memory offSize place
  have scale : 256 ^ offSize ≤ 2 ^ 64 := Nat.pow_le_pow_right (by omega) offSmall
  have sign := @sign_iff memory place offSize offSome
  unfold TwosComplement.value
  by_cases positive : 2 * load memory offSize place < 256 ^ offSize
  · have same : ¬ (offSize > 0 ∧ memory (place + offSize - 1) &&& 0x80 ≠ 0) :=
      fun neg => absurd positive (sign.mp neg.2)
    rw [if_neg same, if_pos positive, if_neg (by omega)]
    omega
  · have extends' : offSize > 0 ∧ memory (place + offSize - 1) &&& 0x80 ≠ 0 :=
      ⟨offSome, sign.mpr positive⟩
    have neg : (load memory offSize place : Int) < 256 ^ offSize := by exact_mod_cast less
    rw [if_pos extends', if_neg positive, signExtend_eq less offSmall, if_pos (by omega)]
    omega

/-- A run of clusters with the widths that its length and its offset are written in. -/
structure MappingPair where
  length : Nat
  lcn : Nat
  lengthBytes : Nat
  offsetBytes : Nat
deriving DecidableEq, Repr

def MappingPair.run (pair : MappingPair) : DataRun := ⟨pair.lcn, pair.length⟩

/-- The offset of a run from the start of the one before it. -/
def MappingPair.delta (pair : MappingPair) (prevLcn : Nat) : Int := (pair.lcn : Int) - prevLcn

/-- The widths hold the length and the offset. -/
structure MappingPair.Legal (pair : MappingPair) (prevLcn : Nat) : Prop where
  lengthSome : 0 < pair.lengthBytes
  lengthBytes_le : pair.lengthBytes ≤ 8
  offsetSome : 0 < pair.offsetBytes
  offsetBytes_le : pair.offsetBytes ≤ 8
  lcn_lt : pair.lcn < 2 ^ 64
  length_lt : pair.length < 256 ^ pair.lengthBytes
  delta_fits : TwosComplement.Fits pair.offsetBytes (pair.delta prevLcn)

/-- The word of the offset. -/
def MappingPair.offsetWord (pair : MappingPair) (prevLcn : Nat) : Nat :=
  TwosComplement.word pair.offsetBytes (pair.delta prevLcn)

/-- One pair: the numbers of length bytes and offset bytes in the lower and the upper half of
the header, the length, the offset. -/
def MappingPair.encode (pair : MappingPair) (prevLcn : Nat) : List UInt8 :=
  UInt8.ofNat (pair.offsetBytes * 16 + pair.lengthBytes) ::
    (encodeLE pair.lengthBytes pair.length ++ encodeLE pair.offsetBytes (pair.offsetWord prevLcn))

def Legal : Nat → List MappingPair → Prop
  | _, [] => True
  | prevLcn, pair :: pairs => pair.Legal prevLcn ∧ Legal pair.lcn pairs

/-- A run list behind a run that starts at `prevLcn`. -/
def encode : Nat → List MappingPair → List UInt8
  | _, [] => [0]
  | prevLcn, pair :: pairs => pair.encode prevLcn ++ encode pair.lcn pairs

/-- The decoder takes its fields with the widths exchanged: the length is right if it has room in
as many bytes as the offset, or if the bytes of the offset that are taken to it are zero. -/
def MappingPair.Readable (pair : MappingPair) (prevLcn : Nat) : Prop :=
  if pair.offsetBytes < pair.lengthBytes then pair.length < 256 ^ pair.offsetBytes
  else (256 : Int) ^ (pair.offsetBytes - pair.lengthBytes) ∣ pair.delta prevLcn

instance (pair : MappingPair) (prevLcn : Nat) : Decidable (pair.Readable prevLcn) :=
  inferInstanceAs (Decidable (if pair.offsetBytes < pair.lengthBytes then
      pair.length < 256 ^ pair.offsetBytes
    else (256 : Int) ^ (pair.offsetBytes - pair.lengthBytes) ∣ pair.delta prevLcn))

/-- The offset that is left behind a length that is right. -/
def MappingPair.shiftedDelta (pair : MappingPair) (prevLcn : Nat) : Int :=
  if pair.offsetBytes < pair.lengthBytes then
    256 ^ (pair.lengthBytes - pair.offsetBytes) * pair.delta prevLcn
  else pair.delta prevLcn / 256 ^ (pair.offsetBytes - pair.lengthBytes)

/-- The runs are those of the pairs although offsets are added to the end of the run before, and
negative ones are dropped: every length is right, and behind a run of `prevLength` clusters the
offset that is left adds up to the one that is meant. -/
def Decodable : Nat → Nat → List MappingPair → Prop
  | _, _, [] => True
  | prevLcn, prevLength, pair :: pairs =>
      pair.Readable prevLcn ∧
        (2 ^ 64 : Int) ∣ prevLength + max (pair.shiftedDelta prevLcn) 0 - pair.delta prevLcn ∧
        Decodable pair.lcn pair.length pairs

section Pair

variable {pair : MappingPair} {prevLcn : Nat}

theorem MappingPair.encode_length (pair : MappingPair) (prevLcn : Nat) :
    (pair.encode prevLcn).length = 1 + (pair.lengthBytes + pair.offsetBytes) := by
  simp only [encode, length_cons, length_append, encodeLE_length]
  omega

theorem MappingPair.offsetWord_lt (pair : MappingPair) (prevLcn : Nat) :
    pair.offsetWord prevLcn < 256 ^ pair.offsetBytes :=
  TwosComplement.word_lt pair.offsetBytes (pair.delta prevLcn)

theorem MappingPair.Legal.fields (legal : pair.Legal prevLcn) {memory : ByteMemory} {p : Nat}
    (held : memory.read p (pair.encode prevLcn).length = pair.encode prevLcn) :
    (memory p).toNat = pair.offsetBytes * 16 + pair.lengthBytes ∧
      load memory (pair.lengthBytes + pair.offsetBytes) (p + 1) =
        pair.length + 256 ^ pair.lengthBytes * pair.offsetWord prevLcn := by
  obtain ⟨_, lengthBytes_le, _, offsetBytes_le, _, length_lt, _⟩ := legal
  rw [encode_length, read_append, encode] at held
  have one : memory.read p 1 = [memory p] := by simp [ByteMemory.read]
  rw [one, singleton_append] at held
  obtain ⟨header, fields⟩ := List.cons.inj held
  constructor
  · rw [header, UInt8.toNat_ofNat']
    omega
  · rw [load, fields, decodeLE_append, decodeLE_encodeLE, decodeLE_encodeLE, encodeLE_length,
      Nat.mod_eq_of_lt length_lt, Nat.mod_eq_of_lt (pair.offsetWord_lt prevLcn)]

theorem MappingPair.Legal.split (legal : pair.Legal prevLcn) {memory : ByteMemory} {p : Nat}
    (held : memory.read p (pair.encode prevLcn).length = pair.encode prevLcn) :
    load memory pair.offsetBytes (p + 1) +
        256 ^ pair.offsetBytes * load memory pair.lengthBytes (p + 1 + pair.offsetBytes) =
      pair.length + 256 ^ pair.lengthBytes * pair.offsetWord prevLcn := by
  rw [← (legal.fields held).2, Nat.add_comm pair.lengthBytes, load_add]

theorem cut_unique {scale low low' high high' : Nat} (less : low < scale) (less' : low' < scale)
    (same : low + scale * high = low' + scale * high') : low = low' ∧ high = high' := by
  have lows := congrArg (· % scale) same
  have highs := congrArg (· / scale) same
  simp only [Nat.add_mul_mod_self_left, Nat.mod_eq_of_lt less, Nat.mod_eq_of_lt less'] at lows
  simp only [Nat.add_mul_div_left _ _ (Nat.zero_lt_of_lt less), Nat.div_eq_of_lt less,
    Nat.div_eq_of_lt less', Nat.zero_add] at highs
  exact ⟨lows, highs⟩

/-- The length that is found is right exactly for the pairs that are readable, and then the
offset that is found is the shifted one. -/
theorem MappingPair.Legal.found (legal : pair.Legal prevLcn) {length offset : Nat}
    (length_lt : length < 256 ^ pair.offsetBytes)
    (split : length + 256 ^ pair.offsetBytes * offset =
      pair.length + 256 ^ pair.lengthBytes * pair.offsetWord prevLcn) :
    (length = pair.length ↔ pair.Readable prevLcn) ∧
      (pair.Readable prevLcn →
        TwosComplement.value pair.lengthBytes offset = pair.shiftedDelta prevLcn) := by
  have meant : TwosComplement.value pair.offsetBytes (pair.offsetWord prevLcn) =
      pair.delta prevLcn := TwosComplement.value_word legal.delta_fits
  have room := legal.length_lt
  unfold Readable shiftedDelta
  by_cases narrow : pair.offsetBytes < pair.lengthBytes
  · obtain ⟨low, more⟩ : ∃ low, pair.lengthBytes = pair.offsetBytes + low :=
      ⟨pair.lengthBytes - pair.offsetBytes, by omega⟩
    have excess : pair.lengthBytes - pair.offsetBytes = low := by omega
    rw [if_pos narrow, if_pos narrow, excess]
    rw [more, Nat.pow_add, Nat.mul_assoc] at split
    refine ⟨⟨fun same => same ▸ length_lt, fun small => (cut_unique length_lt small split).1⟩, ?_⟩
    intro small
    rw [(cut_unique length_lt small split).2, more, TwosComplement.value_shift, meant]
  · obtain ⟨low, more⟩ : ∃ low, pair.offsetBytes = pair.lengthBytes + low :=
      ⟨pair.offsetBytes - pair.lengthBytes, by omega⟩
    have excess : pair.offsetBytes - pair.lengthBytes = low := by omega
    have wide : 256 ^ pair.lengthBytes ≤ 256 ^ pair.offsetBytes :=
      Nat.pow_le_pow_right (by omega) (by omega)
    rw [if_neg narrow, if_neg narrow, excess]
    have divides := TwosComplement.dvd_word (show low ≤ pair.offsetBytes by omega)
      (pair.delta prevLcn)
    rw [← MappingPair.offsetWord] at divides
    -- with its low bytes zero, the offset is cut where the decoder cuts it
    have found : (256 : Int) ^ low ∣ pair.delta prevLcn → length = pair.length ∧
        pair.offsetWord prevLcn = 256 ^ low * offset := by
      intro zeros
      obtain ⟨high, shape⟩ := divides.mpr zeros
      have cut := split
      rw [shape, ← Nat.mul_assoc, ← Nat.pow_add, ← more] at cut
      obtain ⟨lows, highs⟩ := cut_unique length_lt (by omega) cut
      exact ⟨lows, by rw [highs, shape]⟩
    refine ⟨⟨?_, fun zeros => (found zeros).1⟩, ?_⟩
    · intro same
      rw [same, more, Nat.pow_add, Nat.mul_assoc] at split
      refine divides.mp ⟨offset, ?_⟩
      exact (Nat.eq_of_mul_eq_mul_left (Nat.pow_pos (by omega)) (Nat.add_left_cancel split)).symm
    · intro zeros
      rw [(found zeros).2, more, TwosComplement.value_shift] at meant
      rw [← meant, Int.mul_ediv_cancel_left _ (by positivity)]

end Pair

end MinNT.Ntfs
