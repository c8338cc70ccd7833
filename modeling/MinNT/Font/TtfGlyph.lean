import MinNT.Font.TtfCmap

namespace MinNT.Font

open List ByteMemory

/-- The conversion of an `int` to a `SHORT`. -/
def toShort (value : Int) : Int := (value + 0x8000) % 0x10000 - 0x8000

/-- What `TtfReadSimpleGlyph` hands out: the points, with the integers that their coordinates
are converted from, and the last point of each contour. -/
structure SimpleGlyph where
  points : List (Int × Int)
  contoursEnd : List Nat
  numContours : Nat
deriving DecidableEq, Repr

/-- The status of a failed allocation, as the source spells it. -/
def statusNoMemorySpelled : NtStatus := 0x0C000017#32

/-- The loop over the flags: a flag that repeats stands for as many more points as the next byte
says. Every turn adds a flag, so that `numPoints` turns are enough. -/
def readFlags (data : ByteMemory) (numPoints : Nat) :
    Nat → Nat → List UInt8 → List UInt8 × Nat
  | 0, p, flags => (flags, p)
  | turns + 1, p, flags =>
      if ¬ flags.length < numPoints then (flags, p)
      else
        let f := data p
        let p := p + 1
        let flags := flags ++ [f]
        if f &&& 0x08 ≠ 0 then
          let rep := (data p).toNat
          let p := p + 1
          readFlags data numPoints turns p
            (flags ++ replicate (min rep (numPoints - flags.length)) f)
        else readFlags data numPoints turns p flags

/-- The loops over the coordinates of one axis; `short` and `same` are its bits in a flag. -/
def readAxis (data : ByteMemory) (short same : UInt8) : List UInt8 → Nat → Int → List Int × Nat
  | [], p, _ => ([], p)
  | f :: flags, p, cur =>
      if f &&& short ≠ 0 then
        let d : Int := (data p).toNat
        let cur := toShort (cur + if f &&& same ≠ 0 then d else -d)
        let rest := readAxis data short same flags (p + 1) cur
        (cur :: rest.1, rest.2)
      else if f &&& same = 0 then
        let cur := toShort (cur + be16s data p)
        let rest := readAxis data short same flags (p + 2) cur
        (cur :: rest.1, rest.2)
      else
        let rest := readAxis data short same flags p cur
        (cur :: rest.1, rest.2)

/-- `TtfReadSimpleGlyph`; `allocates` says which of its five allocations succeed. The second
result is where the reads of the coordinates end. -/
def ttfReadSimpleGlyph (allocates : Nat → Bool) (data : ByteMemory) (glyphData : Nat) :
    Except NtStatus (SimpleGlyph × Nat) :=
  let ncont := be16s data glyphData
  if ncont ≤ 0 then .error statusInvalidImageFormat
  else
    let ncont := ncont.toNat
    let endPtsBase := glyphData + 10
    let p := endPtsBase + ncont * 2
    let numPoints := (be16 data (endPtsBase + (ncont - 1) * 2) + 1) % 0x10000
    let instLen := be16 data p
    let p := p + (2 + instLen)
    if ¬ allocates 0 then .error statusNoMemorySpelled
    else
      let (flags, p) := readFlags data numPoints numPoints p []
      if ¬ allocates 1 ∨ ¬ allocates 2 then .error statusNoMemorySpelled
      else
        let (xs, p) := readAxis data 0x02 0x10 flags p 0
        let (ys, p) := readAxis data 0x04 0x20 flags p 0
        if ¬ allocates 3 then .error statusNoMemorySpelled
        else if ¬ allocates 4 then .error statusNoMemorySpelled
        else
          .ok (⟨xs.zip ys, (range ncont).map fun c => be16 data (endPtsBase + c * 2), ncont⟩,
            p)

theorem readFlags_length (data : ByteMemory) {numPoints turns p : Nat} {flags : List UInt8}
    (room : flags.length ≤ numPoints) (enough : numPoints ≤ flags.length + turns) :
    (readFlags data numPoints turns p flags).1.length = numPoints := by
  induction turns generalizing p flags with
  | zero => exact Nat.le_antisymm room enough
  | succ turns ih =>
    rw [readFlags]
    by_cases left : flags.length < numPoints
    · rw [if_neg (not_not.mpr left)]
      dsimp only
      split
      · refine ih ?_ ?_
        · rw [length_append, length_append, length_replicate, length_singleton]
          omega
        · rw [length_append, length_append, length_singleton]
          omega
      · refine ih ?_ ?_
        · rw [length_append, length_singleton]
          omega
        · rw [length_append, length_singleton]
          omega
    · rw [if_pos left]
      exact Nat.le_antisymm room (Nat.not_lt.mp left)

/-- A 16-bit number, high byte first. -/
def word16 (value : Nat) : List UInt8 := [UInt8.ofNat (value / 256), UInt8.ofNat value]

/-- The flags of the points in bytes: a flag with bit 3 clear stands for one point, one with bit
3 set has the number of its repetitions behind it. -/
inductive FlagCode : List UInt8 → List UInt8 → Prop
  | nil : FlagCode [] []
  | single (f : UInt8) {flags bytes : List UInt8} (once : f &&& 0x08 = 0)
      (rest : FlagCode flags bytes) : FlagCode (f :: flags) (f :: bytes)
  | repeated (f count : UInt8) {flags bytes : List UInt8} (more : f &&& 0x08 ≠ 0)
      (rest : FlagCode flags bytes) :
      FlagCode (f :: (replicate count.toNat f ++ flags)) (f :: count :: bytes)

/-- The coordinates of the points on one axis in bytes, behind a point at `prev`. The bits of each
flag say whether its difference is one byte, with its sign, two bytes, or none. Differences count
modulo 2^16. -/
inductive AxisCode (short same : UInt8) : Int → List (UInt8 × Int) → List UInt8 → Prop
  | nil (prev : Int) : AxisCode short same prev [] []
  | positive {prev value : Int} {f : UInt8} (d : UInt8) {items : List (UInt8 × Int)}
      {bytes : List UInt8} (isShort : f &&& short ≠ 0) (isPositive : f &&& same ≠ 0)
      (difference : (0x10000 : Int) ∣ value - (prev + d.toNat))
      (rest : AxisCode short same value items bytes) :
      AxisCode short same prev ((f, value) :: items) (d :: bytes)
  | negative {prev value : Int} {f : UInt8} (d : UInt8) {items : List (UInt8 × Int)}
      {bytes : List UInt8} (isShort : f &&& short ≠ 0) (isNegative : f &&& same = 0)
      (difference : (0x10000 : Int) ∣ value - (prev - d.toNat))
      (rest : AxisCode short same value items bytes) :
      AxisCode short same prev ((f, value) :: items) (d :: bytes)
  | same {prev : Int} {f : UInt8} {items : List (UInt8 × Int)} {bytes : List UInt8}
      (notShort : f &&& short = 0) (isSame : f &&& same ≠ 0)
      (rest : AxisCode short same prev items bytes) :
      AxisCode short same prev ((f, prev) :: items) bytes
  | word {prev value : Int} {f : UInt8} (difference : Nat) {items : List (UInt8 × Int)}
      {bytes : List UInt8} (notShort : f &&& short = 0) (notSame : f &&& same = 0)
      (difference_eq : (0x10000 : Int) ∣ value - (prev + difference))
      (rest : AxisCode short same value items bytes) :
      AxisCode short same prev ((f, value) :: items) (word16 difference ++ bytes)

/-- A coordinate. -/
def IsShort (value : Int) : Prop := -0x8000 ≤ value ∧ value < 0x8000

/-- A simple glyph: contours, bounding box, instructions, and the points in three streams. -/
structure GlyphCode (points : List (Int × Int)) (contours : List Nat) (bytes : List UInt8) :
    Prop where
  coordinates : ∀ point ∈ points, IsShort point.1 ∧ IsShort point.2
  points_ne : points ≠ []
  points_le : points.length ≤ 65535
  contours_ne : contours ≠ []
  contours_lt : contours.length < 0x8000
  ordered : contours.Pairwise (· < ·)
  last : contours.getLast? = some (points.length - 1)
  layout : ∃ box instructions flags flagBytes xBytes yBytes : List UInt8,
    bytes = word16 contours.length ++ (box ++ (contours.flatMap word16 ++
      (word16 instructions.length ++ (instructions ++ (flagBytes ++ (xBytes ++ yBytes)))))) ∧
    box.length = 8 ∧ instructions.length < 0x10000 ∧ flags.length = points.length ∧
    FlagCode flags flagBytes ∧
    AxisCode 0x02 0x10 0 (flags.zip (points.map Prod.fst)) xBytes ∧
    AxisCode 0x04 0x20 0 (flags.zip (points.map Prod.snd)) yBytes

variable {data : ByteMemory} {p : Nat}

theorem be16_word16 {value : Nat} (small : value < 0x10000)
    (held : data.read p (word16 value).length = word16 value) : be16 data p = value := by
  obtain ⟨high, rest⟩ := read_eq_cons held
  obtain ⟨low, _⟩ := read_eq_cons rest
  rw [be16, high, low, UInt8.toNat_ofNat', UInt8.toNat_ofNat']
  omega

theorem toShort_eq {value sum : Int} (short : IsShort value)
    (same : (0x10000 : Int) ∣ value - sum) : toShort sum = value := by
  unfold IsShort at short
  unfold toShort
  omega

/-- The flags are read back from their code. -/
theorem FlagCode.read {numPoints turns : Nat} {flags bytes done : List UInt8}
    (code : FlagCode flags bytes) (held : data.read p bytes.length = bytes)
    (all : done.length + flags.length = numPoints) (enough : flags.length ≤ turns) :
    readFlags data numPoints turns p done = (done ++ flags, p + bytes.length) := by
  induction code generalizing p turns done with
  | nil =>
    rw [append_nil, length_nil, Nat.add_zero]
    cases turns with
    | zero => rfl
    | succ turns =>
      have full : ¬ done.length < numPoints := by
        rw [length_nil] at all
        omega
      rw [readFlags, if_pos full]
  | @single f flags bytes once rest ih =>
    obtain ⟨first, later⟩ := read_eq_cons held
    rw [length_cons] at all enough
    obtain ⟨turns, rfl⟩ : ∃ less, turns = less + 1 := ⟨turns - 1, by omega⟩
    have next : readFlags data numPoints turns (p + 1) (done ++ [f]) =
        (done ++ [f] ++ flags, p + 1 + bytes.length) :=
      ih later (by rw [length_append, length_singleton]; omega) (by omega)
    rw [readFlags, if_neg (by omega)]
    dsimp only
    rw [first, if_neg (not_not.mpr once), next, append_assoc, singleton_append, length_cons]
    congr 1
    omega
  | @repeated f count flags bytes more rest ih =>
    obtain ⟨first, later⟩ := read_eq_cons held
    obtain ⟨second, later⟩ := read_eq_cons later
    rw [length_cons, length_append, length_replicate] at all enough
    obtain ⟨turns, rfl⟩ : ∃ less, turns = less + 1 := ⟨turns - 1, by omega⟩
    have longer : (done ++ [f] ++ replicate count.toNat f).length + flags.length =
        numPoints := by
      rw [length_append, length_append, length_singleton, length_replicate]
      omega
    have next : readFlags data numPoints turns (p + 1 + 1)
        (done ++ [f] ++ replicate count.toNat f) =
        (done ++ [f] ++ replicate count.toNat f ++ flags, p + 1 + 1 + bytes.length) :=
      ih later longer (by omega)
    have room : min count.toNat (numPoints - (done ++ [f]).length) = count.toNat := by
      rw [length_append, length_singleton]
      omega
    rw [readFlags, if_neg (by omega)]
    dsimp only
    rw [first, if_pos more, second, room, next]
    refine Prod.ext ?_ ?_
    · simp only [append_assoc, cons_append, nil_append]
    · simp only [length_cons]
      omega

/-- The coordinates are read back from theirs. -/
theorem AxisCode.read {short same : UInt8} {prev : Int} {items : List (UInt8 × Int)}
    {bytes : List UInt8} (code : AxisCode short same prev items bytes)
    (held : data.read p bytes.length = bytes) (shorts : ∀ item ∈ items, IsShort item.2) :
    readAxis data short same (items.map Prod.fst) p prev =
      (items.map Prod.snd, p + bytes.length) := by
  induction code generalizing p with
  | nil prev => rfl
  | @positive prev value f d items bytes isShort isPositive difference rest ih =>
    obtain ⟨first, later⟩ := read_eq_cons held
    rw [forall_mem_cons] at shorts
    have next := ih later shorts.2
    rw [map_cons, readAxis, if_pos isShort]
    dsimp only
    rw [first, if_pos isPositive, toShort_eq shorts.1 difference, next, map_cons,
      length_cons, Nat.add_assoc, Nat.add_comm 1]
  | @negative prev value f d items bytes isShort isNegative difference rest ih =>
    obtain ⟨first, later⟩ := read_eq_cons held
    rw [forall_mem_cons] at shorts
    have next := ih later shorts.2
    have sum : prev + -(d.toNat : Int) = prev - d.toNat := rfl
    rw [map_cons, readAxis, if_pos isShort]
    dsimp only
    rw [first, if_neg (not_not.mpr isNegative), sum, toShort_eq shorts.1 difference, next,
      map_cons, length_cons, Nat.add_assoc, Nat.add_comm 1]
  | @same prev f items bytes notShort isSame rest ih =>
    rw [forall_mem_cons] at shorts
    have next := ih held shorts.2
    rw [map_cons, readAxis, if_neg (not_not.mpr notShort), if_neg isSame]
    dsimp only
    rw [next, map_cons]
  | @word prev value f difference items bytes notShort notSame difference_eq rest ih =>
    obtain ⟨here, later⟩ := read_eq_append held
    rw [forall_mem_cons] at shorts
    have next := ih later shorts.2
    have read : (0x10000 : Int) ∣ value - (prev + be16s data p) := by
      obtain ⟨high, low⟩ := read_eq_cons here
      obtain ⟨low, _⟩ := read_eq_cons low
      rw [be16s, be16, high, low, UInt8.toNat_ofNat', UInt8.toNat_ofNat', Font.short]
      split <;> omega
    rw [map_cons, readAxis, if_neg (not_not.mpr notShort), if_pos notSame]
    dsimp only
    rw [toShort_eq shorts.1 read, length_append, ← Nat.add_assoc]
    have two : (word16 difference).length = 2 := rfl
    rw [two] at next ⊢
    rw [next, map_cons]

/-- The contour ends are read back. -/
theorem contours_read {contours : List Nat} (small : ∀ last ∈ contours, last < 0x10000)
    (held : data.read p (contours.flatMap word16).length = contours.flatMap word16) {c : Nat}
    (inside : c < contours.length) : be16 data (p + c * 2) = contours[c] := by
  induction contours generalizing p c with
  | nil => exact absurd inside (Nat.not_lt_zero c)
  | cons first contours ih =>
    rw [forall_mem_cons] at small
    rw [flatMap_cons] at held
    obtain ⟨here, later⟩ := read_eq_append held
    cases c with
    | zero =>
      rw [Nat.zero_mul, getElem_cons_zero]
      exact be16_word16 small.1 here
    | succ c =>
      have next := ih small.2 later (Nat.lt_of_succ_lt_succ inside)
      have place : p + (c + 1) * 2 = p + (word16 first).length + c * 2 := by
        rw [show (word16 first).length = 2 by rfl]
        omega
      rw [place, next, getElem_cons_succ]

section Code

variable {points : List (Int × Int)} {contours : List Nat} {bytes : List UInt8}

section Code

variable (code : GlyphCode points contours bytes)
include code

theorem GlyphCode.contours_pos : 0 < contours.length :=
  length_pos_iff.mpr code.contours_ne

theorem GlyphCode.lastContour (within : contours.length - 1 < contours.length) :
    contours[contours.length - 1] = points.length - 1 := by
  have last := code.last
  rw [getLast?_eq_getElem?, getElem?_eq_getElem within] at last
  exact Option.some.inj last

theorem GlyphCode.contour_lt {last : Nat} (member : last ∈ contours) : last < points.length := by
  have somePoints : 0 < points.length := length_pos_iff.mpr code.points_ne
  obtain ⟨c, inside, rfl⟩ := mem_iff_getElem.mp member
  rcases Nat.eq_or_lt_of_le (Nat.le_sub_one_of_lt inside) with same | before
  · have final := code.lastContour (Nat.sub_lt code.contours_pos Nat.one_pos)
    simp only [← same] at final
    omega
  · have less := pairwise_iff_getElem.mp code.ordered c (contours.length - 1) inside
      (Nat.sub_lt code.contours_pos Nat.one_pos) before
    rw [code.lastContour] at less
    omega

end Code

/-- Of every simple glyph in any of its encodings, the decoder hands out exactly the points, and
its reads end where the encoding ends. -/
theorem ttfReadSimpleGlyph_code (code : GlyphCode points contours bytes) {glyphData : Nat}
    (held : data.read glyphData bytes.length = bytes) {allocates : Nat → Bool}
    (memory : ∀ allocation, allocates allocation = true) :
    ttfReadSimpleGlyph allocates data glyphData =
      .ok (⟨points, contours, contours.length⟩, glyphData + bytes.length) := by
  obtain ⟨box, instructions, flags, flagBytes, xBytes, yBytes, rfl, eight, fewInstructions,
    sameCount, flagCode, xCode, yCode⟩ := code.layout
  have somePoints : 0 < points.length := length_pos_iff.mpr code.points_ne
  have fewPoints := code.points_le
  have someContours := code.contours_pos
  have fewContours := code.contours_lt
  have two : ∀ value, (word16 value).length = 2 := fun _ => rfl
  have contourBytes : (contours.flatMap word16).length = contours.length * 2 := by
    rw [length_flatMap, map_congr_left (fun last _ => two last), map_const', sum_replicate_nat]
  obtain ⟨countHeld, held⟩ := read_eq_append held
  obtain ⟨_, held⟩ := read_eq_append held
  obtain ⟨contoursHeld, held⟩ := read_eq_append held
  obtain ⟨lengthHeld, held⟩ := read_eq_append held
  obtain ⟨_, held⟩ := read_eq_append held
  obtain ⟨flagsHeld, held⟩ := read_eq_append held
  obtain ⟨xsHeld, ysHeld⟩ := read_eq_append held
  have base : glyphData + (word16 contours.length).length + box.length = glyphData + 10 := by
    rw [two, eight]
  rw [base] at contoursHeld lengthHeld flagsHeld xsHeld ysHeld
  rw [contourBytes] at lengthHeld flagsHeld xsHeld ysHeld
  have streams : glyphData + 10 + contours.length * 2 + (word16 instructions.length).length +
      instructions.length = glyphData + 10 + contours.length * 2 + (2 + instructions.length) := by
    rw [two, Nat.add_assoc]
  rw [streams] at flagsHeld xsHeld ysHeld
  -- the numbers that the decoder takes from the front
  have ncont : be16s data glyphData = contours.length := by
    rw [be16s, be16_word16 (by omega) countHeld, short, if_pos fewContours]
  have small : ∀ last ∈ contours, last < 0x10000 := by
    intro last member
    have less := code.contour_lt member
    omega
  have contoursEnd : ((range contours.length).map fun c =>
      be16 data (glyphData + 10 + c * 2)) = contours := by
    refine ext_getElem (by simp) fun c _ inside => ?_
    rw [getElem_map, getElem_range, contours_read small contoursHeld inside]
  have numPoints : (be16 data (glyphData + 10 + (contours.length - 1) * 2) + 1) % 0x10000 =
      points.length := by
    rw [contours_read small contoursHeld (Nat.sub_lt someContours Nat.one_pos), code.lastContour]
    omega
  have instLen : be16 data (glyphData + 10 + contours.length * 2) = instructions.length :=
    be16_word16 fewInstructions lengthHeld
  -- the three streams
  have flagsRead : readFlags data points.length points.length
      (glyphData + 10 + contours.length * 2 + (2 + instructions.length)) [] =
      ([] ++ flags, _) :=
    flagCode.read flagsHeld (by rw [length_nil, Nat.zero_add, sameCount]) (Nat.le_of_eq sameCount)
  rw [nil_append] at flagsRead
  have shorts := code.coordinates
  have xsRead := xCode.read xsHeld (by
    intro item member
    obtain ⟨point, inside, same⟩ := List.mem_map.mp (of_mem_zip member).2
    rw [← same]
    exact (shorts point inside).1)
  have ysRead := yCode.read ysHeld (by
    intro item member
    obtain ⟨point, inside, same⟩ := List.mem_map.mp (of_mem_zip member).2
    rw [← same]
    exact (shorts point inside).2)
  have pair : (points.map Prod.fst).zip (points.map Prod.snd) = points := by
    rw [zip_map']
    exact map_id points
  have xsCount : flags.length = (points.map Prod.fst).length := by
    rw [length_map, sameCount]
  have ysCount : flags.length = (points.map Prod.snd).length := by
    rw [length_map, sameCount]
  rw [map_fst_zip (Nat.le_of_eq xsCount), map_snd_zip (Nat.le_of_eq xsCount.symm)] at xsRead
  rw [map_fst_zip (Nat.le_of_eq ysCount), map_snd_zip (Nat.le_of_eq ysCount.symm)] at ysRead
  have blocks : ¬ (¬ allocates 1 = true ∨ ¬ allocates 2 = true) := by simp [memory]
  have ends : glyphData + 10 + contours.length * 2 + (2 + instructions.length) +
      flagBytes.length + xBytes.length + yBytes.length = glyphData + (word16 contours.length ++
        (box ++ (contours.flatMap word16 ++ (word16 instructions.length ++
          (instructions ++ (flagBytes ++ (xBytes ++ yBytes))))))).length := by
    simp only [length_append, two, eight, contourBytes]
    omega
  unfold ttfReadSimpleGlyph
  dsimp only
  rw [ncont, if_neg (by omega), Int.toNat_natCast, numPoints, instLen,
    if_neg (not_not.mpr (memory 0)), flagsRead]
  dsimp only
  rw [if_neg blocks, xsRead]
  dsimp only
  rw [ysRead]
  dsimp only
  rw [if_neg (not_not.mpr (memory 3)), if_neg (not_not.mpr (memory 4)), contoursEnd, pair, ends]

/-- Three points in one contour: a repeated flag, one-byte differences of both signs, a two-byte
difference and one that is left out. -/
def sampleGlyph : List UInt8 :=
  word16 1 ++ (replicate 8 0 ++ ([2].flatMap word16 ++ (word16 1 ++ ([0xAB] ++
    ([0x3A, 1, 0x02] ++ ([5, 5, 1] ++ [1, 44]))))))

/-- The sample comes out as its three points. -/
theorem ttfReadSimpleGlyph_code_sample :
    ttfReadSimpleGlyph (fun _ => true) (fun index => sampleGlyph.getD index 0) 0 =
      .ok (⟨[(5, 0), (10, 0), (9, 300)], [2], 1⟩, 23) := by
  have flagCode : FlagCode [0x3A, 0x3A, 0x02] [0x3A, 1, 0x02] :=
    .repeated 0x3A 1 (by decide) (.single 0x02 (by decide) .nil)
  have xCode : AxisCode 0x02 0x10 0 [(0x3A, 5), (0x3A, 10), (0x02, 9)] [5, 5, 1] :=
    .positive 5 (by decide) (by decide) (by decide) (.positive 5 (by decide) (by decide)
      (by decide) (.negative 1 (by decide) (by decide) (by decide) (.nil 9)))
  have yCode : AxisCode 0x04 0x20 0 [(0x3A, 0), (0x3A, 0), (0x02, 300)] [1, 44] :=
    .same (by decide) (by decide) (.same (by decide) (by decide)
      (.word 300 (by decide) (by decide) (by decide) (.nil 300)))
  have coordinates : ∀ point ∈ ([(5, 0), (10, 0), (9, 300)] : List (Int × Int)),
      IsShort point.1 ∧ IsShort point.2 := by
    unfold IsShort
    decide
  have code : GlyphCode [(5, 0), (10, 0), (9, 300)] [2] sampleGlyph :=
    ⟨coordinates, by decide, by decide, by decide, by decide, by decide, rfl,
      replicate 8 0, [0xAB], [0x3A, 0x3A, 0x02], [0x3A, 1, 0x02], [5, 5, 1], [1, 44], rfl,
      rfl, by decide, rfl, flagCode, xCode, yCode⟩
  exact ttfReadSimpleGlyph_code code (by decide) (fun _ => rfl)

end Code

end MinNT.Font
