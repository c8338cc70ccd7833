import MinNT.Font.TtfGlyph

namespace MinNT.Font

open List

inductive BlockContents where
  | flags (values : List UInt8)
  | coordinates (values : List Int)
  | points (values : List (Int × Int))
  | contoursEnd (values : List Nat)
deriving DecidableEq, Repr

/-- A block of the pool that `TtfReadSimpleGlyph` has allocated: by which of its allocations, where
and with what in it. -/
structure GlyphBlock where
  number : Nat
  address : Nat
  contents : BlockContents
deriving DecidableEq, Repr

/-- `ExAllocatePool` with what the pool would give. It gives nothing for no bytes. -/
def exAllocatePool (gives : Option Nat) (size : Nat) : Option Nat :=
  if size = 0 then none else gives

/-- `ExFreePool` of the block of an allocation. -/
def exFreePool (number : Nat) (live : List GlyphBlock) : List GlyphBlock :=
  live.filter fun block => block.number ≠ number

/-- What `TtfRasterizeGlyph` has after the call: the status, its `pts`, `cend` and `nc`, and the
blocks that are allocated. -/
structure GlyphOutcome where
  status : NtStatus
  pts : Nat
  cend : Nat
  nc : Nat
  live : List GlyphBlock
deriving DecidableEq, Repr

/-- A return that sets none of the caller's variables. -/
def glyphFails (status : NtStatus) (live : List GlyphBlock) : GlyphOutcome :=
  ⟨status, 0, 0, 0, live⟩

/-- `TtfReadSimpleGlyph` as `TtfRasterizeGlyph` calls it; `gives` is the pool. The caller passes the
address of its pointer `cend` where that of a `USHORT` is asked for, so that the assignment stores
the low 16 bits of the pointer, over a null pointer. -/
def ttfReadSimpleGlyphOut (gives : Nat → Option Nat) (data : ByteMemory) (glyphData : Nat) :
    GlyphOutcome :=
  let ncont := be16s data glyphData
  if ncont ≤ 0 then glyphFails statusInvalidImageFormat []
  else
    let ncont := ncont.toNat
    let endPtsBase := glyphData + 10
    let p := endPtsBase + ncont * 2
    let numPoints := (be16 data (endPtsBase + (ncont - 1) * 2) + 1) % 0x10000
    let instLen := be16 data p
    let p := p + (2 + instLen)
    match exAllocatePool (gives 0) numPoints with
    | none => glyphFails statusNoMemorySpelled []
    | some flagsAt =>
        let (flags, p) := readFlags data numPoints numPoints p []
        let live := [⟨0, flagsAt, .flags flags⟩]
        match exAllocatePool (gives 1) (numPoints * 2),
          exAllocatePool (gives 2) (numPoints * 2) with
        | some xsAt, some ysAt =>
            let (xs, p) := readAxis data 0x02 0x10 flags p 0
            let (ys, _) := readAxis data 0x04 0x20 flags p 0
            let live := ⟨1, xsAt, .coordinates xs⟩ :: ⟨2, ysAt, .coordinates ys⟩ :: live
            match exAllocatePool (gives 3) (numPoints * 8) with
            | none =>
                glyphFails statusNoMemorySpelled (exFreePool 2 (exFreePool 1 (exFreePool 0 live)))
            | some pts =>
                let live := ⟨3, pts, .points (xs.zip ys)⟩ :: live
                match exAllocatePool (gives 4) (ncont * 2) with
                | none =>
                    glyphFails statusNoMemorySpelled
                      (exFreePool 3 (exFreePool 2 (exFreePool 1 (exFreePool 0 live))))
                | some endout =>
                    let contoursEnd :=
                      (range ncont).map fun c => be16 data (endPtsBase + c * 2)
                    let live := ⟨4, endout, .contoursEnd contoursEnd⟩ :: live
                    ⟨statusSuccess, pts, endout % 2 ^ 16, ncont,
                      exFreePool 2 (exFreePool 1 (exFreePool 0 live))⟩
        | some xsAt, none =>
            glyphFails statusNoMemorySpelled
              (exFreePool 0 (exFreePool 1 (⟨1, xsAt, .coordinates []⟩ :: live)))
        | none, some ysAt =>
            glyphFails statusNoMemorySpelled
              (exFreePool 0 (exFreePool 2 (⟨2, ysAt, .coordinates []⟩ :: live)))
        | none, none => glyphFails statusNoMemorySpelled (exFreePool 0 live)

/-- A pointer designates a block with these contents. -/
def Designates (live : List GlyphBlock) (pointer : Nat) (contents : BlockContents) : Prop :=
  ∃ number, ⟨number, pointer, contents⟩ ∈ live

/-- The caller's pointers designate the decoded points and the contour ends, and the last contour
end is the last point. -/
def Shown (data : ByteMemory) (glyphData : Nat) (outcome : GlyphOutcome) : Prop :=
  ∃ glyph finish, ttfReadSimpleGlyph (fun _ => true) data glyphData = .ok (glyph, finish) ∧
    Designates outcome.live outcome.pts (.points glyph.points) ∧
    Designates outcome.live outcome.cend (.contoursEnd glyph.contoursEnd) ∧
    outcome.nc = glyph.contoursEnd.length ∧
    ∃ last, glyph.contoursEnd[outcome.nc - 1]? = some last ∧ last + 1 = glyph.points.length

/-- With a status that counts as success the glyph is shown; otherwise nothing stays allocated. -/
def Reported (data : ByteMemory) (glyphData : Nat) (outcome : GlyphOutcome) : Prop :=
  if ntSuccess outcome.status then Shown data glyphData outcome else outcome.live = []

/-- Every allocation is made, for one point at least, and the block of the contour ends lies so low
that 16 bits hold its address. -/
def AllGiven (gives : Nat → Option Nat) (data : ByteMemory) (glyphData : Nat) : Prop :=
  be16 data (glyphData + 10 + ((be16s data glyphData).toNat - 1) * 2) ≠ 0xFFFF ∧
    (∀ number, number < 4 → (gives number).isSome = true) ∧
      ∃ endout, gives 4 = some endout ∧ endout < 2 ^ 16

theorem readAxis_length (data : ByteMemory) (short same : UInt8) (flags : List UInt8) (p : Nat)
    (cur : Int) : (readAxis data short same flags p cur).1.length = flags.length := by
  induction flags generalizing p cur with
  | nil => rfl
  | cons f flags ih =>
    rw [readAxis]
    dsimp only
    split
    · rw [length_cons, length_cons, ih]
    · split
      · rw [length_cons, length_cons, ih]
      · rw [length_cons, length_cons, ih]

section Report

variable {gives : Nat → Option Nat} {data : ByteMemory} {glyphData : Nat}

theorem exAllocatePool_of_pos {gives : Option Nat} {size : Nat} (some : 0 < size) :
    exAllocatePool gives size = gives :=
  if_neg (Nat.ne_of_gt some)

/-- The number of points as the source computes it. -/
def numPointsAt (data : ByteMemory) (glyphData : Nat) : Nat :=
  (be16 data (glyphData + 10 + ((be16s data glyphData).toNat - 1) * 2) + 1) % 0x10000

theorem decoded_of_contours (contours : ¬ be16s data glyphData ≤ 0) :
    ∃ glyph finish, ttfReadSimpleGlyph (fun _ => true) data glyphData = .ok (glyph, finish) ∧
      glyph.points.length = numPointsAt data glyphData ∧
      glyph.contoursEnd = (range (be16s data glyphData).toNat).map
        fun c => be16 data (glyphData + 10 + c * 2) := by
  unfold ttfReadSimpleGlyph
  dsimp only
  rw [if_neg contours, if_neg (by decide), if_neg (by decide), if_neg (by decide),
    if_neg (by decide)]
  refine ⟨_, _, rfl, ?_, rfl⟩
  rw [length_zip, readAxis_length, readAxis_length, Nat.min_self]
  exact readFlags_length data (Nat.zero_le _) (by simp)

/-- Everything a call for a glyph with contours can do: without one of its blocks it fails and
keeps none; with all of them it keeps two. -/
theorem ttfReadSimpleGlyphOut_cases (contours : ¬ be16s data glyphData ≤ 0) {glyph : SimpleGlyph}
    {finish : Nat}
    (decoded : ttfReadSimpleGlyph (fun _ => true) data glyphData = .ok (glyph, finish)) :
    (ttfReadSimpleGlyphOut gives data glyphData = glyphFails statusNoMemorySpelled [] ∧
        ¬ (numPointsAt data glyphData ≠ 0 ∧ ∀ number, number < 5 → (gives number).isSome = true)) ∨
      ∃ pts endout, numPointsAt data glyphData ≠ 0 ∧
        (∀ number, number < 4 → (gives number).isSome = true) ∧ gives 4 = some endout ∧
        ttfReadSimpleGlyphOut gives data glyphData =
          ⟨statusSuccess, pts, endout % 2 ^ 16, (be16s data glyphData).toNat,
            [⟨4, endout, .contoursEnd glyph.contoursEnd⟩, ⟨3, pts, .points glyph.points⟩]⟩ := by
  unfold ttfReadSimpleGlyph at decoded
  dsimp only at decoded
  rw [if_neg contours, if_neg (by decide), if_neg (by decide), if_neg (by decide),
    if_neg (by decide)] at decoded
  cases decoded
  have missing : ∀ number, number < 5 → gives number = none →
      ¬ (numPointsAt data glyphData ≠ 0 ∧ ∀ number, number < 5 → (gives number).isSome = true) := by
    rintro number small none ⟨_, all⟩
    have given := all number small
    rw [none] at given
    cases given
  have size : (be16 data (glyphData + 10 + ((be16s data glyphData).toNat - 1) * 2) + 1) % 0x10000 =
      numPointsAt data glyphData := rfl
  rw [size]
  unfold ttfReadSimpleGlyphOut
  dsimp only
  rw [if_neg contours, size]
  by_cases zero : numPointsAt data glyphData = 0
  · left
    rw [exAllocatePool, if_pos zero]
    exact ⟨rfl, fun all => all.1 zero⟩
  · rw [exAllocatePool_of_pos (by omega), exAllocatePool_of_pos (by omega),
      exAllocatePool_of_pos (by omega), exAllocatePool_of_pos (by omega),
      exAllocatePool_of_pos (by omega)]
    cases flagsAt : gives 0 with
    | none => exact .inl ⟨rfl, missing 0 (by decide) flagsAt⟩
    | some flagsAt =>
      cases xsAt : gives 1 with
      | none =>
        left
        cases ysAt : gives 2 with
        | none => exact ⟨rfl, missing 1 (by decide) xsAt⟩
        | some _ => exact ⟨rfl, missing 1 (by decide) xsAt⟩
      | some _ =>
        cases ysAt : gives 2 with
        | none => exact .inl ⟨rfl, missing 2 (by decide) ysAt⟩
        | some _ =>
          cases pts : gives 3 with
          | none => exact .inl ⟨rfl, missing 3 (by decide) pts⟩
          | some _ =>
            cases endout : gives 4 with
            | none => exact .inl ⟨rfl, missing 4 (by decide) endout⟩
            | some _ =>
              refine .inr ⟨_, _, zero, ?_, rfl, rfl⟩
              intro number small
              obtain rfl | rfl | rfl | rfl : number = 0 ∨ number = 1 ∨ number = 2 ∨
                number = 3 := by omega
              · rw [flagsAt]
                rfl
              · rw [xsAt]
                rfl
              · rw [ysAt]
                rfl
              · rw [pts]
                rfl

theorem glyphFails_notReported :
    ¬ Reported data glyphData (glyphFails statusNoMemorySpelled []) := by
  rw [Reported, if_pos (by decide)]
  rintro ⟨_, _, _, ⟨_, member⟩, _⟩
  cases member

/-- Where both blocks are there, the glyph is shown if the pointer that is cut to 16 bits is still
the pointer. -/
theorem success_reported_iff {glyph : SimpleGlyph} {finish pts endout nc last : Nat}
    (decoded : ttfReadSimpleGlyph (fun _ => true) data glyphData = .ok (glyph, finish))
    (count : nc = glyph.contoursEnd.length) (lastEnd : glyph.contoursEnd[nc - 1]? = some last)
    (points : last + 1 = glyph.points.length) :
    Reported data glyphData ⟨statusSuccess, pts, endout % 2 ^ 16, nc,
        [⟨4, endout, .contoursEnd glyph.contoursEnd⟩, ⟨3, pts, .points glyph.points⟩]⟩ ↔
      endout < 2 ^ 16 := by
  rw [Reported, if_pos (show ntSuccess statusSuccess = true by decide)]
  constructor
  · rintro ⟨glyph', finish', _, _, ⟨number, member⟩, _⟩
    rcases mem_cons.mp member with same | member
    · have address : endout % 2 ^ 16 = endout := congrArg GlyphBlock.address same
      omega
    · rcases mem_cons.mp member with same | member
      · cases congrArg GlyphBlock.contents same
      · cases member
  · intro low
    refine ⟨glyph, finish, decoded, ⟨3, by simp⟩, ⟨4, ?_⟩, count, last, lastEnd, points⟩
    dsimp only
    rw [Nat.mod_eq_of_lt low]
    exact mem_cons_self

/-- For every glyph and every pattern of the pool's answers, the call reports exactly when the glyph
has no contours or everything is given, with the contour ends in the lowest 64 kilobytes. -/
theorem ttfReadSimpleGlyph_reported_iff (gives : Nat → Option Nat) (data : ByteMemory)
    (glyphData : Nat) :
    Reported data glyphData (ttfReadSimpleGlyphOut gives data glyphData) ↔
      be16s data glyphData ≤ 0 ∨ AllGiven gives data glyphData := by
  by_cases contours : be16s data glyphData ≤ 0
  · refine iff_of_true ?_ (.inl contours)
    unfold ttfReadSimpleGlyphOut
    dsimp only
    rw [if_pos contours]
    rfl
  · rw [or_iff_right contours]
    obtain ⟨glyph, finish, decoded, points, ends⟩ := decoded_of_contours contours
    have word := be16_lt data (glyphData + 10 + ((be16s data glyphData).toNat - 1) * 2)
    have pointsAt : numPointsAt data glyphData ≠ 0 ↔
        be16 data (glyphData + 10 + ((be16s data glyphData).toNat - 1) * 2) ≠ 0xFFFF := by
      rw [numPointsAt]
      omega
    rcases ttfReadSimpleGlyphOut_cases contours decoded with
      ⟨failed, missing⟩ | ⟨pts, endout, some, given, last, done⟩
    · rw [failed]
      refine iff_of_false glyphFails_notReported ?_
      rintro ⟨some, given, endout, last, _⟩
      refine missing ⟨pointsAt.mpr some, ?_⟩
      intro number small
      rcases Nat.eq_or_lt_of_le (Nat.le_of_lt_succ small) with rfl | less
      · rw [last]
        rfl
      · exact given number less
    · have lastEnd : glyph.contoursEnd[(be16s data glyphData).toNat - 1]? = Option.some
          (be16 data (glyphData + 10 + ((be16s data glyphData).toNat - 1) * 2)) := by
        rw [ends, getElem?_map, getElem?_range (by omega)]
        rfl
      have full : be16 data (glyphData + 10 + ((be16s data glyphData).toNat - 1) * 2) + 1 =
          glyph.points.length := by
        rw [points]
        rw [numPointsAt, Nat.mod_eq_of_lt (by omega)]
      rw [done, success_reported_iff decoded (by rw [ends, length_map, length_range]) lastEnd full]
      constructor
      · exact fun low => ⟨pointsAt.mp some, given, endout, last, low⟩
      · rintro ⟨_, _, endout', last', low⟩
        rw [last] at last'
        cases last'
        exact low

/-- A glyph of one contour with one point, and a pool that gives nothing: the status counts as
success and no pointer is set. The same glyph, and a pool above the lowest 64 kilobytes: one of the
pointers is cut off. -/
theorem ttfReadSimpleGlyph_reported_fails :
    let onePoint : ByteMemory := fun index => if index = 1 then 1 else 0
    ¬ Reported onePoint 0 (ttfReadSimpleGlyphOut (fun _ => none) onePoint 0) ∧
      ¬ Reported onePoint 0
        (ttfReadSimpleGlyphOut (fun number => some (0x100018 + number * 64)) onePoint 0) := by
  intro onePoint
  have evaluated : ttfReadSimpleGlyph (fun _ => true) onePoint 0 = .ok (⟨[(0, 0)], [0], 1⟩, 19) ∧
      ttfReadSimpleGlyphOut (fun _ => none) onePoint 0 =
        glyphFails statusNoMemorySpelled [] ∧
      ttfReadSimpleGlyphOut (fun number => some (0x100018 + number * 64)) onePoint 0 =
        ⟨statusSuccess, 0x1000D8, 0x100118 % 2 ^ 16, 1,
          [⟨4, 0x100118, .contoursEnd [0]⟩, ⟨3, 0x1000D8, .points [(0, 0)]⟩]⟩ := by
    decide +kernel
  obtain ⟨decoded, none, all⟩ := evaluated
  have cut := (@success_reported_iff onePoint 0 _ _ 0x1000D8 0x100118 1 0 decoded rfl rfl rfl).mp
  rw [none, all]
  exact ⟨glyphFails_notReported, fun reported => absurd (cut reported) (by decide)⟩

end Report

end MinNT.Font
