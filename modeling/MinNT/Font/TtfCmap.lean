import MinNT.Font.Ttf

namespace MinNT.Font

open List

namespace Format4

variable (data : ByteMemory) (sub : Nat)

/-- The arrays of a subtable at `sub`: `segCountX2` is twice the number of segments, and two
bytes of padding stand behind the end codes. -/
def segCount : Nat := be16 data (sub + 6) / 2
def endCode (i : Nat) : Nat := be16 data (sub + 14 + 2 * i)
def startCode (i : Nat) : Nat := be16 data (sub + 16 + 2 * segCount data sub + 2 * i)
def idDelta (i : Nat) : Nat := be16 data (sub + 16 + 4 * segCount data sub + 2 * i)
def idRangeOffset (i : Nat) : Nat := be16 data (sub + 16 + 6 * segCount data sub + 2 * i)
def glyphIdArray (k : Nat) : Nat := be16 data (sub + 16 + 8 * segCount data sub + 2 * k)

/-- Counted from the place of the range offset itself, which has `segCount - i` range offsets
between it and the array, it addresses entry `k` for a code. -/
def Addresses (i cp k : Nat) : Prop :=
  idRangeOffset data sub i + 2 * (cp - startCode data sub i) =
    2 * (segCount data sub - i) + 2 * k

/-- The segment with the smallest end code that is not below a code. -/
structure Covers (i cp : Nat) : Prop where
  segment : i < segCount data sub
  reaches : cp ≤ endCode data sub i
  smallest : ∀ j, j < segCount data sub → cp ≤ endCode data sub j →
    endCode data sub i ≤ endCode data sub j ∧ (endCode data sub i = endCode data sub j → i ≤ j)

/-- The glyph of a code in a segment. -/
inductive SegmentGlyph (i cp : Nat) : Nat → Prop
  | missing (below : cp < startCode data sub i) : SegmentGlyph i cp 0
  | direct (inside : startCode data sub i ≤ cp) (offset : idRangeOffset data sub i = 0) :
      SegmentGlyph i cp ((cp + idDelta data sub i) % 65536)
  | absent (inside : startCode data sub i ≤ cp) (offset : idRangeOffset data sub i ≠ 0) (k : Nat)
      (addresses : Addresses data sub i cp k) (zero : glyphIdArray data sub k = 0) :
      SegmentGlyph i cp 0
  | indirect (inside : startCode data sub i ≤ cp) (offset : idRangeOffset data sub i ≠ 0) (k : Nat)
      (addresses : Addresses data sub i cp k) (present : glyphIdArray data sub k ≠ 0) :
      SegmentGlyph i cp ((glyphIdArray data sub k + idDelta data sub i) % 65536)

/-- The glyph that is prescribed for a code. -/
inductive Prescribed (cp : Nat) : Nat → Prop
  | unmapped (beyond : ∀ i, i < segCount data sub → endCode data sub i < cp) : Prescribed cp 0
  | mapped (i glyph : Nat) (covers : Covers data sub i cp)
      (segment : SegmentGlyph data sub i cp glyph) : Prescribed cp glyph

/-- At least one segment, in the order of the end codes, and everything in front of the end of
the table. -/
structure WellFormed (tableEnd : Nat) : Prop where
  even : be16 data (sub + 6) = 2 * segCount data sub
  some : 0 < segCount data sub
  sorted : ∀ i j, i < j → j < segCount data sub → endCode data sub i ≤ endCode data sub j
  arrays : sub + 16 + 8 * segCount data sub ≤ tableEnd
  targets : ∀ i, i < segCount data sub → idRangeOffset data sub i ≠ 0 →
    ∀ cp, startCode data sub i ≤ cp → cp ≤ endCode data sub i → ∃ k,
      Addresses data sub i cp k ∧ sub + 16 + 8 * segCount data sub + 2 * k + 2 ≤ tableEnd

end Format4

/-- The table has a subtable of format 4 for platform 3, encoding 1: the first such record leads
to a well-formed one. -/
structure HasFormat4 (data : ByteMemory) (table : TtfTable) (sub : Nat) : Prop where
  version : be16 data table.offset = 0
  record : ∃ i, i < be16 data (table.offset + 2) ∧
    be16 data (table.offset + 4 + i * 8) = 3 ∧ be16 data (table.offset + 4 + i * 8 + 2) = 1 ∧
    table.offset + be32 data (table.offset + 4 + i * 8 + 4) = sub ∧
    ∀ j, j < i → be16 data (table.offset + 4 + j * 8) = 3 →
      be16 data (table.offset + 4 + j * 8 + 2) = 1 →
      be16 data (table.offset + be32 data (table.offset + 4 + j * 8 + 4)) ≠ 4
  format : be16 data sub = 4
  wellFormed : Format4.WellFormed data sub (table.offset + table.length)

namespace Format4

variable {data : ByteMemory} {sub : Nat}

theorem Covers.unique {i j cp : Nat} (first : Covers data sub i cp)
    (second : Covers data sub j cp) : i = j := by
  obtain ⟨le, order⟩ := first.smallest j second.segment second.reaches
  obtain ⟨le', order'⟩ := second.smallest i first.segment first.reaches
  have same := Nat.le_antisymm le le'
  have := order same
  have := order' same.symm
  omega

theorem Addresses.unique {i cp k k' : Nat} (first : Addresses data sub i cp k)
    (second : Addresses data sub i cp k') : k = k' := by
  unfold Addresses at first second
  omega

theorem SegmentGlyph.unique {i cp glyph glyph' : Nat} (first : SegmentGlyph data sub i cp glyph)
    (second : SegmentGlyph data sub i cp glyph') : glyph = glyph' := by
  cases first with
  | missing below =>
    cases second with
    | missing => rfl
    | direct inside => omega
    | absent inside => omega
    | indirect inside => omega
  | direct inside offset =>
    cases second with
    | missing below => omega
    | direct => rfl
    | absent _ other => exact absurd offset other
    | indirect _ other => exact absurd offset other
  | absent inside offset k addresses zero =>
    cases second with
    | missing => rfl
    | direct _ other => exact absurd other offset
    | absent => rfl
    | indirect _ _ k' addresses' present =>
      rw [addresses.unique addresses'] at zero
      exact absurd zero present
  | indirect inside offset k addresses present =>
    cases second with
    | missing below => omega
    | direct _ other => exact absurd other offset
    | absent _ _ k' addresses' zero =>
      rw [addresses.unique addresses'] at present
      exact absurd zero present
    | indirect _ _ k' addresses' _ => rw [addresses.unique addresses']

theorem Prescribed.unique {cp glyph glyph' : Nat} (first : Prescribed data sub cp glyph)
    (second : Prescribed data sub cp glyph') : glyph = glyph' := by
  cases first with
  | unmapped beyond =>
    cases second with
    | unmapped => rfl
    | mapped i _ covers =>
      have := beyond i covers.segment
      have := covers.reaches
      omega
  | mapped i _ covers segment =>
    cases second with
    | unmapped beyond =>
      have := beyond i covers.segment
      have := covers.reaches
      omega
    | mapped j _ covers' segment' =>
      rw [covers'.unique covers] at segment'
      exact segment.unique segment'

end Format4

theorem ushort_add (value word : Nat) :
    ushort ((value : Int) + short word) = (value + word) % 65536 := by
  unfold ushort short
  split <;> omega

theorem be16_lt (data : ByteMemory) (p : Nat) : be16 data p < 65536 := by
  have high := (data p).toNat_lt
  have low := (data (p + 1)).toNat_lt
  unfold be16
  omega

/-- The font has the arrays of the subtable at `sub`. -/
structure Parsed (data : ByteMemory) (font : TtfFont) (sub : Nat) : Prop where
  segCount : font.cmapSegCount = Format4.segCount data sub
  endCount : font.cmapEndCount = sub + 14
  startCount : font.cmapStartCount = sub + 16 + 2 * Format4.segCount data sub
  idDelta : font.cmapIdDelta = sub + 16 + 4 * Format4.segCount data sub
  idRangeOffset : font.cmapIdRangeOffset = sub + 16 + 6 * Format4.segCount data sub

theorem Format4.WellFormed.parsed {data : ByteMemory} {sub tableEnd : Nat}
    (wellFormed : Format4.WellFormed data sub tableEnd) (font : TtfFont) :
    Parsed data (font.withFormat4 data sub) sub := by
  have even := wellFormed.even
  refine ⟨rfl, rfl, ?_, ?_, ?_⟩ <;> (dsimp only [TtfFont.withFormat4]; omega)

variable {data : ByteMemory} {font : TtfFont} {sub : Nat}

theorem Format4.WellFormed.covers {tableEnd i cp : Nat}
    (wellFormed : Format4.WellFormed data sub tableEnd) (segment : i < Format4.segCount data sub)
    (passed : ∀ j, j < i → Format4.endCode data sub j < cp)
    (reaches : cp ≤ Format4.endCode data sub i) : Format4.Covers data sub i cp := by
  refine ⟨segment, reaches, fun j inside other => ?_⟩
  have behind : i ≤ j := by
    by_contra before
    have := passed j (by omega)
    omega
  refine ⟨?_, fun _ => behind⟩
  rcases Nat.eq_or_lt_of_le behind with same | later
  · exact Nat.le_of_eq (congrArg (Format4.endCode data sub) same)
  · exact wellFormed.sorted i j later inside

/-- The search ends at the first segment that reaches the code point. -/
theorem scanSegments_stop (parsed : Parsed data font sub)
    (wellFormed : Format4.WellFormed data sub (font.cmap.offset + font.cmap.length))
    {i cp : Nat} (rest : List Nat) (segment : i < Format4.segCount data sub)
    (reaches : cp ≤ Format4.endCode data sub i) :
    Format4.SegmentGlyph data sub i cp (scanSegments data font cp (i :: rest)) := by
  have endCode : be16 data (font.cmapEndCount + i * 2) = Format4.endCode data sub i := by
    rw [parsed.endCount, Nat.mul_comm i 2, Format4.endCode]
  have startCode : be16 data (font.cmapStartCount + i * 2) = Format4.startCode data sub i := by
    rw [parsed.startCount, Nat.mul_comm i 2, Format4.startCode]
  have delta : be16s data (font.cmapIdDelta + i * 2) = short (Format4.idDelta data sub i) := by
    rw [be16s, parsed.idDelta, Nat.mul_comm i 2, Format4.idDelta]
  have offset : be16 data (font.cmapIdRangeOffset + i * 2) =
      Format4.idRangeOffset data sub i := by
    rw [parsed.idRangeOffset, Nat.mul_comm i 2, Format4.idRangeOffset]
  rw [scanSegments]
  dsimp only
  rw [endCode, startCode, delta, offset, if_neg (by omega)]
  by_cases below : cp < Format4.startCode data sub i
  · rw [if_pos below]
    exact .missing below
  rw [if_neg below]
  have inside : Format4.startCode data sub i ≤ cp := by omega
  by_cases direct : Format4.idRangeOffset data sub i = 0
  · rw [if_pos direct, ushort_add]
    exact .direct inside direct
  obtain ⟨k, addresses, bound⟩ := wellFormed.targets i segment direct cp inside reaches
  have target : font.cmapIdRangeOffset + i * 2 + Format4.idRangeOffset data sub i +
      (cp - Format4.startCode data sub i) * 2 =
      sub + 16 + 8 * Format4.segCount data sub + 2 * k := by
    unfold Format4.Addresses at addresses
    rw [parsed.idRangeOffset]
    omega
  rw [if_neg direct, target, if_neg (by omega), ← Format4.glyphIdArray]
  by_cases zero : Format4.glyphIdArray data sub k = 0
  · rw [if_pos zero]
    exact .absent inside direct k addresses zero
  · rw [if_neg zero, ushort_add]
    exact .indirect inside direct k addresses zero

theorem scanSegments_prescribed (parsed : Parsed data font sub)
    (wellFormed : Format4.WellFormed data sub (font.cmap.offset + font.cmap.length))
    {cp i left : Nat} (all : i + left = Format4.segCount data sub)
    (passed : ∀ j, j < i → Format4.endCode data sub j < cp) :
    Format4.Prescribed data sub cp (scanSegments data font cp (List.range' i left)) := by
  induction left generalizing i with
  | zero => exact .unmapped fun j inside => passed j (by omega)
  | succ left ih =>
    rw [List.range'_succ]
    by_cases reaches : cp ≤ Format4.endCode data sub i
    · exact .mapped i _ (wellFormed.covers (by omega) passed reaches)
        (scanSegments_stop parsed wellFormed _ (by omega) reaches)
    have endCode : be16 data (font.cmapEndCount + i * 2) = Format4.endCode data sub i := by
      rw [parsed.endCount, Nat.mul_comm i 2, Format4.endCode]
    rw [scanSegments]
    dsimp only
    rw [endCode, if_pos (by omega)]
    refine ih (by omega) fun j before => ?_
    rcases Nat.lt_succ_iff_lt_or_eq.mp before with earlier | same
    · exact passed j earlier
    · rw [same]
      omega

theorem scanSubtables_stop {table : TtfTable} {front back : List Nat} {i subOffset : Nat}
    (platform : be16 data (table.offset + 4 + i * 8) = 3)
    (encoding : be16 data (table.offset + 4 + i * 8 + 2) = 1)
    (place : be32 data (table.offset + 4 + i * 8 + 4) = subOffset)
    (inside : subOffset + 2 ≤ table.length) (format : be16 data (table.offset + subOffset) = 4)
    (before : ∀ j ∈ front, be16 data (table.offset + 4 + j * 8) = 3 →
      be16 data (table.offset + 4 + j * 8 + 2) = 1 →
      be16 data (table.offset + be32 data (table.offset + 4 + j * 8 + 4)) ≠ 4)
    (best : BestSubtable) :
    scanSubtables data table (front ++ i :: back) best = ⟨subOffset, 4, 3, 1⟩ := by
  induction front generalizing best with
  | nil =>
    have fits : ¬ (subOffset + 2) % 2 ^ 32 > table.length := by omega
    rw [nil_append, scanSubtables]
    dsimp only
    rw [place, platform, encoding, format, if_neg fits, if_pos ⟨rfl, rfl, rfl⟩]
  | cons j front ih =>
    rw [forall_mem_cons] at before
    have later := ih before.2
    have other : ¬ (be16 data (table.offset + 4 + j * 8) = 3 ∧
        be16 data (table.offset + 4 + j * 8 + 2) = 1 ∧
        be16 data (table.offset + be32 data (table.offset + 4 + j * 8 + 4)) = 4) :=
      fun ⟨three, one, four⟩ => before.1 three one four
    rw [cons_append, scanSubtables]
    dsimp only
    rw [later, later, if_neg other]
    split
    · rfl
    · split <;> rfl

theorem HasFormat4.parse (has : HasFormat4 data font.cmap sub) (nonzero : be16 data 0 ≠ 0) :
    ttfParseCmap data font = .ok (font.withFormat4 data sub) := by
  obtain ⟨i, inside, platform, encoding, place, before⟩ := has.record
  have arrays := has.wellFormed.arrays
  have version := has.version
  have format := has.format
  generalize offset : be32 data (font.cmap.offset + 4 + i * 8 + 4) = subOffset at place
  have cmapSome : font.cmap.offset ≠ 0 := by
    intro zero
    rw [zero] at version
    exact nonzero version
  have subSome : subOffset ≠ 0 := by
    intro zero
    rw [← place, zero, Nat.add_zero, version] at format
    cases format
  obtain ⟨front, back, records⟩ := append_of_mem (mem_range.mpr inside)
  have ordered := pairwise_lt_range (n := be16 data (font.cmap.offset + 2))
  rw [records, pairwise_append] at ordered
  have stop : scanSubtables data font.cmap (front ++ i :: back) ⟨0, 0, 0xFFFF, 0xFFFF⟩ =
      ⟨subOffset, 4, 3, 1⟩ :=
    scanSubtables_stop platform encoding offset (by omega) (by rw [place]; exact format)
      (fun j member => before j (ordered.2.2 j member i mem_cons_self)) _
  unfold ttfParseCmap
  rw [if_neg (by omega)]
  dsimp only
  rw [if_neg (not_not.mpr version), records, stop, if_neg (by simpa using subSome), place]

/-- A font that was loaded, before or behind the first use of its character map. -/
structure Ready (data : ByteMemory) (table : TtfTable) (sub : Nat) (font : TtfFont) : Prop where
  valid : font.valid = true
  cmap : font.cmap = table
  parsed : font.cmapSegCount = 0 ∨ Parsed data font sub

theorem ttfLoadFont_ok {size : Nat} (loaded : ttfLoadFont data size = .ok font) :
    be16 data 0 ≠ 0 ∧ font.valid = true ∧ font.cmapSegCount = 0 := by
  unfold ttfLoadFont at loaded
  split at loaded
  · cases loaded
  split at loaded
  · cases loaded
  split at loaded
  · cases loaded
  have version : be32 data 0 = 0x00010000 := by omega
  have nonzero : be16 data 0 ≠ 0 := by
    have low := be16_lt data (0 + 2)
    intro zero
    rw [be32, zero, Nat.zero_add] at version
    omega
  dsimp only at loaded
  split at loaded
  · cases loaded
  split at loaded
  · cases loaded
  split at loaded
  · cases loaded
  cases loaded
  exact ⟨nonzero, rfl, rfl⟩

/-- A call answers as prescribed and leaves the font ready. -/
theorem Ready.getGlyphIndex {table : TtfTable} (ready : Ready data table sub font)
    (has : HasFormat4 data table sub) (nonzero : be16 data 0 ≠ 0) (cp : Nat) :
    Format4.Prescribed data sub cp (ttfGetGlyphIndex data font cp).1 ∧
      Ready data table sub (ttfGetGlyphIndex data font cp).2 := by
  obtain ⟨valid, rfl, parsed⟩ := ready
  have all : ∀ ready : TtfFont, ready.cmap = font.cmap → Parsed data ready sub →
      Format4.Prescribed data sub cp (scanSegments data ready cp (range ready.cmapSegCount)) := by
    intro ready same arrays
    rw [range_eq_range', arrays.segCount]
    refine scanSegments_prescribed arrays ?_ (Nat.zero_add _) (fun j before => by omega)
    rw [same]
    exact has.wellFormed
  unfold ttfGetGlyphIndex
  rw [if_neg (not_not.mpr valid)]
  by_cases unparsed : font.cmapSegCount = 0
  · have arrays := has.wellFormed.parsed font
    rw [if_pos unparsed, has.parse nonzero]
    exact ⟨all _ rfl arrays, valid, rfl, .inr arrays⟩
  · have arrays := parsed.resolve_left unparsed
    rw [if_neg unparsed]
    exact ⟨all font rfl arrays, valid, rfl, .inr arrays⟩

/-- The font behind a sequence of calls. -/
def TtfFont.afterCalls (data : ByteMemory) (font : TtfFont) (calls : List Nat) : TtfFont :=
  calls.foldl (fun font cp => (ttfGetGlyphIndex data font cp).2) font

theorem Ready.afterCalls {table : TtfTable} (ready : Ready data table sub font)
    (has : HasFormat4 data table sub) (nonzero : be16 data 0 ≠ 0) (calls : List Nat) :
    Ready data table sub (font.afterCalls data calls) := by
  unfold TtfFont.afterCalls
  induction calls generalizing font with
  | nil => exact ready
  | cons cp calls ih => exact ih (ready.getGlyphIndex has nonzero cp).2

/-- For every font that was loaded, with a well-formed subtable of format 4 for platform 3,
encoding 1, and behind any calls, the glyph of a code is exactly the one that is prescribed. -/
theorem ttfGetGlyphIndex_prescribed {size : Nat} (loaded : ttfLoadFont data size = .ok font)
    (has : HasFormat4 data font.cmap sub) (calls : List Nat) (cp glyph : Nat) :
    (ttfGetGlyphIndex data (font.afterCalls data calls) cp).1 = glyph ↔
      Format4.Prescribed data sub cp glyph := by
  obtain ⟨nonzero, valid, unparsed⟩ := ttfLoadFont_ok loaded
  have ready : Ready data font.cmap sub font := ⟨valid, rfl, .inl unparsed⟩
  have prescribed := ((ready.afterCalls has nonzero calls).getGlyphIndex has nonzero cp).1
  constructor
  · rintro rfl
    exact prescribed
  · exact prescribed.unique

/-- A font with the three tables that are asked for, and a character map of two segments: the
first one goes through the glyph array, the second one ends the list. -/
def sampleFile : ByteMemory := fun index =>
  ([[0x00, 0x01, 0x00, 0x00, 0x00, 0x04, 0, 0, 0, 0, 0, 0],
    [0x68, 0x65, 0x61, 0x64, 0, 0, 0, 0, 0, 0, 0, 0, 0, 0, 0, 0],
    [0x6D, 0x61, 0x78, 0x70, 0, 0, 0, 0, 0, 0, 0, 0, 0, 0, 0, 0],
    [0x68, 0x68, 0x65, 0x61, 0, 0, 0, 0, 0, 0, 0, 0, 0, 0, 0, 0],
    [0x63, 0x6D, 0x61, 0x70, 0, 0, 0, 0, 0, 0, 0, 76, 0, 0, 0, 48],
    [0, 0, 0, 1, 0, 3, 0, 1, 0, 0, 0, 12],
    [0, 4, 0, 36, 0, 0, 0, 4, 0, 0, 0, 0, 0, 0],
    [0, 0x42, 0xFF, 0xFF, 0, 0, 0, 0x41, 0xFF, 0xFF, 0, 1, 0, 1, 0, 4, 0, 0],
    [0, 7, 0, 0]].flatten : List UInt8).getD index 0

def sampleFont : TtfFont where
  size := 124
  numTables := 4
  head := ⟨0x10000, 0, 0⟩
  maxp := ⟨0x10000, 4⟩
  hhea := ⟨0x10000, 4, 0, 0, 0, 0⟩
  cmap := ⟨76, 48⟩
  loca := ⟨0, 0⟩
  glyf := ⟨0, 0⟩
  hmtx := ⟨0, 0⟩
  cmapEndCount := 0
  cmapStartCount := 0
  cmapIdDelta := 0
  cmapIdRangeOffset := 0
  cmapSegCount := 0
  locaFormat := 0
  valid := true

theorem sampleFont_loaded : ttfLoadFont sampleFile 124 = .ok sampleFont := by decide +kernel

theorem sampleFont_hasFormat4 : HasFormat4 sampleFile sampleFont.cmap 88 where
  version := by decide +kernel
  record := ⟨0, by decide +kernel, by decide +kernel, by decide +kernel, by decide +kernel,
    fun _ before => absurd before (Nat.not_lt_zero _)⟩
  format := by decide +kernel
  wellFormed := by
    have segments : Format4.segCount sampleFile 88 = 2 := by decide +kernel
    have ends : Format4.endCode sampleFile 88 0 = 0x42 := by decide +kernel
    have starts : Format4.startCode sampleFile 88 0 = 0x41 := by decide +kernel
    have offset : Format4.idRangeOffset sampleFile 88 0 = 4 := by decide +kernel
    have last : Format4.idRangeOffset sampleFile 88 1 = 0 := by decide +kernel
    refine ⟨by decide +kernel, by decide +kernel, ?_, by decide +kernel, ?_⟩
    · intro i j before inside
      obtain rfl : i = 0 := by omega
      obtain rfl : j = 1 := by omega
      decide +kernel
    · intro i inside some cp lower upper
      rw [segments] at inside
      have first : i = 0 := by
        rcases Nat.lt_succ_iff_lt_or_eq.mp inside with before | rfl
        · omega
        · exact absurd last some
      subst first
      rw [starts] at lower
      rw [ends] at upper
      refine ⟨cp - 0x41, ?_, ?_⟩
      · rw [Format4.Addresses, offset, starts, segments]
      · have tableEnd : sampleFont.cmap.offset + sampleFont.cmap.length = 124 := rfl
        rw [segments, tableEnd]
        omega

/-- Behind a call for another code, the code 0x41 has the glyph that the array and the delta of
its segment make up. -/
theorem ttfGetGlyphIndex_prescribed_sample :
    (ttfGetGlyphIndex sampleFile (sampleFont.afterCalls sampleFile [0x43]) 0x41).1 = 8 ∧
      Format4.Prescribed sampleFile 88 0x41 8 := by
  have glyph : (ttfGetGlyphIndex sampleFile (sampleFont.afterCalls sampleFile [0x43]) 0x41).1 =
      8 := by
    decide +kernel
  exact ⟨glyph, (ttfGetGlyphIndex_prescribed sampleFont_loaded sampleFont_hasFormat4 [0x43]
    0x41 8).mp glyph⟩

end MinNT.Font
