import MinNT.Lib.ByteMemory
import MinNT.NtStatus

/-! Places in a font file are offsets from its first byte. -/

namespace MinNT.Font

def be16 (data : ByteMemory) (p : Nat) : Nat := (data p).toNat * 256 + (data (p + 1)).toNat

def be32 (data : ByteMemory) (p : Nat) : Nat := be16 data p * 65536 + be16 data (p + 2)

/-- A 16-bit word as a `SHORT`. -/
def short (word : Nat) : Int := if word < 0x8000 then word else (word : Int) - 0x10000

def be16s (data : ByteMemory) (p : Nat) : Int := short (be16 data p)

/-- The low 16 bits of a sum, in `int` or in `ULONG` arithmetic. -/
def ushort (value : Int) : Nat := (value % 0x10000).toNat

structure TtfHead where
  version : Nat
  unitsPerEm : Nat
  indexToLocFormat : Int
deriving DecidableEq, Repr

structure TtfMaxp where
  version : Nat
  numGlyphs : Nat
deriving DecidableEq, Repr

structure TtfHhea where
  version : Nat
  ascender : Int
  descender : Int
  lineGap : Int
  advanceWidthMax : Nat
  numberOfHMetrics : Nat
deriving DecidableEq, Repr

/-- Where a table is; zero if there is none. -/
structure TtfTable where
  offset : Nat
  length : Nat
deriving DecidableEq, Repr

structure TtfFont where
  size : Nat
  numTables : Nat
  head : TtfHead
  maxp : TtfMaxp
  hhea : TtfHhea
  cmap : TtfTable
  loca : TtfTable
  glyf : TtfTable
  hmtx : TtfTable
  cmapEndCount : Nat
  cmapStartCount : Nat
  cmapIdDelta : Nat
  cmapIdRangeOffset : Nat
  cmapSegCount : Nat
  locaFormat : Int
  valid : Bool
deriving DecidableEq, Repr

def ttfFindTable (data : ByteMemory) (numTables tag : Nat) : Option TtfTable :=
  ((List.range numTables).find? fun i => be32 data (12 + i * 16) == tag).map fun i =>
    ⟨be32 data (12 + i * 16 + 8), be32 data (12 + i * 16 + 12)⟩

def ttfLoadFont (data : ByteMemory) (size : Nat) : Except NtStatus TtfFont :=
  if size < 12 then .error statusInvalidParameter
  else if be32 data 0 ≠ 0x00010000 ∧ be32 data 0 ≠ 0x4F54544F then
    .error statusInvalidImageFormat
  else if be32 data 0 = 0x4F54544F then .error statusInvalidImageFormat
  else
    let numTables := be16 data 4
    match ttfFindTable data numTables 0x68656164 with
    | none => .error statusInvalidImageFormat
    | some head =>
        match ttfFindTable data numTables 0x6D617870 with
        | none => .error statusInvalidImageFormat
        | some maxp =>
            match ttfFindTable data numTables 0x68686561 with
            | none => .error statusInvalidImageFormat
            | some hhea =>
                .ok
                  { size := size
                    numTables := numTables
                    head := ⟨be32 data head.offset, be16 data (head.offset + 18),
                      be16s data (head.offset + 50)⟩
                    maxp := ⟨be32 data maxp.offset, be16 data (maxp.offset + 4)⟩
                    hhea := ⟨be32 data hhea.offset, be16s data (hhea.offset + 4),
                      be16s data (hhea.offset + 6), be16s data (hhea.offset + 8),
                      be16 data (hhea.offset + 10), be16 data (hhea.offset + 34)⟩
                    cmap := (ttfFindTable data numTables 0x636D6170).getD ⟨0, 0⟩
                    loca := (ttfFindTable data numTables 0x6C6F6361).getD ⟨0, 0⟩
                    glyf := (ttfFindTable data numTables 0x676C7966).getD ⟨0, 0⟩
                    hmtx := (ttfFindTable data numTables 0x686D7478).getD ⟨0, 0⟩
                    cmapEndCount := 0
                    cmapStartCount := 0
                    cmapIdDelta := 0
                    cmapIdRangeOffset := 0
                    cmapSegCount := 0
                    locaFormat := be16s data (head.offset + 50)
                    valid := true }

/-- The best subtable so far, in the loop of `TtfParseCmap`. -/
structure BestSubtable where
  offset : Nat
  format : Nat
  platform : Nat
  encoding : Nat
deriving DecidableEq, Repr

/-- The loop of `TtfParseCmap` over the encoding records. -/
def scanSubtables (data : ByteMemory) (table : TtfTable) : List Nat → BestSubtable → BestSubtable
  | [], best => best
  | i :: rest, best =>
      let record := table.offset + 4 + i * 8
      let platformId := be16 data record
      let encodingId := be16 data (record + 2)
      let subOffset := be32 data (record + 4)
      if (subOffset + 2) % 2 ^ 32 > table.length then scanSubtables data table rest best
      else
        let fmt := be16 data (table.offset + subOffset)
        if platformId = 3 ∧ encodingId = 1 ∧ fmt = 4 then ⟨subOffset, 4, platformId, encodingId⟩
        else if platformId = 0 ∧ best.platform = 0xFFFF then
          scanSubtables data table rest ⟨subOffset, fmt, platformId, encodingId⟩
        else scanSubtables data table rest best

/-- The font with the arrays of a format 4 subtable at `sub`. -/
def TtfFont.withFormat4 (font : TtfFont) (data : ByteMemory) (sub : Nat) : TtfFont :=
  let segCountX2 := be16 data (sub + 6)
  let endCountBase := sub + 14
  let startCountBase := endCountBase + segCountX2 + 2
  let idDeltaBase := startCountBase + segCountX2
  let idRangeBase := idDeltaBase + segCountX2
  { font with
    cmapSegCount := segCountX2 / 2
    cmapEndCount := endCountBase
    cmapStartCount := startCountBase
    cmapIdDelta := idDeltaBase
    cmapIdRangeOffset := idRangeBase }

def ttfParseCmap (data : ByteMemory) (font : TtfFont) : Except NtStatus TtfFont :=
  if font.cmap.offset = 0 ∨ font.cmap.length < 4 then .error statusInvalidImageFormat
  else
    let cmap := font.cmap.offset
    let numSubtables := be16 data (cmap + 2)
    if be16 data cmap ≠ 0 then .error statusInvalidImageFormat
    else
      let best := scanSubtables data font.cmap (List.range numSubtables) ⟨0, 0, 0xFFFF, 0xFFFF⟩
      if best.format ≠ 4 ∨ best.offset = 0 then
        if numSubtables = 0 then .error statusInvalidImageFormat
        else
          let bestOffset := be32 data (cmap + 4 + 4)
          if be16 data (cmap + bestOffset) ≠ 4 then .error statusInvalidImageFormat
          else .ok (font.withFormat4 data (cmap + bestOffset))
      else .ok (font.withFormat4 data (cmap + best.offset))

/-- The loop of `TtfGetGlyphIndex` over the segments. -/
def scanSegments (data : ByteMemory) (font : TtfFont) (cp : Nat) : List Nat → Nat
  | [] => 0
  | i :: rest =>
      let endCode := be16 data (font.cmapEndCount + i * 2)
      if cp > endCode then scanSegments data font cp rest
      else
        let start := be16 data (font.cmapStartCount + i * 2)
        if cp < start then 0
        else
          let delta := be16s data (font.cmapIdDelta + i * 2)
          let offset := be16 data (font.cmapIdRangeOffset + i * 2)
          if offset = 0 then ushort (cp + delta)
          else
            let glyphIdBase := font.cmapIdRangeOffset + i * 2
            let target := glyphIdBase + offset + (cp - start) * 2
            if target + 2 > font.cmap.offset + font.cmap.length then 0
            else
              let glyph := be16 data target
              if glyph = 0 then 0 else ushort (glyph + delta)

/-- `TtfGetGlyphIndex`, which keeps the parsed arrays in the font. -/
def ttfGetGlyphIndex (data : ByteMemory) (font : TtfFont) (cp : Nat) : Nat × TtfFont :=
  if ¬ font.valid then (0, font)
  else if font.cmapSegCount = 0 then
    match ttfParseCmap data font with
    | .error _ => (0, font)
    | .ok font => (scanSegments data font cp (List.range font.cmapSegCount), font)
  else (scanSegments data font cp (List.range font.cmapSegCount), font)

end MinNT.Font
