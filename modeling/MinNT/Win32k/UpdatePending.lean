import MinNT.Lib.Transition
import MinNT.Win32k.Update

/-! Which pixels of the windows are still to be painted, over a whole run of invalidations,
validations and paints. -/

namespace MinNT.Win32k

open List Update ChainedTable

/-- The pixels of a rectangle, without those on its right and bottom edges. -/
def Rect.pixels (rect : Rect) : Set (Int × Int) :=
  fun pixel =>
    rect.left ≤ pixel.1 ∧ pixel.1 < rect.right ∧ rect.top ≤ pixel.2 ∧ pixel.2 < rect.bottom

/-- The pixels of the regions in use for a window. -/
def Update.area (update : Update) (hwnd : Nat) : Set (Int × Int) :=
  fun pixel => ∃ region ∈ update.regions, region.pends hwnd ∧ pixel ∈ region.rect.pixels

inductive UpdateCall where
  | invalidateRect2 (hWnd : Nat) (pRect : Option Rect) (bErase : Bool)
  | invalidateRgn (hwnd hRgn : Nat) (rgnRect : Rect) (bErase : Bool)
  | redrawWindow (hwnd : Nat) (pRect : Option Rect) (hRgnUpdate : Nat) (rgnRect : Rect)
      (uFlags : BitVec 32)
  | validateRectPartial (hwnd : Nat) (pRect : Option Rect)
  | beginPaint2 (hWnd hdc : Nat) (pPs : Bool)

def Update.call (update : Update) : UpdateCall → Update
  | .invalidateRect2 hWnd pRect bErase => (userInvalidateRect2 update hWnd pRect bErase).2
  | .invalidateRgn hwnd hRgn rgnRect bErase =>
      (userInvalidateRgn update hwnd hRgn rgnRect bErase).2
  | .redrawWindow hwnd pRect hRgnUpdate rgnRect uFlags =>
      (userRedrawWindow update hwnd pRect hRgnUpdate rgnRect uFlags).2
  | .validateRectPartial hwnd pRect => updateValidateRectPartial update hwnd pRect
  | .beginPaint2 hWnd hdc pPs => (userBeginPaint2 update hWnd hdc pPs).2.2

/-- The window and the area that a call asks to be painted; no rectangle is the whole window. -/
def invalidates (update : Update) : UpdateCall → Option (Nat × Rect)
  | .invalidateRect2 hWnd pRect _ =>
      if ValidHwnd hWnd then some (hWnd, pRect.getD (update.windows hWnd).rect) else none
  | .invalidateRgn hwnd hRgn rgnRect _ =>
      if ValidHwnd hwnd then
        some (hwnd, if hRgn ≥ 0x1000 then rgnRect else (update.windows hwnd).rect)
      else none
  | .redrawWindow hwnd pRect hRgnUpdate rgnRect uFlags =>
      if ValidHwnd hwnd ∧ uFlags &&& rdwInvalidate ≠ 0 then
        some (hwnd, (combinedRect pRect hRgnUpdate rgnRect).getD (update.windows hwnd).rect)
      else none
  | _ => none

/-- The window and the area that a call validates; no rectangle is all of the window. -/
def validates : UpdateCall → Option (Nat × Option Rect)
  | .redrawWindow hwnd pRect hRgnUpdate rgnRect uFlags =>
      if ValidHwnd hwnd ∧ uFlags &&& rdwInvalidate = 0 then
        some (hwnd, combinedRect pRect hRgnUpdate rgnRect)
      else none
  | .validateRectPartial hwnd (some rect) => some (hwnd, some rect)
  | _ => none

/-- The window and the area that a call hands out to be painted. -/
def paints (update : Update) : UpdateCall → Option (Nat × Rect)
  | .beginPaint2 hWnd hdc pPs =>
      (userBeginPaint2 update hWnd hdc pPs).2.1.map fun ps => (hWnd, ps.rcPaint)
  | _ => none

/-- The windows with, for each, the pixels that were invalidated and since then neither validated
nor handed out. -/
structure Painting where
  update : Update
  pending : Nat → Set (Int × Int)

def Painting.initial (windows : Nat → Window) : Painting := ⟨updateInit windows, fun _ => ∅⟩

/-- The pixels of a window that a call asks to be painted. -/
def invalidated (update : Update) (call : UpdateCall) (window : Nat) : Set (Int × Int) :=
  fun pixel => ∃ rect, invalidates update call = some (window, rect) ∧ pixel ∈ rect.pixels

theorem mem_invalidated {update : Update} {call : UpdateCall} {window : Nat} {pixel : Int × Int} :
    pixel ∈ invalidated update call window ↔
      ∃ rect, invalidates update call = some (window, rect) ∧ pixel ∈ rect.pixels := Iff.rfl

/-- The pixels of a window that a call validates. -/
def validated (call : UpdateCall) (window : Nat) : Set (Int × Int) :=
  fun pixel => ∃ area, validates call = some (window, area) ∧
    ∀ rect, area = some rect → pixel ∈ rect.pixels

/-- The pixels of a window that a call hands out to be painted. -/
def painted (update : Update) (call : UpdateCall) (window : Nat) : Set (Int × Int) :=
  fun pixel => ∃ rect, paints update call = some (window, rect) ∧ pixel ∈ rect.pixels

def Painting.step (painting : Painting) (call : UpdateCall) : Option Painting :=
  some {
    update := painting.update.call call
    pending := fun window =>
      (painting.pending window ∪ invalidated painting.update call window) \
        (validated call window ∪ painted painting.update call window) }

def HasFreeRegion (update : Update) : Prop := ∃ region ∈ update.regions, region.inUse = false

/-- The first region of a window covers its other regions. -/
def FirstCovers (update : Update) (hwnd : Nat) : Prop :=
  ∀ first, update.regions.find? (UpdateRegion.pends hwnd) = some first →
    ∀ region ∈ update.regions, region.pends hwnd → region.rect.pixels ⊆ first.rect.pixels

/-- A call that loses nothing: an invalidation finds a free region, the regions that a validation
of a rectangle releases lie inside the rectangle, and the region that is handed out covers the
other regions of its window. -/
def Lossless (update : Update) : UpdateCall → Prop
  | .invalidateRect2 hWnd _ _ => ValidHwnd hWnd → HasFreeRegion update
  | .invalidateRgn hwnd _ _ _ => ValidHwnd hwnd → HasFreeRegion update
  | .redrawWindow hwnd pRect hRgnUpdate rgnRect uFlags =>
      ValidHwnd hwnd →
        if uFlags &&& rdwInvalidate ≠ 0 then HasFreeRegion update
        else ∀ rect, combinedRect pRect hRgnUpdate rgnRect = some rect →
          ∀ region ∈ update.regions, region.pends hwnd → region.rect.pixels ⊆ rect.pixels
  | .validateRectPartial hwnd pRect =>
      ∀ rect, pRect = some rect → ∀ region ∈ update.regions,
        region.pends hwnd → rect.overlaps region.rect → region.rect.pixels ⊆ rect.pixels
  | .beginPaint2 hWnd _ pPs => pPs → FirstCovers update hWnd

section Regions

variable {update : Update} {hwnd window : Nat} {pixel : Int × Int}

theorem addUpdateRegion_regions (free : HasFreeRegion update) (hwnd : Nat) (pRect : Option Rect)
    (bErase : Bool) : ∃ before found rest, update.regions = before ++ found :: rest ∧
      found.inUse = false ∧ (addUpdateRegion update hwnd pRect bErase).regions =
        before ++ ⟨hwnd, pRect.getD (update.windows hwnd).rect, bErase, true⟩ :: rest := by
  obtain ⟨region, member, unused⟩ := free
  unfold addUpdateRegion
  dsimp only
  cases search : alterFirst (fun region => !region.inUse)
      (fun _ => some (UpdateRegion.mk hwnd (pRect.getD (update.windows hwnd).rect) bErase true))
      update.regions with
  | none =>
    have used := alterFirst_none search region member
    rw [unused] at used
    cases used
  | some altered =>
    obtain ⟨found, after⟩ := altered
    obtain ⟨chosen, before, rest, split, now⟩ := alterFirst_some search
    exact ⟨before, found, rest, split, Bool.not_eq_true' _ |>.mp chosen, now⟩

theorem area_addUpdateRegion (free : HasFreeRegion update) (hwnd : Nat) (pRect : Option Rect)
    (bErase : Bool) (held : pixel ∈ update.area window ∨
      window = hwnd ∧ pixel ∈ (pRect.getD (update.windows hwnd).rect).pixels) :
    pixel ∈ (addUpdateRegion update hwnd pRect bErase).area window := by
  obtain ⟨before, found, rest, split, unused, now⟩ :=
    addUpdateRegion_regions free hwnd pRect bErase
  unfold area
  rw [now]
  rcases held with ⟨region, member, pends, inside⟩ | ⟨rfl, inside⟩
  · refine ⟨region, ?_, pends, inside⟩
    rw [split, mem_append, mem_cons] at member
    rcases member with front | rfl | behind
    · exact mem_append_left _ front
    · unfold UpdateRegion.pends at pends
      rw [unused] at pends
      cases pends
    · exact mem_append_right _ (mem_cons_of_mem _ behind)
  · refine ⟨_, mem_append_right _ mem_cons_self, ?_, inside⟩
    simp [UpdateRegion.pends]

theorem area_releaseRegions (released : UpdateRegion → Bool) (held : pixel ∈ update.area window) :
    pixel ∈ (update.releaseRegions released).area window ∨
      ∃ region ∈ update.regions, released region ∧ region.pends window ∧
        pixel ∈ region.rect.pixels := by
  obtain ⟨region, member, pends, inside⟩ := held
  by_cases gone : released region = true
  · exact .inr ⟨region, member, gone, pends, inside⟩
  · refine .inl ⟨region, List.mem_map.mpr ⟨region, member, if_neg gone⟩, pends, inside⟩

theorem pends_iff (region : UpdateRegion) :
    region.pends hwnd = true ↔ region.inUse = true ∧ region.hwnd = hwnd := by
  unfold UpdateRegion.pends
  rw [Bool.and_eq_true, beq_iff_eq]

/-- A pixel that is in use stays so when `UserBeginPaint2` releases a region, or is in the region
that it hands out. -/
theorem area_userBeginPaint2 (update : Update) (hWnd hdc : Nat) (pPs : Bool)
    (held : pixel ∈ update.area window) :
    pixel ∈ (update.call (.beginPaint2 hWnd hdc pPs)).area window ∨
      pixel ∈ painted update (.beginPaint2 hWnd hdc pPs) window := by
  by_cases valid : ValidHwnd hWnd
  case neg =>
    refine .inl ?_
    simp only [call, userBeginPaint2, if_pos valid]
    exact held
  cases pPs with
  | false =>
    refine .inl ?_
    simp only [call, userBeginPaint2, if_neg (not_not_intro valid)]
    exact held
  | true =>
    cases search : alterFirst (UpdateRegion.pends hWnd) (fun region => some region.release)
        update.regions with
    | none =>
      refine .inl ?_
      simp only [call, userBeginPaint2, if_neg (not_not_intro valid), search]
      exact held
    | some altered =>
      obtain ⟨found, after⟩ := altered
      obtain ⟨chosen, before, rest, split, now⟩ := alterFirst_some search
      obtain ⟨region, member, pends, inside⟩ := held
      rw [split, mem_append, mem_cons] at member
      by_cases isFound : region = found
      · have own := ((pends_iff found).mp chosen).2
        have other := ((pends_iff region).mp pends).2
        rw [isFound] at other inside
        refine .inr ⟨found.rect, ?_, inside⟩
        simp only [paints, userBeginPaint2, if_neg (not_not_intro valid), search]
        rw [← own, ← other]
        rfl
      · have stays : region ∈ after := by
          rw [now]
          rcases member with front | same | behind
          · exact mem_append_left _ front
          · exact absurd same isFound
          · exact mem_append_right _ (mem_cons_of_mem _ behind)
        refine .inl ?_
        simp only [call, userBeginPaint2, if_neg (not_not_intro valid), search]
        exact ⟨region, stays, pends, inside⟩

theorem area_invalidate (free : HasFreeRegion update) (hwnd : Nat) (pRect : Option Rect)
    (bErase : Bool) (held : pixel ∈ update.area window ∨
      ∃ rect, some (hwnd, pRect.getD (update.windows hwnd).rect) = some (window, rect) ∧
        pixel ∈ rect.pixels) :
    pixel ∈ (addUpdateRegion (update.markDirty hwnd bErase) hwnd pRect bErase).area window := by
  have sameRect : ((update.markDirty hwnd bErase).windows hwnd).rect =
      (update.windows hwnd).rect := by
    unfold markDirty setWindow
    dsimp only
    rw [Function.update_self]
    rfl
  have freed : HasFreeRegion (update.markDirty hwnd bErase) := free
  apply area_addUpdateRegion freed
  rcases held with inUse | ⟨rect, same, inside⟩
  · exact .inl inUse
  · cases same
    rw [sameRect]
    exact .inr ⟨rfl, inside⟩

theorem area_validate {released : UpdateRegion → Bool} (area : Set (Int × Int))
    (own : ∀ region, released region → region.pends hwnd)
    (inside : ∀ region ∈ update.regions, released region → region.rect.pixels ⊆ area)
    (held : pixel ∈ update.area window) (outside : window = hwnd → pixel ∉ area) :
    pixel ∈ (update.releaseRegions released).area window := by
  rcases area_releaseRegions released held with stays | ⟨region, member, gone, pends, within⟩
  · exact stays
  · have same : window = hwnd :=
      ((pends_iff region).mp pends).2.symm.trans ((pends_iff region).mp (own region gone)).2
    exact absurd (inside region member gone within) (outside same)

/-- What a call that loses nothing keeps: pixels in use or newly invalidated are in use behind it,
but for what it validates and what it hands out. -/
theorem area_call {call : UpdateCall} (lossless : Lossless update call)
    (held : pixel ∈ update.area window ∨ pixel ∈ invalidated update call window)
    (notValidated : pixel ∉ validated call window)
    (notPainted : pixel ∉ painted update call window) : pixel ∈ (update.call call).area window := by
  cases call with
  | invalidateRect2 hWnd pRect bErase =>
    by_cases valid : ValidHwnd hWnd
    · simp only [mem_invalidated, invalidates, if_pos valid] at held
      simp only [call, userInvalidateRect2, if_neg (not_not_intro valid)]
      exact area_invalidate (lossless valid) hWnd pRect bErase held
    · simp only [mem_invalidated, invalidates, if_neg valid] at held
      simp only [call, userInvalidateRect2, if_pos valid]
      exact held.resolve_right fun ⟨_, asks, _⟩ => by cases asks
  | invalidateRgn hwnd hRgn rgnRect bErase =>
    by_cases valid : ValidHwnd hwnd
    · have sameRect : (if hRgn ≥ 0x1000 then rgnRect else (update.windows hwnd).rect) =
          (if hRgn ≠ 0 ∧ hRgn ≥ 0x1000 then some rgnRect else none).getD
            (update.windows hwnd).rect := by
        by_cases handle : hRgn ≥ 0x1000
        · rw [if_pos handle, if_pos ⟨by omega, handle⟩]
          rfl
        · rw [if_neg handle, if_neg (fun both => handle both.2)]
          rfl
      simp only [mem_invalidated, invalidates, if_pos valid, sameRect] at held
      simp only [call, userInvalidateRgn, if_neg (not_not_intro valid)]
      exact area_invalidate (lossless valid) hwnd _ bErase held
    · simp only [mem_invalidated, invalidates, if_neg valid] at held
      simp only [call, userInvalidateRgn, if_pos valid]
      exact held.resolve_right fun ⟨_, asks, _⟩ => by cases asks
  | redrawWindow hwnd pRect hRgnUpdate rgnRect uFlags =>
    by_cases valid : ValidHwnd hwnd
    case neg =>
      simp only [mem_invalidated, invalidates, valid, false_and, if_false] at held
      simp only [call, userRedrawWindow, if_pos valid]
      exact held.resolve_right fun ⟨_, asks, _⟩ => by cases asks
    have allowed := lossless valid
    by_cases invalidate : uFlags &&& rdwInvalidate ≠ 0
    · rw [if_pos invalidate] at allowed
      simp only [mem_invalidated, invalidates, if_pos (And.intro valid invalidate)] at held
      simp only [call, userRedrawWindow, if_neg (not_not_intro valid), if_pos invalidate]
      exact area_invalidate allowed hwnd _ _ held
    · rw [if_neg invalidate] at allowed
      have validates_eq : validates (.redrawWindow hwnd pRect hRgnUpdate rgnRect uFlags) =
          some (hwnd, combinedRect pRect hRgnUpdate rgnRect) :=
        if_pos ⟨valid, not_not.mp invalidate⟩
      have inUse : pixel ∈ update.area window := by
        refine held.resolve_right fun ⟨_, asks, _⟩ => ?_
        simp only [invalidates, invalidate, and_false, if_false] at asks
        cases asks
      simp only [call, userRedrawWindow, if_neg (not_not_intro valid), if_neg invalidate]
      cases combined : combinedRect pRect hRgnUpdate rgnRect with
      | some rect =>
        rw [combined] at validates_eq
        refine area_validate rect.pixels (fun _ pends => pends) (allowed rect combined) inUse ?_
        rintro rfl inside
        exact notValidated ⟨_, validates_eq, fun _ same => by cases same; exact inside⟩
      | none =>
        rw [combined] at validates_eq
        refine area_validate Set.univ (fun _ pends => pends)
          (fun _ _ _ => Set.subset_univ _) inUse ?_
        rintro rfl inside
        exact notValidated ⟨_, validates_eq, fun _ same => by cases same⟩
  | validateRectPartial hwnd pRect =>
    have inUse : pixel ∈ update.area window :=
      held.resolve_right fun ⟨_, asks, _⟩ => by cases asks
    cases pRect with
    | none => exact inUse
    | some rect =>
      refine area_validate rect.pixels (fun region gone => (Bool.and_eq_true_iff.mp gone).1)
        (fun region member gone => ?_) inUse ?_
      · exact lossless rect rfl region member (Bool.and_eq_true_iff.mp gone).1
          (Bool.and_eq_true_iff.mp gone).2
      · rintro rfl inside
        exact notValidated ⟨_, rfl, fun _ same => by cases same; exact inside⟩
  | beginPaint2 hWnd hdc pPs =>
    have inUse : pixel ∈ update.area window :=
      held.resolve_right fun ⟨_, asks, _⟩ => by cases asks
    exact (area_userBeginPaint2 update hWnd hdc pPs inUse).resolve_right notPainted

end Regions

/-- Every pixel to be painted is in use. -/
def PendingInv (painting : Painting) : Prop :=
  ∀ window, painting.pending window ⊆ painting.update.area window

theorem PendingInv.step {painting next : Painting} {call : UpdateCall} (inv : PendingInv painting)
    (lossless : Lossless painting.update call) (done : painting.step call = some next) :
    PendingInv next := by
  cases done
  rintro window pixel ⟨held, kept⟩
  exact area_call lossless (held.imp_left fun pending => inv window pending)
    (fun valid => kept (.inl valid)) fun paint => kept (.inr paint)

/-- What the next call does: what is handed out has every pixel that is to be painted, and a
validation keeps every pixel in use that it does not validate. -/
structure UpdatesKept (painting : Painting) : Prop where
  paint : ∀ hWnd hdc pPs rect, Lossless painting.update (.beginPaint2 hWnd hdc pPs) →
    paints painting.update (.beginPaint2 hWnd hdc pPs) = some (hWnd, rect) →
    painting.pending hWnd ⊆ rect.pixels
  validate : ∀ call hwnd area, Lossless painting.update call →
    validates call = some (hwnd, area) → ∀ window,
    painting.update.area window \ validated call window ⊆ (painting.update.call call).area window

/-- A paint that is handed out covers what is pending. -/
theorem PendingInv.paint {painting : Painting} (inv : PendingInv painting) {hWnd hdc : Nat}
    {pPs : Bool} {rect : Rect} (covers : pPs → FirstCovers painting.update hWnd)
    (hands : paints painting.update (.beginPaint2 hWnd hdc pPs) = some (hWnd, rect)) :
    painting.pending hWnd ⊆ rect.pixels := by
  intro pixel pending
  obtain ⟨region, member, pends, inside⟩ := inv hWnd pending
  have picked := alterFirst_fst (UpdateRegion.pends hWnd)
    (fun region => some region.release) painting.update.regions
  simp only [paints, userBeginPaint2] at hands
  by_cases valid : ValidHwnd hWnd
  case neg =>
    rw [if_pos valid] at hands
    cases hands
  rw [if_neg (not_not_intro valid)] at hands
  cases pPs with
  | false => cases hands
  | true =>
    cases search : alterFirst (UpdateRegion.pends hWnd) (fun region => some region.release)
        painting.update.regions with
    | none => exact absurd pends (ne_true_of_eq_false (alterFirst_none search region member))
    | some altered =>
      rw [search] at hands picked
      cases hands
      exact covers rfl altered.1 picked.symm region member pends inside

theorem PendingInv.validate {painting : Painting} {call : UpdateCall} {hwnd : Nat}
    {area : Option Rect} (lossless : Lossless painting.update call)
    (validating : validates call = some (hwnd, area)) (window : Nat) :
    painting.update.area window \ validated call window ⊆
      (painting.update.call call).area window := by
  rintro pixel ⟨inUse, outside⟩
  refine area_call lossless (.inl inUse) outside ?_
  rintro ⟨rect, hands, -⟩
  cases call with
  | beginPaint2 hWnd hdc pPs => cases validating
  | _ => cases hands

/-- In runs of calls that lose nothing, every pixel to be painted is handed out by the next paint
of its window, and a validation drops no pixel outside what it validates. -/
theorem updatesKept_of_lossless {windows : Nat → Window} {painting : Painting}
    (run : Transition.Reaches Painting.step (fun painting => Lossless painting.update)
      (.initial windows) painting) : UpdatesKept painting := by
  have inv : PendingInv painting := run.invariant (fun _ => Set.empty_subset _)
    fun _ _ _ inv lossless done => inv.step lossless done
  constructor
  case paint => exact fun hWnd hdc pPs rect covers hands => inv.paint covers hands
  case validate =>
    exact fun call hwnd area lossless validating window =>
      PendingInv.validate lossless validating window

/-- A rectangle of a window is invalidated and painted. -/
theorem updatesKept_of_lossless_painted : ∃ painting,
    Transition.runFrom Painting.step (.initial fun _ => ⟨0, 0, 100, 100, false, false⟩)
      [.invalidateRect2 0x1000 (some ⟨0, 0, 10, 10⟩) true, .beginPaint2 0x1000 0 true] =
        some painting ∧ UpdatesKept painting := by
  refine ⟨_, rfl, @updatesKept_of_lossless (fun _ => ⟨0, 0, 100, 100, false, false⟩) _ ?_⟩
  have begun : Transition.Reaches Painting.step (fun painting => Lossless painting.update)
    (.initial fun _ => ⟨0, 0, 100, 100, false, false⟩) _ := .start
  have first := begun.step (show Lossless _ (.invalidateRect2 0x1000 (some ⟨0, 0, 10, 10⟩) true)
    from fun _ => ⟨_, mem_cons_self, rfl⟩) rfl
  refine first.step (show Lossless _ (.beginPaint2 0x1000 0 true) from ?_) rfl
  intro _ first found region member pends
  cases found
  rcases mem_cons.mp member with rfl | other
  · exact Set.Subset.rfl
  · rw [eq_of_mem_replicate (show region ∈ replicate 63 _ from other)] at pends
    cases pends

/-- Two rectangles of a window are invalidated, and only the first is handed out. -/
theorem not_updatesKept : ∃ painting rect,
    Transition.runFrom Painting.step (.initial fun _ => ⟨0, 0, 100, 100, false, false⟩)
      [.invalidateRect2 0x1000 (some ⟨0, 0, 10, 10⟩) true,
        .invalidateRect2 0x1000 (some ⟨50, 50, 60, 60⟩) true] = some painting ∧
    paints painting.update (.beginPaint2 0x1000 0 true) = some (0x1000, rect) ∧
    (50, 50) ∈ painting.pending 0x1000 ∧ (50, 50) ∉ rect.pixels := by
  refine ⟨_, _, rfl, rfl, ⟨.inr ⟨⟨50, 50, 60, 60⟩, rfl, ?_⟩, ?_⟩, ?_⟩
  · unfold Rect.pixels
    constructor <;> decide
  · rintro (⟨_, asks, -⟩ | ⟨_, asks, -⟩)
    · cases asks
    · cases asks
  · rintro ⟨-, right, -⟩
    revert right
    decide

end MinNT.Win32k
