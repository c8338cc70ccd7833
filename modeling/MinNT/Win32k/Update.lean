import Mathlib.Data.Set.Basic
import MinNT.Lib.ChainedTable
import MinNT.NtStatus

/-! Window invalidation in `win32k/update.c`: one table of 64 rectangles for all windows. The
`WM_PAINT` message that an invalidation posts is left out. -/

namespace MinNT.Win32k

open ChainedTable

def maxUpdateRegions : Nat := 64

def rdwInvalidate : BitVec 32 := 0x0001#32
def rdwErase : BitVec 32 := 0x0004#32

/-- The value of a `LONG` that is assigned a sum. -/
def toLong (value : Int) : Int := value.bmod (2 ^ 32)

/-- A `W32K_RECT`. -/
structure Rect where
  left : Int
  top : Int
  right : Int
  bottom : Int
deriving DecidableEq, Repr

structure UpdateRegion where
  hwnd : Nat
  rect : Rect
  needsErase : Bool
  inUse : Bool
deriving DecidableEq, Repr

/-- What of a `WINDOW` its painting uses. -/
structure Window where
  x : Int
  y : Int
  cx : Int
  cy : Int
  dirty : Bool
  erasebg : Bool
deriving DecidableEq, Repr

/-- `g_UpdateRegions` and the windows, whose handles are their addresses. -/
structure Update where
  regions : List UpdateRegion
  windows : Nat → Window

/-- What `UserBeginPaint2` fills of a `W32K_PAINTSTRUCT`. -/
structure PaintStruct where
  hdc : Nat
  fErase : Bool
  rcPaint : Rect
deriving DecidableEq, Repr

/-- `UpdateInit` with windows created. -/
def updateInit (windows : Nat → Window) : Update :=
  ⟨List.replicate maxUpdateRegions ⟨0, ⟨0, 0, 0, 0⟩, false, false⟩, windows⟩

def Window.rect (window : Window) : Rect :=
  ⟨window.x, window.y, toLong (window.x + window.cx), toLong (window.y + window.cy)⟩

def Update.setWindow (update : Update) (hwnd : Nat) (window : Window) : Update :=
  { update with windows := Function.update update.windows hwnd window }

/-- `W32K_VALIDATE_HWND` accepts a handle. -/
def ValidHwnd (hwnd : Nat) : Prop := 0x1000 ≤ hwnd

instance (hwnd : Nat) : Decidable (ValidHwnd hwnd) := inferInstanceAs (Decidable (_ ≤ _))

/-- The region is in use for the window. -/
def UpdateRegion.pends (hwnd : Nat) (region : UpdateRegion) : Bool :=
  region.inUse && region.hwnd == hwnd

def UpdateRegion.release (region : UpdateRegion) : UpdateRegion := { region with inUse := false }

/-- Nothing is added when no region is free. -/
def addUpdateRegion (update : Update) (hwnd : Nat) (pRect : Option Rect) (bErase : Bool) :
    Update :=
  let rect := pRect.getD (update.windows hwnd).rect
  match alterFirst (fun region => !region.inUse) (fun _ => some ⟨hwnd, rect, bErase, true⟩)
      update.regions with
  | some (_, regions) => { update with regions := regions }
  | none => update

/-- The test of `UpdateValidateRectPartial`. -/
def Rect.overlaps (rect other : Rect) : Bool :=
  !(rect.right ≤ other.left || rect.left ≥ other.right || rect.bottom ≤ other.top ||
    rect.top ≥ other.bottom)

/-- The regions that a test picks are no longer in use. -/
def Update.releaseRegions (update : Update) (released : UpdateRegion → Bool) : Update :=
  { update with regions := update.regions.map fun region =>
      if released region then region.release else region }

def updateValidateRectPartial (update : Update) (hwnd : Nat) (pRect : Option Rect) : Update :=
  match pRect with
  | none => update
  | some rect => update.releaseRegions fun region => region.pends hwnd && rect.overlaps region.rect

def clearUpdateRegions (update : Update) (hwnd : Nat) : Update :=
  update.releaseRegions (UpdateRegion.pends hwnd)

/-- The window is dirty, and its background is erased if `bErase` says so. -/
def Update.markDirty (update : Update) (hwnd : Nat) (bErase : Bool) : Update :=
  let window := update.windows hwnd
  update.setWindow hwnd { window with dirty := true, erasebg := window.erasebg || bErase }

/-- `UserInvalidateRgn`; `rgnRect` is what stands at the address `hRgn`. -/
def userInvalidateRgn (update : Update) (hwnd hRgn : Nat) (rgnRect : Rect) (bErase : Bool) :
    NtStatus × Update :=
  if ¬ ValidHwnd hwnd then (statusInvalidHandle, update)
  else
    let pRect := if hRgn ≠ 0 ∧ hRgn ≥ 0x1000 then some rgnRect else none
    (statusSuccess, addUpdateRegion (update.markDirty hwnd bErase) hwnd pRect bErase)

def userInvalidateRect2 (update : Update) (hWnd : Nat) (pRect : Option Rect) (bErase : Bool) :
    NtStatus × Update :=
  if ¬ ValidHwnd hWnd then (statusInvalidHandle, update)
  else (statusSuccess, addUpdateRegion (update.markDirty hWnd bErase) hWnd pRect bErase)

/-- `UserBeginPaint2`, with the device context that `UserGetDC` returns; `pPs` may be null. -/
def userBeginPaint2 (update : Update) (hWnd hdc : Nat) (pPs : Bool) :
    NtStatus × Option PaintStruct × Update :=
  if ¬ ValidHwnd hWnd then (statusInvalidHandle, none, update)
  else if !pPs then (statusInvalidParameter, none, update)
  else
    let window := update.windows hWnd
    let clean := update.setWindow hWnd { window with dirty := false, erasebg := false }
    match alterFirst (UpdateRegion.pends hWnd) (fun region => some region.release)
        update.regions with
    | some (region, regions) =>
        (BitVec.ofNat 32 hdc, some ⟨hdc, window.erasebg, region.rect⟩,
          { clean with regions := regions })
    | none => (BitVec.ofNat 32 hdc, some ⟨hdc, window.erasebg, window.rect⟩, clean)

/-- The rectangle that `UserRedrawWindow` works on, `none` if it has none (`hasRect`). -/
def combinedRect (pRect : Option Rect) (hRgnUpdate : Nat) (rgnRect : Rect) : Option Rect :=
  match pRect with
  | some rect => some rect
  | none => if hRgnUpdate ≠ 0 ∧ hRgnUpdate ≥ 0x1000 then some rgnRect else none

/-- A call without `RDW_INVALIDATE` validates. -/
def userRedrawWindow (update : Update) (hwnd : Nat) (pRect : Option Rect) (hRgnUpdate : Nat)
    (rgnRect : Rect) (uFlags : BitVec 32) : NtStatus × Update :=
  if ¬ ValidHwnd hwnd then (statusInvalidHandle, update)
  else
    let erase := uFlags &&& rdwErase ≠ 0
    if uFlags &&& rdwInvalidate ≠ 0 then
      (statusSuccess, addUpdateRegion (update.markDirty hwnd erase) hwnd
        (combinedRect pRect hRgnUpdate rgnRect) erase)
    else
      let window := update.windows hwnd
      let clean := update.setWindow hwnd { window with dirty := false, erasebg := false }
      -- both branches of `hasRect` release every region of the window
      match combinedRect pRect hRgnUpdate rgnRect with
      | some _ => (statusSuccess, clean.releaseRegions (UpdateRegion.pends hwnd))
      | none => (statusSuccess, clearUpdateRegions clean hwnd)

end MinNT.Win32k
