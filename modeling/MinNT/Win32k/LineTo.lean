import Mathlib.Algebra.Order.Field.Basic
import Mathlib.Algebra.Order.Field.Rat
import Mathlib.Algebra.Order.Ring.Abs
import Mathlib.Tactic.FieldSimp
import Mathlib.Tactic.Linarith
import Mathlib.Tactic.Ring
import MinNT.NtStatus

/-! A walk over the points of a grid that keeps to a segment by an error term. -/

namespace LineWalk

open List

/-- One step of the walk to `(dx, dy)`: along either axis, or both, by twice the distance from the
segment. -/
def next (dx dy : Int) (p : Int × Int) : Int × Int :=
  (if dy - 2 * dx < 2 * (dx * p.2 - dy * p.1) then p.1 + 1 else p.1,
    if 2 * (dx * p.2 - dy * p.1) < 2 * dy - dx then p.2 + 1 else p.2)

/-- The points from `p` on, for a number of steps. -/
def points (dx dy : Int) : Nat → Int × Int → List (Int × Int)
  | 0, p => [p]
  | steps + 1, p => p :: points dx dy steps (next dx dy p)

/-- Where the walk is after `steps` steps: as far along the major axis, and within half a unit of
the segment along the other one. -/
structure At (dx dy steps : Int) (p : Int × Int) : Prop where
  near : |2 * (dx * p.2 - dy * p.1)| ≤ max dx dy
  flat : dy ≤ dx → p.1 = steps
  steep : dx ≤ dy → p.2 = steps
  first : 0 ≤ p.1 ∧ p.1 ≤ steps
  second : 0 ≤ p.2 ∧ p.2 ≤ steps

section Walk

variable {dx dy steps : Int} {p : Int × Int}

theorem at_start (dx dy : Int) (wide : 0 ≤ dx) : At dx dy 0 (0, 0) := by
  constructor
  · simp only [mul_zero, sub_zero, abs_zero]
    exact le_max_of_le_left wide
  · exact fun _ => rfl
  · exact fun _ => rfl
  · exact ⟨le_refl 0, le_refl 0⟩
  · exact ⟨le_refl 0, le_refl 0⟩

/-- One step of the loop stays at its point of the line. -/
theorem At.next (here : At dx dy steps p) (wide : 0 ≤ dx) (high : 0 ≤ dy)
    (before : steps < max dx dy) : At dx dy (steps + 1) (next dx dy p) := by
  obtain ⟨near, flat, steep, ⟨i0, i1⟩, j0, j1⟩ := here
  obtain ⟨i, j⟩ := p
  dsimp only at near flat steep i0 i1 j0 j1
  have both := abs_le.mp near
  unfold LineWalk.next
  dsimp only
  generalize error : dx * j - dy * i = d at both ⊢
  have right : dx * j - dy * (i + 1) = d - dy := by rw [← error]; ring
  have up : dx * (j + 1) - dy * i = d + dx := by rw [← error]; ring
  have diagonal : dx * (j + 1) - dy * (i + 1) = d + dx - dy := by rw [← error]; ring
  rcases lt_trichotomy dx dy with less | equal | more
  · -- Steep: always up, and to the right if the error asks for it.
    rw [max_eq_right less.le] at both before
    have vertical : 2 * d < 2 * dy - dx := by omega
    rw [if_pos vertical]
    split
    · refine ⟨?_, by omega, by intro _; have := steep less.le; omega, by omega, by omega⟩
      rw [max_eq_right less.le]
      rw [diagonal, abs_le]
      omega
    · refine ⟨?_, by omega, by intro _; have := steep less.le; omega, by omega, by omega⟩
      rw [max_eq_right less.le]
      rw [up, abs_le]
      omega
  · -- On the diagonal there is no error.
    subst equal
    have none : d = 0 := by
      rw [← error, flat (le_refl _), steep (le_refl _), sub_self]
    rw [max_self] at before
    rw [if_pos (by omega), if_pos (by omega)]
    refine ⟨?_, ?_, ?_, by omega, by omega⟩
    · rw [max_self]
      rw [diagonal, abs_le]
      omega
    · intro _
      have := flat (le_refl _)
      omega
    · intro _
      have := steep (le_refl _)
      omega
  · -- Flat: always to the right, and up if the error asks for it.
    rw [max_eq_left more.le] at both before
    have horizontal : dy - 2 * dx < 2 * d := by omega
    rw [if_pos horizontal]
    split
    · refine ⟨?_, by intro _; have := flat more.le; omega, by omega, by omega, by omega⟩
      rw [max_eq_left more.le]
      rw [diagonal, abs_le]
      omega
    · refine ⟨?_, by intro _; have := flat more.le; omega, by omega, by omega, by omega⟩
      rw [max_eq_left more.le]
      rw [right, abs_le]
      omega

theorem eq_zero_of_half {number factor : Int} (positive : 0 < number)
    (small : |2 * (number * factor)| ≤ number) : factor = 0 := by
  by_contra nonzero
  have one : 1 ≤ |factor| := Int.one_le_abs nonzero
  have whole : number * 1 ≤ number * |factor| := mul_le_mul_of_nonneg_left one positive.le
  rw [abs_mul, abs_mul, abs_of_pos positive, abs_two] at small
  omega

theorem At.finish (here : At dx dy (max dx dy) p) (wide : 0 ≤ dx) (high : 0 ≤ dy) :
    p = (dx, dy) := by
  obtain ⟨near, flat, steep, ⟨i0, i1⟩, j0, j1⟩ := here
  obtain ⟨i, j⟩ := p
  dsimp only at near flat steep i0 i1 j0 j1
  rcases le_total dy dx with less | more
  · rw [max_eq_left less] at near flat i1 j1
    obtain rfl := flat less
    rcases eq_or_lt_of_le wide with zero | positive
    · rw [← zero] at j1 less ⊢
      rw [show j = 0 by omega, show dy = 0 by omega]
    · have rest := eq_zero_of_half positive (by
        rw [show i * (j - dy) = i * j - dy * i by ring]
        exact near)
      rw [show j = dy by omega]
  · rw [max_eq_right more] at near steep i1 j1
    obtain rfl := steep more
    rcases eq_or_lt_of_le high with zero | positive
    · rw [← zero] at i1 more ⊢
      rw [show i = 0 by omega, show dx = 0 by omega]
    · have rest := eq_zero_of_half positive (by
        rw [show j * (dx - i) = dx * j - j * i by ring]
        exact near)
      rw [show i = dx by omega]

theorem At.ne_end (here : At dx dy steps p) (before : steps < max dx dy) : p ≠ (dx, dy) := by
  rintro rfl
  rcases le_total dy dx with less | more
  · rw [max_eq_left less] at before
    have there := here.flat less
    dsimp only at there
    omega
  · rw [max_eq_right more] at before
    have there := here.steep more
    dsimp only at there
    omega

theorem next_step (dx dy : Int) (p : Int × Int) :
    ((next dx dy p).1 = p.1 ∨ (next dx dy p).1 = p.1 + 1) ∧
      ((next dx dy p).2 = p.2 ∨ (next dx dy p).2 = p.2 + 1) := by
  unfold next
  constructor <;> dsimp only <;> split <;> simp

end Walk

end LineWalk

namespace MinNT.Gdi

open List

/-- The attributes of `DC_ATTR` that a new DC is given. -/
structure DcAttr where
  textColor : Nat
  backColor : Nat
  bkMode : Nat
  oldRop2 : Nat
deriving DecidableEq, Repr

/-- `SURFACE`, with the `ULONG`s from `pvBits` on. -/
structure Surface where
  sizlBitmapCx : Int
  sizlBitmapCy : Int
  lDelta : Int
  iFormat : Nat
  fjBitmap : Nat
  pvBits : Option (Int → Nat)

structure BaseDc where
  type : Nat
  pdcattr : Option DcAttr
  psurface : Option Surface
  fl : Nat

def bkOpaque : Nat := 2
def r2Copypen : Nat := 13
def dcFlagMemory : Nat := 0x00000001
def dcFlagDirtyRasterCaps : Nat := 0x00008000

/-- Which of the allocations for a new DC the pool grants. -/
structure DcMemory where
  dc : Bool
  attributes : Bool
  surface : Bool
  bits : Bool

def gdiAllocDC (memory : DcMemory) : Option BaseDc :=
  if memory.dc ∧ memory.attributes then
    some ⟨4, some ⟨0x00000000, 0x00FFFFFF, bkOpaque, r2Copypen⟩, none, 0⟩
  else none

/-- The attributes of the source, if it is a DC; otherwise those of the new one. -/
def copyAttributes (src : Option BaseDc) (attributes : Option DcAttr) : Option DcAttr :=
  match src, attributes with
  | some src, some own => if src.type = 4 then some (src.pdcattr.getD own) else some own
  | _, attributes => attributes

def gdiCreateCompatibleDC (memory : DcMemory) (src : Option BaseDc) : Except NtStatus BaseDc :=
  match gdiAllocDC memory with
  | none => .error statusNoMemory
  | some newDc =>
      if ¬ (memory.surface ∧ memory.bits) then .error statusNoMemory
      else .ok ⟨newDc.type, copyAttributes src newDc.pdcattr,
        some ⟨1024, 768, 1024 * 4, 0x18, 0xCC, some fun _ => 0⟩,
        dcFlagMemory ||| dcFlagDirtyRasterCaps⟩

/-- A result of `LONG` arithmetic; it has none outside of 32 bits. -/
def long (number : Int) : Option Int :=
  if -2 ^ 31 ≤ number ∧ number < 2 ^ 31 then some number else none

/-- The end of the line, and what does not change on the way to it. -/
structure LineEnd where
  x1 : Int
  y1 : Int
  dx : Int
  dy : Int
  sx : Int
  sy : Int

structure LineState where
  x0 : Int
  y0 : Int
  err : Int

/-- Why a bounded run of the loop has not ended: a sum had no value, or there were more steps. -/
inductive LineStop where
  | overflow
  | running
deriving DecidableEq, Repr

/-- `(x1 > x0) ? (x1 - x0) : (x0 - x1)`, from 0. -/
def distance (x1 : Int) : Option Int := if x1 > 0 then long (x1 - 0) else long (0 - x1)

/-- The `int`s before the loop. -/
def lineEnd (x y : Int) : Option (LineEnd × LineState) := do
  let dx ← distance x
  let dy ← distance y
  let err ← long (dx - dy)
  return (⟨x, y, dx, dy, if 0 < x then 1 else -1, if 0 < y then 1 else -1⟩, ⟨0, 0, err⟩)

/-- `err -= dy; x0 += sx;` -/
def stepX (line : LineEnd) (state : LineState) : Option LineState := do
  let err ← long (state.err - line.dy)
  let x0 ← long (state.x0 + line.sx)
  return ⟨x0, state.y0, err⟩

/-- `err += dx; y0 += sy;` -/
def stepY (line : LineEnd) (state : LineState) : Option LineState := do
  let err ← long (state.err + line.dx)
  let y0 ← long (state.y0 + line.sy)
  return ⟨state.x0, y0, err⟩

/-- What the loop does behind its exit. -/
def lineStep (line : LineEnd) (state : LineState) : Option LineState := do
  let e2 ← long (2 * state.err)
  let least ← long (-line.dy)
  let state ← if e2 > least then stepX line state else some state
  if e2 < line.dx then stepY line state else some state

/-- The point is inside the surface. -/
def Surface.Inside (surface : Surface) (x0 y0 : Int) : Prop :=
  x0 ≥ 0 ∧ x0 < surface.sizlBitmapCx ∧ y0 ≥ 0 ∧ y0 < surface.sizlBitmapCy

instance (surface : Surface) (x0 y0 : Int) : Decidable (surface.Inside x0 y0) :=
  inferInstanceAs (Decidable (_ ∧ _))

/-- Writes the pixel of a point inside the surface. -/
def plot (surface : Surface) (color : Nat) (x0 y0 : Int) (pixels : Int → Nat) :
    Option (Int → Nat) :=
  if surface.Inside x0 y0 then do
    let stride := surface.lDelta.tdiv 4
    let index ← long ((← long (y0 * stride)) + x0)
    return fun other => if other = index then color else pixels other
  else some pixels

/-- The loop, for at most `fuel` of its turns: the points it visited, and the pixels. -/
def lineLoop (surface : Surface) (line : LineEnd) (color : Nat) :
    Nat → LineState → (Int → Nat) → Except LineStop (List (Int × Int) × (Int → Nat))
  | 0, _, _ => .error .running
  | fuel + 1, state, pixels =>
      match plot surface color state.x0 state.y0 pixels with
      | none => .error .overflow
      | some pixels =>
          if state.x0 = line.x1 ∧ state.y0 = line.y1 then .ok ([(state.x0, state.y0)], pixels)
          else
            match lineStep line state with
            | none => .error .overflow
            | some next =>
                (lineLoop surface line color fuel next pixels).map fun rest =>
                  ((state.x0, state.y0) :: rest.1, rest.2)

/-- The status, the points that the loop visited, and the DC. -/
structure LineTo where
  status : NtStatus
  visited : List (Int × Int)
  hdc : Option BaseDc

/-- `GdiLineTo`, for at most `fuel` turns of its loop. -/
def gdiLineTo (fuel : Nat) (hdc : Option BaseDc) (x y : Int) : Except LineStop LineTo :=
  match hdc with
  | none => .ok ⟨statusInvalidParameter, [], none⟩
  | some dc =>
      match dc.psurface with
      | none => .ok ⟨statusInvalidParameter, [], some dc⟩
      | some surface =>
          match surface.pvBits with
          | none => .ok ⟨statusInvalidParameter, [], some dc⟩
          | some pixels =>
              let color := (dc.pdcattr.map DcAttr.textColor).getD 0x00000000
              match lineEnd x y with
              | none => .error .overflow
              | some (line, start) =>
                  (lineLoop surface line color fuel start pixels).map fun drawn =>
                    ⟨statusSuccess, drawn.1, some { dc with
                      psurface := some { surface with pvBits := some drawn.2 } }⟩

/-- The dimensions that `GdiCreateCompatibleDC` gives to a surface. -/
structure MadeSurface (surface : Surface) : Prop where
  cx : surface.sizlBitmapCx = 1024
  cy : surface.sizlBitmapCy = 768
  delta : surface.lDelta = 4096

theorem gdiCreateCompatibleDC_made {memory : DcMemory} {src : Option BaseDc} {dc : BaseDc}
    (made : gdiCreateCompatibleDC memory src = .ok dc) :
    ∃ surface, dc.psurface = some surface ∧ MadeSurface surface ∧
      surface.pvBits = some fun _ => 0 := by
  unfold gdiCreateCompatibleDC at made
  split at made
  · cases made
  · split at made
    · cases made
    · cases made
      exact ⟨_, rfl, ⟨rfl, rfl, rfl⟩, rfl⟩

/-- On the segment from `(0, 0)` to `(x, y)` there is a point with the same coordinate along the
major axis, at most half a pixel away along the minor axis. -/
def NearSegment (x y : Int) (point : Int × Int) : Prop :=
  ∃ t : ℚ, 0 ≤ t ∧ t ≤ 1 ∧
    if |y| ≤ |x| then t * x = point.1 ∧ |point.2 - t * y| ≤ 1 / 2
    else t * y = point.2 ∧ |point.1 - t * x| ≤ 1 / 2

def Neighbours (before after : Int × Int) : Prop :=
  |after.1 - before.1| ≤ 1 ∧ |after.2 - before.2| ≤ 1

/-- The points visited are a line to `(x, y)`, and those inside the surface are what has been
drawn. -/
structure LineDrawn (x y : Int) (color : Nat) (before after : Int → Nat)
    (visited : List (Int × Int)) : Prop where
  steps : visited.length = (max |x| |y|).toNat + 1
  first : visited.head? = some (0, 0)
  last : visited.getLast? = some (x, y)
  neighbours : visited.IsChain Neighbours
  near : ∀ point ∈ visited, NearSegment x y point
  inside : ∀ a b, 0 ≤ a → a < 1024 → 0 ≤ b → b < 768 →
    after (b * 1024 + a) = if (a, b) ∈ visited then color else before (b * 1024 + a)
  outside : ∀ index, index < 0 ∨ 1024 * 768 ≤ index → after index = before index

/-- `sx` and `sy`. -/
def direction (x : Int) : Int := if 0 < x then 1 else -1

theorem direction_abs (x : Int) : direction x * |x| = x := by
  unfold direction
  split
  · rename_i positive
    rw [abs_of_pos positive, one_mul]
  · rename_i negative
    rw [abs_of_nonpos (not_lt.mp negative), neg_mul_neg, one_mul]

theorem direction_or (x : Int) : direction x = 1 ∨ direction x = -1 := by
  unfold direction
  split
  · exact .inl rfl
  · exact .inr rfl

def lineOf (x y : Int) : LineEnd := ⟨x, y, |x|, |y|, direction x, direction y⟩

/-- The state in which the walk is at `p`. -/
def stateAt (x y : Int) (p : Int × Int) : LineState :=
  ⟨direction x * p.1, direction y * p.2, |x| - |y| + (|x| * p.2 - |y| * p.1)⟩

theorem long_eq {number : Int} (least : -2 ^ 31 ≤ number) (most : number < 2 ^ 31) :
    long number = some number :=
  if_pos ⟨least, most⟩

section Turn

variable {x y steps : Int} {p : Int × Int}

theorem direction_step {i : Int} (low : 0 ≤ i) (high : i < 2 ^ 30) :
    long (direction x * i + direction x) = some (direction x * (i + 1)) := by
  rw [mul_add_one]
  rcases direction_or x with ahead | back
  · rw [ahead]
    exact long_eq (by omega) (by omega)
  · rw [back]
    exact long_eq (by omega) (by omega)

theorem stepX_eq {i y0 err x1 y1 dx dy sy : Int} (low : 0 ≤ i) (high : i < 2 ^ 30)
    (least : -2 ^ 31 ≤ err - dy) (most : err - dy < 2 ^ 31) :
    stepX ⟨x1, y1, dx, dy, direction x, sy⟩ ⟨direction x * i, y0, err⟩ =
      some ⟨direction x * (i + 1), y0, err - dy⟩ := by
  unfold stepX
  dsimp only
  rw [long_eq least most, direction_step low high]
  rfl

theorem stepY_eq {j x0 err x1 y1 dx dy sx : Int} (low : 0 ≤ j) (high : j < 2 ^ 30)
    (least : -2 ^ 31 ≤ err + dx) (most : err + dx < 2 ^ 31) :
    stepY ⟨x1, y1, dx, dy, sx, direction y⟩ ⟨x0, direction y * j, err⟩ =
      some ⟨x0, direction y * (j + 1), err + dx⟩ := by
  unfold stepY
  dsimp only
  rw [long_eq least most, direction_step low high]
  rfl

theorem lineEnd_eq (hx : |x| ≤ 2 ^ 29) (hy : |y| ≤ 2 ^ 29) :
    lineEnd x y = some (lineOf x y, stateAt x y (0, 0)) := by
  have size : ∀ z : Int, |z| ≤ 2 ^ 29 → distance z = some |z| := by
    intro z small
    obtain ⟨least, most⟩ := abs_le.mp small
    unfold distance
    split
    · rename_i positive
      rw [abs_of_pos positive, sub_zero, long_eq (by omega) (by omega)]
    · rename_i negative
      rw [abs_of_nonpos (not_lt.mp negative), zero_sub, long_eq (by omega) (by omega)]
  have hx' := abs_nonneg x
  have hy' := abs_nonneg y
  unfold lineEnd
  rw [size x hx, size y hy]
  dsimp only [bind, Option.bind]
  rw [long_eq (by omega) (by omega)]
  simp [lineOf, stateAt, direction]

theorem lineStep_walk {x1 y1 dx dy : Int} (narrow : dx ≤ 2 ^ 29) (low : dy ≤ 2 ^ 29) (wide : 0 ≤ dx)
    (high : 0 ≤ dy) (here : LineWalk.At dx dy steps p) (before : steps < max dx dy) :
    lineStep ⟨x1, y1, dx, dy, direction x, direction y⟩
        ⟨direction x * p.1, direction y * p.2, dx - dy + (dx * p.2 - dy * p.1)⟩ =
      some ⟨direction x * (LineWalk.next dx dy p).1, direction y * (LineWalk.next dx dy p).2,
        dx - dy + (dx * (LineWalk.next dx dy p).2 - dy * (LineWalk.next dx dy p).1)⟩ := by
  obtain ⟨near, -, -, ⟨i0, i1⟩, j0, j1⟩ := here
  obtain ⟨i, j⟩ := p
  dsimp only at near i0 i1 j0 j1
  obtain ⟨least, most⟩ := abs_le.mp near
  unfold lineStep LineWalk.next
  dsimp only
  have right : dx * j - dy * (i + 1) = dx * j - dy * i - dy := by ring
  have up : dx * (j + 1) - dy * i = dx * j - dy * i + dx := by ring
  have diagonal : dx * (j + 1) - dy * (i + 1) = dx * j - dy * i - dy + dx := by ring
  generalize error : dx * j - dy * i = d at *
  have atX : 2 * (dx - dy + d) > -dy ↔ dy - 2 * dx < 2 * d := by omega
  have atY : 2 * (dx - dy + d) < dx ↔ 2 * d < 2 * dy - dx := by omega
  rw [long_eq (by omega) (by omega), long_eq (by omega) (by omega)]
  dsimp only [bind, Option.bind]
  by_cases goesX : dy - 2 * dx < 2 * d
  · rw [if_pos (atX.mpr goesX), if_pos goesX, stepX_eq i0 (by omega) (by omega) (by omega)]
    dsimp only
    by_cases goesY : 2 * d < 2 * dy - dx
    · rw [if_pos (atY.mpr goesY), if_pos goesY, stepY_eq j0 (by omega) (by omega) (by omega),
        diagonal]
      simp only [add_sub_assoc, add_assoc]
    · rw [if_neg (mt atY.mp goesY), if_neg goesY, right, add_sub_assoc]
  · rw [if_neg (mt atX.mp goesX), if_neg goesX]
    by_cases goesY : 2 * d < 2 * dy - dx
    · rw [if_pos (atY.mpr goesY), if_pos goesY, stepY_eq j0 (by omega) (by omega) (by omega), up,
        add_assoc]
    · rw [if_neg (mt atY.mp goesY), if_neg goesY, error]

theorem lineStep_eq (hx : |x| ≤ 2 ^ 29) (hy : |y| ≤ 2 ^ 29)
    (here : LineWalk.At |x| |y| steps p) (before : steps < max |x| |y|) :
    lineStep (lineOf x y) (stateAt x y p) = some (stateAt x y (LineWalk.next |x| |y| p)) :=
  lineStep_walk hx hy (abs_nonneg x) (abs_nonneg y) here before

theorem stateAt_end_iff : ((stateAt x y p).x0 = (lineOf x y).x1 ∧
    (stateAt x y p).y0 = (lineOf x y).y1) ↔ p = (|x|, |y|) := by
  have cancel : ∀ z i : Int, direction z * i = z ↔ i = |z| := by
    intro z i
    have whole := direction_abs z
    rcases direction_or z with h | h <;> rw [h] at whole ⊢ <;> omega
  rw [Prod.ext_iff, ← cancel x, ← cancel y]
  rfl

end Turn

/-- The point is one of the screen of 1024 by 768. -/
def OnScreen (point : Int × Int) : Prop :=
  0 ≤ point.1 ∧ point.1 < 1024 ∧ 0 ≤ point.2 ∧ point.2 < 768

instance (point : Int × Int) : Decidable (OnScreen point) :=
  inferInstanceAs (Decidable (_ ∧ _))

def plotted (color : Nat) (pixels : Int → Nat) (point : Int × Int) : Int → Nat :=
  if OnScreen point then fun other =>
    if other = point.2 * 1024 + point.1 then color else pixels other
  else pixels

section Pixels

variable {surface : Surface} {color : Nat} {pixels : Int → Nat}

theorem plot_eq (made : MadeSurface surface) (a b : Int) :
    plot surface color a b pixels = some (plotted color pixels (a, b)) := by
  have same : surface.Inside a b ↔ OnScreen (a, b) := by
    rw [Surface.Inside, made.cx, made.cy]
    rfl
  unfold plot plotted
  by_cases inside : OnScreen (a, b)
  · rw [if_pos (same.mpr inside), if_pos inside]
    unfold OnScreen at inside
    dsimp only at inside
    have stride : surface.lDelta.tdiv 4 = 1024 := by
      rw [made.delta]
      rfl
    simp only [stride]
    rw [long_eq (by omega) (by omega)]
    dsimp only [bind, Option.bind]
    rw [long_eq (by omega) (by omega)]
    rfl
  · rw [if_neg (mt same.mp inside), if_neg inside]

theorem plotAll_inside (visited : List (Int × Int)) {a b : Int} (inside : OnScreen (a, b)) :
    visited.foldl (plotted color) pixels (b * 1024 + a) =
      if (a, b) ∈ visited then color else pixels (b * 1024 + a) := by
  induction visited generalizing pixels with
  | nil => simp
  | cons point rest ih =>
    rw [foldl_cons, ih]
    by_cases later : (a, b) ∈ rest
    · rw [if_pos later, if_pos (mem_cons_of_mem _ later)]
    rw [if_neg later]
    have here : b * 1024 + a = point.2 * 1024 + point.1 ∧ OnScreen point ↔ (a, b) = point := by
      constructor
      · rintro ⟨index, there⟩
        unfold OnScreen at inside there
        dsimp only at inside
        exact Prod.ext (by dsimp only; omega) (by dsimp only; omega)
      · rintro rfl
        exact ⟨rfl, inside⟩
    simp only [mem_cons, later, or_false, ← here, plotted]
    by_cases there : OnScreen point
    · rw [if_pos there]
      simp only [there, and_true]
    · rw [if_neg there, if_neg (fun both => there both.2)]

theorem plotAll_outside (visited : List (Int × Int)) {index : Int}
    (outside : index < 0 ∨ 1024 * 768 ≤ index) :
    visited.foldl (plotted color) pixels index = pixels index := by
  induction visited generalizing pixels with
  | nil => rfl
  | cons point rest ih =>
    rw [foldl_cons, ih]
    unfold plotted
    by_cases inside : OnScreen point
    · rw [if_pos inside]
      unfold OnScreen at inside
      exact if_neg (by omega)
    · rw [if_neg inside]

end Pixels

/-- The point of the surface that the walk is at. -/
def pointAt (x y : Int) (p : Int × Int) : Int × Int := (direction x * p.1, direction y * p.2)

/-- The points that the loop visits from `p` on. -/
def visitedFrom (x y : Int) (steps : Nat) (p : Int × Int) : List (Int × Int) :=
  (LineWalk.points |x| |y| steps p).map (pointAt x y)

section Loop

variable {x y : Int}

theorem visitedFrom_succ (steps : Nat) (p : Int × Int) :
    visitedFrom x y (steps + 1) p =
      pointAt x y p :: visitedFrom x y steps (LineWalk.next |x| |y| p) := rfl

/-- With enough fuel the loop plots the visited points. -/
theorem lineLoop_eq {surface : Surface} (made : MadeSurface surface) (color : Nat)
    (hx : |x| ≤ 2 ^ 29) (hy : |y| ≤ 2 ^ 29) (left : Nat) {fuel : Nat} {done : Int} {p : Int × Int}
    {pixels : Int → Nat} (here : LineWalk.At |x| |y| done p) (total : done + left = max |x| |y|) :
    lineLoop surface (lineOf x y) color fuel (stateAt x y p) pixels =
      if fuel ≤ left then .error .running
      else .ok (visitedFrom x y left p,
        (visitedFrom x y left p).foldl (plotted color) pixels) := by
  induction left generalizing fuel done p pixels with
  | zero =>
    rw [Int.natCast_zero, add_zero] at total
    rw [total] at here
    have last := here.finish (abs_nonneg x) (abs_nonneg y)
    cases fuel with
    | zero => rfl
    | succ fuel =>
      rw [lineLoop, plot_eq made]
      dsimp only
      rw [if_pos (stateAt_end_iff.mpr last), if_neg (by omega)]
      rfl
  | succ left ih =>
    have before : done < max |x| |y| := by omega
    cases fuel with
    | zero =>
      rw [if_pos (Nat.zero_le _)]
      rfl
    | succ fuel =>
      have next := here.next (abs_nonneg x) (abs_nonneg y) before
      rw [lineLoop, plot_eq made]
      dsimp only
      rw [if_neg (mt stateAt_end_iff.mp (here.ne_end before)), lineStep_eq hx hy here before]
      dsimp only
      rw [ih next (by omega)]
      by_cases short : fuel ≤ left
      · rw [if_pos short, if_pos (by omega)]
        rfl
      · rw [if_neg short, if_neg (by omega)]
        rfl

theorem visitedFrom_length (steps : Nat) (p : Int × Int) :
    (visitedFrom x y steps p).length = steps + 1 := by
  induction steps generalizing p with
  | zero => rfl
  | succ steps ih => rw [visitedFrom_succ, length_cons, ih]

theorem neighbours_next (p : Int × Int) :
    Neighbours (pointAt x y p) (pointAt x y (LineWalk.next |x| |y| p)) := by
  have bound : ∀ z i i' : Int, i' = i ∨ i' = i + 1 → |direction z * i' - direction z * i| ≤ 1 := by
    intro z i i' moved
    rw [abs_le]
    rcases direction_or z with h | h <;> rw [h] <;> omega
  have moved := LineWalk.next_step |x| |y| p
  exact ⟨bound x _ _ moved.1, bound y _ _ moved.2⟩

theorem visitedFrom_chain (steps : Nat) (p : Int × Int) :
    (visitedFrom x y steps p).IsChain Neighbours := by
  induction steps generalizing p with
  | zero => exact .singleton _
  | succ steps ih =>
    rw [visitedFrom_succ]
    cases steps with
    | zero => exact isChain_cons_cons.mpr ⟨neighbours_next p, .singleton _⟩
    | succ steps =>
      have rest := ih (LineWalk.next |x| |y| p)
      rw [visitedFrom_succ] at rest ⊢
      exact isChain_cons_cons.mpr ⟨neighbours_next p, rest⟩

theorem visitedFrom_last {left : Nat} {done : Int} {p : Int × Int}
    (here : LineWalk.At |x| |y| done p) (total : done + left = max |x| |y|) :
    (visitedFrom x y left p).getLast? = some (x, y) := by
  induction left generalizing done p with
  | zero =>
    rw [Int.natCast_zero, add_zero] at total
    rw [total] at here
    rw [here.finish (abs_nonneg x) (abs_nonneg y)]
    show some (direction x * |x|, direction y * |y|) = _
    rw [direction_abs, direction_abs]
  | succ left ih =>
    have next := here.next (abs_nonneg x) (abs_nonneg y) (by omega)
    have rest := ih next (by omega)
    rw [visitedFrom_succ, getLast?_cons, rest]
    rfl

theorem mem_visitedFrom {left : Nat} {done : Int} {p point : Int × Int}
    (here : LineWalk.At |x| |y| done p) (total : done + left = max |x| |y|)
    (member : point ∈ visitedFrom x y left p) :
    ∃ steps q, steps ≤ max |x| |y| ∧ LineWalk.At |x| |y| steps q ∧ point = pointAt x y q := by
  induction left generalizing done p with
  | zero =>
    obtain rfl := mem_singleton.mp member
    exact ⟨done, p, by omega, here, rfl⟩
  | succ left ih =>
    rw [visitedFrom_succ, mem_cons] at member
    rcases member with rfl | later
    · exact ⟨done, p, by omega, here, rfl⟩
    · exact ih (here.next (abs_nonneg x) (abs_nonneg y) (by omega)) (by omega) later

end Loop

/-- The error term is twice the distance along the minor axis, times the length of the major one. -/
theorem half_of_error {major minor i j : Int} (positive : 0 < major)
    (error : |2 * (major * j - minor * i)| ≤ major) (sign : Int) (unit : |sign| = 1) :
    |((sign * j : Int) : ℚ) - (i / major : ℚ) * ((sign * minor : Int) : ℚ)| ≤ 1 / 2 := by
  have positive' : (0 : ℚ) < major := by exact_mod_cast positive
  have error' : |2 * ((major : ℚ) * j - minor * i)| ≤ major := by exact_mod_cast error
  have unit' : |(sign : ℚ)| = 1 := by exact_mod_cast unit
  have split : ((sign * j : Int) : ℚ) - (i / major : ℚ) * ((sign * minor : Int) : ℚ) =
      sign * (2 * (major * j - minor * i)) / (2 * major) := by
    push_cast
    field_simp
  rw [split, abs_div, abs_mul, unit', one_mul, abs_of_pos (by linarith : (0 : ℚ) < 2 * major),
    div_le_iff₀ (by linarith)]
  linarith

theorem direction_unit (x : Int) : |direction x| = 1 := by
  rcases direction_or x with ahead | back
  · rw [ahead, abs_one]
  · rw [back, abs_neg, abs_one]

theorem fraction_mul {x i : Int} (positive : 0 < |x|) :
    (i / ((|x| : Int) : ℚ)) * x = ((direction x * i : Int) : ℚ) := by
  have whole : (x : ℚ) = direction x * ((|x| : Int) : ℚ) := by exact_mod_cast (direction_abs x).symm
  rw [whole, Int.cast_mul]
  field_simp

/-- A walk that keeps its error term is near the segment. -/
theorem nearSegment_of_at {x y steps : Int} {p : Int × Int} (here : LineWalk.At |x| |y| steps p)
    (total : steps ≤ max |x| |y|) : NearSegment x y (pointAt x y p) := by
  obtain ⟨near, flat, steep, ⟨i0, i1⟩, j0, j1⟩ := here
  obtain ⟨i, j⟩ := p
  dsimp only at near flat steep i0 i1 j0 j1
  unfold NearSegment pointAt
  dsimp only
  by_cases less : |y| ≤ |x|
  · rw [max_eq_left less] at near total
    simp only [if_pos less]
    rcases eq_or_lt_of_le (abs_nonneg x) with zero | positive
    · have x0 : x = 0 := abs_eq_zero.mp zero.symm
      have y0 : y = 0 := abs_nonpos_iff.mp (by omega)
      rw [show i = 0 by omega, show j = 0 by omega, x0, y0]
      exact ⟨0, le_refl 0, zero_le_one, by simp, by simp⟩
    · have positive' : (0 : ℚ) < ((|x| : Int) : ℚ) := by exact_mod_cast positive
      refine ⟨i / ((|x| : Int) : ℚ), ?_, ?_, ?_, ?_⟩
      · exact div_nonneg (by exact_mod_cast i0) positive'.le
      · rw [div_le_one positive']
        exact_mod_cast (show i ≤ |x| by omega)
      · exact fraction_mul positive
      · have half := half_of_error positive near (direction y) (direction_unit y)
        rw [direction_abs] at half
        exact half
  · have more : |x| ≤ |y| := by omega
    have positive : 0 < |y| := by
      have low := abs_nonneg x
      omega
    rw [max_eq_right more] at near total
    simp only [if_neg less]
    have positive' : (0 : ℚ) < ((|y| : Int) : ℚ) := by exact_mod_cast positive
    refine ⟨j / ((|y| : Int) : ℚ), ?_, ?_, ?_, ?_⟩
    · exact div_nonneg (by exact_mod_cast j0) positive'.le
    · rw [div_le_one positive']
      exact_mod_cast (show j ≤ |y| by omega)
    · exact fraction_mul positive
    · have swapped : |2 * (|y| * i - |x| * j)| ≤ |y| := by
        rw [show 2 * (|y| * i - |x| * j) = -(2 * (|x| * j - |y| * i)) by ring, abs_neg]
        exact near
      have half := half_of_error positive swapped (direction x) (direction_unit x)
      rw [direction_abs] at half
      exact half

/-- The visited points are a line, near the exact one. -/
theorem lineDrawn (x y : Int) (color : Nat) (pixels : Int → Nat) :
    LineDrawn x y color pixels
      ((visitedFrom x y (max |x| |y|).toNat (0, 0)).foldl (plotted color) pixels)
      (visitedFrom x y (max |x| |y|).toNat (0, 0)) := by
  have start := LineWalk.at_start |x| |y| (abs_nonneg x)
  have long : 0 ≤ max |x| |y| := le_max_of_le_left (abs_nonneg x)
  have total : (0 : Int) + ((max |x| |y|).toNat : Nat) = max |x| |y| := by
    rw [zero_add, Int.toNat_of_nonneg long]
  constructor
  · exact visitedFrom_length _ _
  · cases (max |x| |y|).toNat <;> simp [visitedFrom, LineWalk.points, pointAt]
  · exact visitedFrom_last start total
  · exact visitedFrom_chain _ _
  · intro point member
    obtain ⟨steps, q, few, there, rfl⟩ := mem_visitedFrom start total member
    exact nearSegment_of_at there few
  · intro a b left right top bottom
    exact plotAll_inside _ ⟨left, right, top, bottom⟩
  · intro index outside
    exact plotAll_outside _ outside

/-- `GdiLineTo` draws the line to `(x, y)`: its loop ends after the turn for each point of the line,
and not before. -/
theorem gdiLineTo_draws (dc : BaseDc) (surface : Surface) (pixels : Int → Nat) (x y : Int)
    (selected : dc.psurface = some surface) (made : MadeSurface surface)
    (bits : surface.pvBits = some pixels) (hx : |x| ≤ 2 ^ 29) (hy : |y| ≤ 2 ^ 29) :
    ∃ visited after,
      LineDrawn x y ((dc.pdcattr.map DcAttr.textColor).getD 0) pixels after visited ∧
      ∀ fuel, gdiLineTo fuel (some dc) x y =
        if (fuel : Int) ≤ max |x| |y| then .error .running
        else .ok ⟨statusSuccess, visited, some { dc with
          psurface := some { surface with pvBits := some after } }⟩ := by
  refine ⟨_, _, lineDrawn x y _ pixels, ?_⟩
  intro fuel
  have start := LineWalk.at_start |x| |y| (abs_nonneg x)
  have long : 0 ≤ max |x| |y| := le_max_of_le_left (abs_nonneg x)
  have whole := Int.toNat_of_nonneg long
  have loop := @lineLoop_eq x y surface made ((dc.pdcattr.map DcAttr.textColor).getD 0) hx hy
    (max |x| |y|).toNat fuel 0 (0, 0) pixels start (by rw [zero_add, whole])
  unfold gdiLineTo
  dsimp only
  rw [selected]
  dsimp only
  rw [bits]
  dsimp only
  rw [lineEnd_eq hx hy]
  dsimp only
  rw [loop]
  by_cases short : fuel ≤ (max |x| |y|).toNat
  · rw [if_pos short, if_pos (by omega)]
    rfl
  · rw [if_neg short, if_neg (by omega)]
    rfl

/-- The DC that `GdiCreateCompatibleDC` makes without a source. -/
def memoryDc : BaseDc :=
  ⟨4, some ⟨0x00000000, 0x00FFFFFF, bkOpaque, r2Copypen⟩,
    some ⟨1024, 768, 1024 * 4, 0x18, 0xCC, some fun _ => 0⟩,
    dcFlagMemory ||| dcFlagDirtyRasterCaps⟩

example : gdiCreateCompatibleDC ⟨true, true, true, true⟩ none = .ok memoryDc := rfl

/-- A line that leaves the surface, to `(3, -1)`. -/
theorem gdiLineTo_draws_outside :
    ∃ visited after, LineDrawn 3 (-1) 0 (fun _ => 0) after visited ∧
      ∀ fuel : Nat, gdiLineTo fuel (some memoryDc) 3 (-1) =
        if (fuel : Int) ≤ max |3| |(-1)| then .error .running
        else .ok ⟨statusSuccess, visited, some { memoryDc with
          psurface := some ⟨1024, 768, 1024 * 4, 0x18, 0xCC, some after⟩ }⟩ :=
  gdiLineTo_draws memoryDc _ _ 3 (-1) rfl ⟨rfl, rfl, rfl⟩ rfl (by decide) (by decide)

end MinNT.Gdi
