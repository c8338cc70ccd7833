import MinNT.Lib.Transition
import MinNT.NtStatus

namespace MinNT.Clipboard

open List

def clipboardMaxFormats : Nat := 64
def statusDeviceBusy : NtStatus := 0xC00000B7#32

/-- `CLIPBOARD_FORMAT`; the data as the bytes at its pointer. -/
structure ClipboardFormat where
  formatId : Nat
  data : Option (List UInt8)
  dataSize : Nat
  inUse : Bool
deriving DecidableEq, Repr

def ClipboardFormat.zero : ClipboardFormat := ⟨0, none, 0, false⟩

/-- `CLIPBOARD_STATE`, without the names of registered formats. -/
structure ClipboardState where
  isOpen : Bool
  ownerThread : Nat
  hwndOwner : Nat
  formatCount : Nat
  formats : List ClipboardFormat
deriving DecidableEq, Repr

def clipboardInit : ClipboardState :=
  ⟨false, 0, 0, 0, replicate clipboardMaxFormats .zero⟩

/-- The slot is in use for the format. -/
def isFormat (format : Nat) (slot : ClipboardFormat) : Bool :=
  slot.inUse && slot.formatId == format

def isFree (slot : ClipboardFormat) : Bool := !slot.inUse

/-- `UserOpenClipboard`, called by a thread. -/
def userOpenClipboard (state : ClipboardState) (thread hWnd : Nat) : NtStatus × ClipboardState :=
  if state.isOpen then (statusDeviceBusy, state)
  else (statusSuccess, ⟨true, thread, hWnd, state.formatCount, state.formats⟩)

/-- `UserCloseClipboard`. It does not look at the thread that calls it. -/
def userCloseClipboard (state : ClipboardState) : NtStatus × ClipboardState :=
  (statusSuccess, ⟨false, 0, 0, state.formatCount, state.formats⟩)

/-- What `UserEmptyClipboard` leaves in a slot. -/
def emptiedSlot (slot : ClipboardFormat) : ClipboardFormat :=
  if slot.inUse ∧ slot.data.isSome then ⟨slot.formatId, none, 0, false⟩
  else ⟨slot.formatId, slot.data, slot.dataSize, false⟩

/-- `UserEmptyClipboard`. Neither does it. -/
def userEmptyClipboard (state : ClipboardState) : NtStatus × ClipboardState :=
  if !state.isOpen then (statusDeviceBusy, state)
  else (statusSuccess, ⟨true, state.ownerThread, state.hwndOwner, 0,
    state.formats.map emptiedSlot⟩)

/-- The slot for a format: the one in use for it, or a free one. -/
def findSlot (formats : List ClipboardFormat) (format : Nat) : Option Nat :=
  match formats.findIdx? (isFormat format) with
  | some slot => some slot
  | none => formats.findIdx? isFree

/-- What `UserSetClipboardData` puts into the slot, whose old data it has freed by then. The
allocation of the copy is made or not. -/
def storedSlot (format : Nat) (hMem : Option (Nat → UInt8)) (size : Nat) (allocated : Bool) :
    NtStatus × ClipboardFormat :=
  match hMem with
  | none => (statusSuccess, ⟨format, none, size, true⟩)
  | some bytes =>
      if size = 0 then (statusSuccess, ⟨format, none, size, true⟩)
      else if allocated then
        (statusSuccess, ⟨format, some ((range size).map bytes), size, true⟩)
      else (statusNoMemory, ⟨format, none, size, false⟩)

def userSetClipboardData (state : ClipboardState) (format : Nat) (hMem : Option (Nat → UInt8))
    (size : Nat) (allocated : Bool) : NtStatus × ClipboardState :=
  if !state.isOpen then (statusDeviceBusy, state)
  else
    match findSlot state.formats format with
    | none => (statusInsufficientResources, state)
    | some slot =>
        let stored := storedSlot format hMem size allocated
        (stored.1, ⟨true, state.ownerThread, state.hwndOwner,
          if stored.1 = statusSuccess then (state.formatCount + 1) % 2 ^ 32 else state.formatCount,
          state.formats.set slot stored.2⟩)

/-- `UserGetClipboardData`: the status, the data and its size. -/
def userGetClipboardData (state : ClipboardState) (format : Nat) :
    NtStatus × Option (List UInt8) × Nat :=
  match state.formats.find? (isFormat format) with
  | some slot => (statusSuccess, slot.data, slot.dataSize)
  | none => (statusNotFound, none, 0)

inductive Call where
  | openClipboard (hWnd : Nat)
  | close
  | empty
  | set (format : Nat) (hMem : Option (Nat → UInt8)) (size : Nat) (allocated : Bool)
  | get (format : Nat)

/-- A call by a thread: its status and what it leaves. Each holds the lock from its first look at
the state to its last write, so that the calls of several threads come one after the other. -/
def call (state : ClipboardState) (thread : Nat) : Call → NtStatus × ClipboardState
  | .openClipboard hWnd => userOpenClipboard state thread hWnd
  | .close => userCloseClipboard state
  | .empty => userEmptyClipboard state
  | .set format hMem size allocated => userSetClipboardData state format hMem size allocated
  | .get format => ((userGetClipboardData state format).1, state)

def step (state : ClipboardState) (made : Nat × Call) : Option ClipboardState :=
  some (call state made.1 made.2).2

/-- No two slots in use hold one format. -/
def OneSlotEach (formats : List ClipboardFormat) : Prop :=
  ∀ (i j : Nat) (first second : ClipboardFormat), i ≠ j →
    formats[i]? = some first → formats[j]? = some second →
      first.inUse = true → second.inUse = true → first.formatId ≠ second.formatId

/-- `FormatCount` counts the slots in use, and each format has one at most. -/
structure Consistent (state : ClipboardState) : Prop where
  counted : state.formatCount = state.formats.countP (·.inUse)
  oneSlotEach : OneSlotEach state.formats

/-- A thread has the clipboard open. -/
def Opened (state : ClipboardState) (thread : Nat) : Prop :=
  state.isOpen = true ∧ state.ownerThread = thread

/-- Only the thread that has opened the clipboard empties, sets or closes it. -/
def ByOpener (state : ClipboardState) (thread : Nat) (made : Call) : Prop :=
  match made with
  | .close => state.isOpen = true → Opened state thread
  | .empty | .set .. => (call state thread made).1 = statusSuccess → Opened state thread
  | _ => True

/-- After a set that fails, every format reads as before. -/
def FailureReadable (state : ClipboardState) (thread : Nat) (made : Call) : Prop :=
  match made with
  | .set .. => (call state thread made).1 ≠ statusSuccess →
      ∀ other, userGetClipboardData (call state thread made).2 other =
        userGetClipboardData state other
  | _ => True

/-- What a call is to keep. -/
structure Kept (state : ClipboardState) (thread : Nat) (made : Call) : Prop where
  consistent : Consistent (call state thread made).2
  failureReadable : FailureReadable state thread made
  byOpener : ByOpener state thread made

/-- On an open clipboard, only its opener closes or empties it, no format is set that is there, and
another thread sets a format only in vain. -/
def Allowed (state : ClipboardState) (thread : Nat) : Call → Prop
  | .openClipboard _ | .get _ => True
  | .close | .empty => state.isOpen = true → state.ownerThread = thread
  | .set format hMem size allocated => state.isOpen = true →
      (∀ slot ∈ state.formats, isFormat format slot = false) ∧
        (state.ownerThread = thread ∨ (∀ slot ∈ state.formats, slot.inUse = true) ∨
          hMem.isSome = true ∧ size ≠ 0 ∧ allocated = false)

instance (state : ClipboardState) (thread : Nat) :
    (made : Call) → Decidable (Allowed state thread made)
  | .openClipboard _ | .get _ => inferInstanceAs (Decidable True)
  | .close | .empty => inferInstanceAs (Decidable (_ → _))
  | .set .. => inferInstanceAs (Decidable (_ → _ ∧ _))

theorem storedSlot_cases (format : Nat) (hMem : Option (Nat → UInt8)) (size : Nat)
    (allocated : Bool) :
    let fails := hMem.isSome = true ∧ size ≠ 0 ∧ allocated = false
    ((storedSlot format hMem size allocated).1 = statusSuccess ↔ ¬ fails) ∧
      ((storedSlot format hMem size allocated).2.inUse = true ↔ ¬ fails) ∧
      (storedSlot format hMem size allocated).2.formatId = format := by
  intro fails
  cases hMem with
  | none => exact ⟨by simp [storedSlot, fails], by simp [storedSlot, fails], rfl⟩
  | some bytes =>
    by_cases none : size = 0
    · simp [storedSlot, none, fails]
    · cases allocated <;> simp [storedSlot, none, fails, statusNoMemory, statusSuccess]

theorem find?_set {α : Type} {p : α → Bool} {list : List α} {i : Nat} {old new : α}
    (here : list[i]? = some old) (before : p old = false) (after : p new = false) :
    (list.set i new).find? p = list.find? p := by
  induction list generalizing i with
  | nil => rfl
  | cons head tail ih =>
    cases i with
    | zero =>
      cases here
      rw [set_cons_zero, find?_cons_of_neg (by simp [after]), find?_cons_of_neg (by simp [before])]
    | succ i =>
      rw [set_cons_succ, find?_cons, find?_cons]
      cases p head with
      | true => rfl
      | false => exact ih here

theorem emptiedSlot_inUse (slot : ClipboardFormat) : (emptiedSlot slot).inUse = false := by
  rw [emptiedSlot]
  split <;> rfl

section Slots

variable {formats : List ClipboardFormat} {format slot : Nat} {old new : ClipboardFormat}

theorem countP_set_of_free (here : formats[slot]? = some old) (free : old.inUse = false) :
    (formats.set slot new).countP (·.inUse) =
      formats.countP (·.inUse) + if new.inUse then 1 else 0 := by
  obtain ⟨inside, rfl⟩ := List.getElem?_eq_some_iff.mp here
  rw [countP_set inside]
  simp [free]

theorem countP_set_of_inUse (here : formats[slot]? = some old) (used : old.inUse = true) :
    (formats.set slot new).countP (·.inUse) + 1 =
      formats.countP (·.inUse) + if new.inUse then 1 else 0 := by
  obtain ⟨inside, rfl⟩ := List.getElem?_eq_some_iff.mp here
  have positive : 0 < formats.countP (·.inUse) :=
    countP_pos_iff.mpr ⟨_, getElem_mem inside, used⟩
  rw [countP_set inside, used]
  simp only [if_true]
  omega

/-- A new format may take any slot. -/
theorem OneSlotEach.set (each : OneSlotEach formats) (inside : slot < formats.length)
    (absent : ∀ slot ∈ formats, isFormat new.formatId slot = false) :
    OneSlotEach (formats.set slot new) := by
  have apart : ∀ (i : Nat) (other : ClipboardFormat), formats[i]? = some other →
      other.inUse = true → other.formatId ≠ new.formatId := by
    intro i other here used same
    have held := absent other (mem_of_getElem? here)
    rw [isFormat, used, same] at held
    simp at held
  intro i j first second different left right leftUsed rightUsed
  rw [getElem?_set] at left right
  by_cases atFirst : slot = i
  · rw [if_pos atFirst, if_pos inside] at left
    rw [if_neg (by rw [atFirst]; exact different)] at right
    obtain rfl := Option.some.inj left
    exact (apart j second right rightUsed).symm
  · rw [if_neg atFirst] at left
    by_cases atSecond : slot = j
    · rw [if_pos atSecond, if_pos inside] at right
      obtain rfl := Option.some.inj right
      exact apart i first left leftUsed
    · rw [if_neg atSecond] at right
      exact each i j first second different left right leftUsed rightUsed

end Slots

/-- What holds between the calls. -/
structure Good (state : ClipboardState) : Prop where
  slots : state.formats.length = clipboardMaxFormats
  consistent : Consistent state

section Calls

variable {state : ClipboardState} {thread : Nat}

section Good

variable (good : Good state)
include good

theorem Good.countP_le : state.formats.countP (·.inUse) ≤ 64 :=
  Nat.le_trans countP_le_length (Nat.le_of_eq good.slots)

theorem Kept.of_formats {made : Call}
    (counts : (call state thread made).2.formatCount = state.formatCount)
    (same : (call state thread made).2.formats = state.formats)
    (byOpener : ByOpener state thread made) : Kept state thread made where
  consistent := by
    constructor
    · rw [counts, same]
      exact good.consistent.counted
    · rw [same]
      exact good.consistent.oneSlotEach
  failureReadable := by
    cases made with
    | set format hMem size allocated =>
      intro _ other
      rw [userGetClipboardData, same, ← userGetClipboardData]
    | _ => trivial
  byOpener := byOpener

theorem Kept.of_refused {made : Call} {status : NtStatus}
    (done : call state thread made = (status, state)) (fails : status ≠ statusSuccess) :
    Kept state thread made := by
  have refused : (call state thread made).1 ≠ statusSuccess := by
    rw [done]
    exact fails
  apply Kept.of_formats good
  · rw [done]
  · rw [done]
  · cases made with
    | close => exact absurd rfl refused
    | empty | set format hMem size allocated => exact fun success => absurd success refused
    | _ => trivial

theorem openClipboard_kept (hWnd : Nat) : Kept state thread (.openClipboard hWnd) := by
  apply Kept.of_formats good
  · rw [call, userOpenClipboard]
    split <;> rfl
  · rw [call, userOpenClipboard]
    split <;> rfl
  · trivial

theorem close_kept_iff : Kept state thread .close ↔ Allowed state thread .close := by
  constructor
  · intro kept isOpen
    exact (kept.byOpener isOpen).2
  · intro opener
    exact Kept.of_formats good rfl rfl (fun isOpen => ⟨isOpen, opener isOpen⟩)

end Good

theorem countP_emptied (formats : List ClipboardFormat) :
    (formats.map emptiedSlot).countP (·.inUse) = 0 := by
  rw [countP_eq_zero]
  intro slot member
  obtain ⟨old, _, rfl⟩ := List.mem_map.mp member
  rw [emptiedSlot_inUse]
  decide

theorem emptied_oneSlotEach (formats : List ClipboardFormat) :
    OneSlotEach (formats.map emptiedSlot) := by
  intro i j first second _ left _ used
  obtain ⟨old, _, rfl⟩ := List.mem_map.mp (mem_of_getElem? left)
  rw [emptiedSlot_inUse] at used
  cases used

theorem empty_kept_iff (good : Good state) :
    Kept state thread .empty ↔ Allowed state thread .empty := by
  by_cases isOpen : state.isOpen = true
  · have done : call state thread .empty = (statusSuccess, ⟨true, state.ownerThread,
        state.hwndOwner, 0, state.formats.map emptiedSlot⟩) := by
      rw [call, userEmptyClipboard, isOpen]
      rfl
    constructor
    · intro kept _
      exact (kept.byOpener (by rw [done])).2
    · intro opener
      refine ⟨?_, trivial, fun _ => ⟨isOpen, opener isOpen⟩⟩
      rw [done]
      exact ⟨(countP_emptied _).symm, emptied_oneSlotEach _⟩
  · have done : call state thread .empty = (statusDeviceBusy, state) := by
      rw [call, userEmptyClipboard, Bool.not_eq_true _ |>.mp isOpen]
      rfl
    exact iff_of_true (Kept.of_refused good done (by decide)) (fun opened => absurd opened isOpen)

section Set

variable {format size slot : Nat} {hMem : Option (Nat → UInt8)} {allocated : Bool}

theorem set_of_closed (closed : ¬ state.isOpen = true) :
    call state thread (.set format hMem size allocated) = (statusDeviceBusy, state) := by
  rw [call, userSetClipboardData, Bool.not_eq_true _ |>.mp closed]
  rfl

theorem set_of_full (isOpen : state.isOpen = true) (full : findSlot state.formats format = none) :
    call state thread (.set format hMem size allocated) = (statusInsufficientResources, state) := by
  rw [call, userSetClipboardData, isOpen, full]
  rfl

theorem set_of_slot (isOpen : state.isOpen = true)
    (found : findSlot state.formats format = some slot) :
    call state thread (.set format hMem size allocated) =
      ((storedSlot format hMem size allocated).1, ⟨true, state.ownerThread, state.hwndOwner,
        if (storedSlot format hMem size allocated).1 = statusSuccess then
          (state.formatCount + 1) % 2 ^ 32 else state.formatCount,
        state.formats.set slot (storedSlot format hMem size allocated).2⟩) := by
  rw [call, userSetClipboardData, isOpen, found]
  rfl

theorem findSlot_eq_none : findSlot state.formats format = none ↔
    (∀ slot ∈ state.formats, isFormat format slot = false) ∧
      ∀ slot ∈ state.formats, slot.inUse = true := by
  have free : state.formats.findIdx? isFree = none ↔
      ∀ slot ∈ state.formats, slot.inUse = true := by
    rw [findIdx?_eq_none_iff]
    simp [isFree]
  rw [← free, ← findIdx?_eq_none_iff, findSlot]
  cases state.formats.findIdx? (isFormat format) <;> simp

theorem findSlot_of_present (present : ¬ ∀ slot ∈ state.formats, isFormat format slot = false) :
    ∃ slot old, findSlot state.formats format = some slot ∧ state.formats[slot]? = some old ∧
      old.inUse = true := by
  rw [← findIdx?_eq_none_iff] at present
  obtain ⟨slot, found⟩ := Option.ne_none_iff_exists'.mp present
  obtain ⟨inside, held, _⟩ := findIdx?_eq_some_iff_getElem.mp found
  refine ⟨slot, _, by rw [findSlot, found], getElem?_eq_getElem inside, ?_⟩
  rw [isFormat, Bool.and_eq_true] at held
  exact held.1

theorem findSlot_of_absent (absent : ∀ slot ∈ state.formats, isFormat format slot = false)
    (found : findSlot state.formats format = some slot) :
    ∃ old, state.formats[slot]? = some old ∧ old.inUse = false := by
  rw [← findIdx?_eq_none_iff] at absent
  rw [findSlot, absent] at found
  obtain ⟨inside, free, _⟩ := findIdx?_eq_some_iff_getElem.mp found
  refine ⟨_, getElem?_eq_getElem inside, ?_⟩
  simpa [isFree] using free

theorem replaced_inconsistent (good : Good state) (isOpen : state.isOpen = true)
    (present : ¬ ∀ slot ∈ state.formats, isFormat format slot = false) :
    ¬ Consistent (call state thread (.set format hMem size allocated)).2 := by
  obtain ⟨slot, old, found, here, used⟩ := findSlot_of_present present
  have outcome := storedSlot_cases format hMem size allocated
  have counts := @countP_set_of_inUse _ _ _ (storedSlot format hMem size allocated).2 here used
  have same := good.consistent.counted
  intro consistent
  have counted := consistent.counted
  rw [set_of_slot isOpen found] at counted
  dsimp only at counted outcome
  by_cases success : (storedSlot format hMem size allocated).1 = statusSuccess
  · rw [if_pos success] at counted
    rw [outcome.2.1.mpr (outcome.1.mp success), if_pos rfl] at counts
    omega
  · rw [if_neg success] at counted
    rw [if_neg (fun stored => success (outcome.1.mpr (outcome.2.1.mp stored)))] at counts
    omega

/-- A set keeps the clipboard as it should exactly if it is allowed. -/
theorem set_kept_iff (good : Good state) :
    Kept state thread (.set format hMem size allocated) ↔
      Allowed state thread (.set format hMem size allocated) := by
  by_cases isOpen : state.isOpen = true
  · by_cases absent : ∀ slot ∈ state.formats, isFormat format slot = false
    · cases found : findSlot state.formats format with
      | none =>
        have full := (findSlot_eq_none.mp found).2
        exact iff_of_true (Kept.of_refused good (set_of_full isOpen found) (by decide))
          (fun _ => ⟨absent, .inr (.inl full)⟩)
      | some slot =>
        obtain ⟨old, here, free⟩ := findSlot_of_absent absent found
        have inside := (List.getElem?_eq_some_iff.mp here).1
        have notFull : ¬ ∀ slot ∈ state.formats, slot.inUse = true := by
          intro full
          rw [full old (mem_of_getElem? here)] at free
          cases free
        have outcome := storedSlot_cases format hMem size allocated
        have counts := @countP_set_of_free _ _ _ (storedSlot format hMem size allocated).2 here free
        have done := @set_of_slot state thread format size slot hMem allocated isOpen found
        dsimp only at outcome
        constructor
        · intro kept _
          refine ⟨absent, ?_⟩
          by_cases fails : hMem.isSome = true ∧ size ≠ 0 ∧ allocated = false
          · exact .inr (.inr fails)
          · left
            exact (kept.byOpener (by rw [done]; exact outcome.1.mpr fails)).2
        · intro allows
          obtain ⟨_, opener⟩ := allows isOpen
          have consistent : Consistent (call state thread (.set format hMem size allocated)).2 := by
            rw [done]
            constructor
            · dsimp only
              rw [counts, good.consistent.counted]
              have small := good.countP_le
              by_cases success : (storedSlot format hMem size allocated).1 = statusSuccess
              · rw [if_pos success, outcome.2.1.mpr (outcome.1.mp success), if_pos rfl]
                omega
              · rw [if_neg success,
                  if_neg (fun stored => success (outcome.1.mpr (outcome.2.1.mp stored))),
                  Nat.add_zero]
            · apply OneSlotEach.set good.consistent.oneSlotEach inside
              rw [outcome.2.2]
              exact absent
          refine ⟨consistent, ?_, ?_⟩
          · intro failed other
            rw [done] at failed ⊢
            have unused : (storedSlot format hMem size allocated).2.inUse = false :=
              Bool.eq_false_iff.mpr (fun stored => failed (outcome.1.mpr (outcome.2.1.mp stored)))
            rw [userGetClipboardData, userGetClipboardData,
              find?_set here (by rw [isFormat, free]; rfl) (by rw [isFormat, unused]; rfl)]
          · intro success
            rw [done] at success
            refine ⟨isOpen, ?_⟩
            rcases opener with opener | full | fails
            · exact opener
            · exact absurd full notFull
            · exact absurd fails (outcome.1.mp success)
    · refine iff_of_false ?_ (fun allows => absent (allows isOpen).1)
      exact fun kept => replaced_inconsistent good isOpen absent kept.consistent
  · exact iff_of_true (Kept.of_refused good (set_of_closed isOpen) (by decide))
      (fun opened => absurd opened isOpen)

end Set

theorem kept_iff_allowed (good : Good state) (made : Call) :
    Kept state thread made ↔ Allowed state thread made := by
  cases made with
  | openClipboard hWnd => exact iff_of_true (openClipboard_kept good hWnd) trivial
  | close => exact close_kept_iff good
  | empty => exact empty_kept_iff good
  | set format hMem size allocated => exact set_kept_iff good
  | get format => exact iff_of_true (Kept.of_formats good rfl rfl trivial) trivial

theorem call_slots (made : Call) :
    (call state thread made).2.formats.length = state.formats.length := by
  cases made with
  | openClipboard hWnd =>
    rw [call, userOpenClipboard]
    split <;> rfl
  | close => rfl
  | empty =>
    rw [call, userEmptyClipboard]
    split
    · rfl
    · exact length_map _
  | set format hMem size allocated =>
    rw [call, userSetClipboardData]
    split
    · rfl
    · split
      · rfl
      · exact length_set
  | get format => rfl

end Calls

theorem clipboardInit_good : Good clipboardInit where
  slots := length_replicate
  consistent := by
    constructor
    · decide
    · intro i j first second _ left _ used
      have zero := eq_of_mem_replicate (mem_of_getElem? left)
      rw [zero] at used
      exact absurd used (by decide)

theorem reaches_good {state : ClipboardState}
    (run : Transition.Reaches step (fun state made => Allowed state made.1 made.2) clipboardInit
      state) : Good state := by
  refine run.invariant clipboardInit_good ?_
  rintro state ⟨thread, made⟩ next good allows done
  obtain rfl := Option.some.inj done
  exact ⟨(call_slots made).trans good.slots, ((kept_iff_allowed good made).mpr allows).consistent⟩

/-- In every run of allowed calls by any threads, the count is that of the slots in use and each
format has one slot, and the next call keeps to what is asked of it just when it is allowed. -/
theorem clipboard_kept_iff (state : ClipboardState)
    (run : Transition.Reaches step (fun state made => Allowed state made.1 made.2) clipboardInit
      state) :
    Consistent state ∧
      ∀ thread made, Kept state thread made ↔ Allowed state thread made :=
  ⟨(reaches_good run).consistent, fun _ => kept_iff_allowed (reaches_good run)⟩

/-- Calls by two threads: the second one is refused while the first has the clipboard open, and
empties and sets it after the first has closed. -/
def twoThreads : List (Nat × Call) :=
  [(1, .openClipboard 7), (1, .set 1 (some fun _ => 0x41) 2 true), (2, .openClipboard 8),
    (1, .set 2 none 5 true), (2, .get 1), (1, .close), (2, .openClipboard 8), (2, .empty),
    (2, .set 1 (some fun _ => 0x42) 3 true), (2, .set 3 (some fun _ => 0x43) 1 false)]

theorem clipboard_kept_iff_opened :
    ∃ state, Transition.checkedRun step (fun state made => Allowed state made.1 made.2)
        clipboardInit twoThreads = some state ∧ Consistent state ∧ state.formatCount = 1 ∧
      (userGetClipboardData state 1).2.1 = some [0x42, 0x42, 0x42] ∧
      Kept state 2 .empty ∧ ¬ Kept state 1 .empty := by
  have evaluated : (Transition.checkedRun step (fun state made => Allowed state made.1 made.2)
      clipboardInit twoThreads).map (fun state => (state.formatCount,
        (userGetClipboardData state 1).2.1, state.isOpen, state.ownerThread)) =
      some (1, some [0x42, 0x42, 0x42], true, 2) := by decide +kernel
  obtain ⟨state, done, facts⟩ := Option.map_eq_some_iff.mp evaluated
  simp only [Prod.mk.injEq] at facts
  obtain ⟨counted, data, isOpen, owner⟩ := facts
  obtain ⟨consistent, kept⟩ := clipboard_kept_iff state (Transition.Reaches.start.checked done)
  refine ⟨state, done, consistent, counted, data, (kept 2 .empty).mpr (fun _ => owner), ?_⟩
  intro emptied
  have first := (kept 1 .empty).mp emptied isOpen
  omega

/-- A format that is set twice is counted twice; a set that fails for lack of memory loses the old
data; and a second thread empties the clipboard that a first has opened. -/
theorem clipboard_kept_fails :
    (∃ state, Transition.Reaches step (fun _ _ => True) clipboardInit state ∧
      ¬ Consistent state) ∧
    (∃ state, Transition.Reaches step (fun _ _ => True) clipboardInit state ∧
      ¬ FailureReadable state 1 (.set 1 (some fun _ => 0x42) 2 false)) ∧
    ∃ state, Transition.Reaches step (fun _ _ => True) clipboardInit state ∧
      ¬ ByOpener state 2 .empty := by
  let text : Option (Nat → UInt8) := some fun _ => 0x41
  have opened := @Transition.Reaches.step _ _ step (fun _ _ => True) clipboardInit _ _
    (1, .openClipboard 0) .start trivial rfl
  have once := @Transition.Reaches.step _ _ _ _ _ _ _ (1, .set 1 text 2 true) opened trivial rfl
  have twice := @Transition.Reaches.step _ _ _ _ _ _ _ (1, .set 1 text 2 true) once trivial rfl
  refine ⟨⟨_, twice, ?_⟩, ⟨_, once, ?_⟩, ⟨_, opened, ?_⟩⟩
  · intro consistent
    exact absurd consistent.counted (by decide)
  · intro readable
    exact absurd (readable (by decide) 1) (by decide)
  · intro byOpener
    exact absurd (byOpener rfl).2 (by decide)

end MinNT.Clipboard
