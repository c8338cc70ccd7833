import Mathlib.Data.List.Nodup
import MinNT.Win32k.WindowClass

/-! Windows and what refers to them: the table of window procedures of `win32k/usermsg.c` and the
capture, focus and foreground windows of `win32k/userwnd.c`. What a window procedure does when it
is called is not part of the call. -/

namespace MinNT.Win32k

open List

def w32kMaxWindows : Nat := 64

/-- A `WINDOW` that has been allocated. -/
structure AllocatedWindow where
  hwnd : Nat
  lpfnWndProc : Nat
deriving DecidableEq

/-- A `W32K_WNDENTRY`. -/
structure WndEntry where
  hwnd : Nat
  wndproc : Nat
  inUse : Bool
deriving DecidableEq

structure WindowState where
  windows : List AllocatedWindow
  wndTable : List WndEntry
  classTable : List ClassEntry
  hwndCapture : Nat
  hwndFocus : Nat
  hwndForeground : Nat

/-- The state after `Win32kInitMessageQueue` and `Win32kInitClassTable`. -/
def windowInit : WindowState where
  windows := []
  wndTable := replicate w32kMaxWindows ⟨0, 0, false⟩
  classTable := win32kInitClassTable classTable
  hwndCapture := 0
  hwndFocus := 0
  hwndForeground := 0

def WindowState.hwnds (state : WindowState) : List Nat := state.windows.map AllocatedWindow.hwnd

def win32kRegisterWindowProc (table : List WndEntry) (hwnd wndproc : Nat) :
    NtStatus × List WndEntry :=
  if hwnd = 0 ∨ wndproc = 0 then (statusInvalidParameter, table)
  else
    match table.findIdx? fun entry => !entry.inUse with
    | some i => (statusSuccess, table.set i ⟨hwnd, wndproc, true⟩)
    | none => (statusInsufficientResources, table)

/-- `UserCreateWindowEx`; `pWnd` is what the pool returns. -/
def userCreateWindowEx (state : WindowState) (lpszClassName : Option ClassName) (pWnd : Nat) :
    NtStatus × WindowState :=
  match lpszClassName with
  | none => (statusInvalidParameter, state)
  | some name =>
      match findClassByName state.classTable (some name) with
      | none => (statusObjectNameNotFound, state)
      | some slot =>
          if pWnd = 0 then (statusNoMemory, state)
          else
            let lpfnWndProc := (state.classTable[slot]?).elim 0 ClassEntry.lpfnWndProc
            -- the status of the registration is dropped
            (BitVec.ofNat 32 pWnd,
              { state with
                windows := ⟨pWnd, lpfnWndProc⟩ :: state.windows
                wndTable := (win32kRegisterWindowProc state.wndTable pWnd lpfnWndProc).2 })

/-- `UserDestroyWindow`, for a window that exists. -/
def userDestroyWindow (state : WindowState) (hWnd : Nat) : NtStatus × WindowState :=
  if hWnd < 0x1000 then (statusInvalidHandle, state)
  else
    (statusSuccess,
      { state with windows := state.windows.filter fun window => window.hwnd != hWnd })

def userSetCapture (state : WindowState) (hWnd : Nat) : Nat × WindowState :=
  (state.hwndCapture, { state with hwndCapture := if hWnd ≠ 0 ∧ hWnd < 0x1000 then 0 else hWnd })

def userSetFocus (state : WindowState) (hWnd : Nat) : Nat × WindowState :=
  (state.hwndFocus, { state with hwndFocus := if hWnd ≠ 0 ∧ hWnd < 0x1000 then 0 else hWnd })

def userSetForegroundWindow (state : WindowState) (hWnd : Nat) : NtStatus × WindowState :=
  if hWnd ≠ 0 ∧ hWnd < 0x1000 then (statusInvalidHandle, state)
  else (statusSuccess, { state with hwndForeground := hWnd })

inductive WndCall where
  | registerClass (cls : Option WndClass)
  | create (lpszClassName : Option ClassName) (pWnd : Nat)
  | destroy (hWnd : Nat)
  | setCapture (hWnd : Nat)
  | setFocus (hWnd : Nat)
  | setForeground (hWnd : Nat)

/-- A call. The pool hands out no memory that is in use, and a call with a pointer that is to no
window has no defined effect. -/
def WndCall.run (state : WindowState) : WndCall → Option WindowState
  | .registerClass cls =>
      some { state with classTable := (userRegisterClassEx state.classTable cls).2 }
  | .create name pWnd =>
      if pWnd ∈ state.hwnds then none else some (userCreateWindowEx state name pWnd).2
  | .destroy hWnd =>
      if hWnd ≥ 0x1000 ∧ hWnd ∉ state.hwnds then none else some (userDestroyWindow state hWnd).2
  | .setCapture hWnd => some (userSetCapture state hWnd).2
  | .setFocus hWnd => some (userSetFocus state hWnd).2
  | .setForeground hWnd => some (userSetForegroundWindow state hWnd).2

/-- A reference is null or to a window that exists. -/
def WindowState.Denotes (state : WindowState) (hWnd : Nat) : Prop := hWnd = 0 ∨ hWnd ∈ state.hwnds

/-- How many entries in use a window has. -/
def entriesOf (table : List WndEntry) (hwnd : Nat) : Nat :=
  table.countP fun entry => entry.inUse && entry.hwnd == hwnd

/-- References are to windows that exist, and the table has room as long as there are fewer windows
than entries. -/
structure WindowState.Live (state : WindowState) : Prop where
  entries : ∀ entry ∈ state.wndTable, entry.inUse = true → entry.hwnd ∈ state.hwnds
  capture : state.Denotes state.hwndCapture
  focus : state.Denotes state.hwndFocus
  foreground : state.Denotes state.hwndForeground
  registered : ∀ hwnd ∈ state.hwnds, entriesOf state.wndTable hwnd = 1
  room : state.windows.length < w32kMaxWindows → ∃ entry ∈ state.wndTable, entry.inUse = false

/-- What a call has to respect: no window is destroyed, a window is created from a class with a
window procedure and when fewer than 64 exist, and only windows that exist are referred to. -/
def WndCall.Respects (state : WindowState) : WndCall → Prop
  | .registerClass _ => True
  | .create name pWnd =>
      ∀ slot, findClassByName state.classTable name = some slot → pWnd ≠ 0 →
        (state.classTable[slot]?).elim 0 ClassEntry.lpfnWndProc ≠ 0 ∧
          state.windows.length < w32kMaxWindows
  | .destroy hWnd => hWnd < 0x1000
  | .setCapture hWnd => hWnd < 0x1000 ∨ hWnd ∈ state.hwnds
  | .setFocus hWnd => hWnd < 0x1000 ∨ hWnd ∈ state.hwnds
  | .setForeground hWnd => hWnd < 0x1000 ∨ hWnd ∈ state.hwnds

/-- All states of a run are live. -/
def LiveThroughout : WindowState → List WndCall → Prop
  | state, [] => state.Live
  | state, call :: calls => state.Live ∧ ∀ next ∈ call.run state, LiveThroughout next calls

/-- All calls of a run respect the state they meet. -/
def CallsRespect : WindowState → List WndCall → Prop
  | _, [] => True
  | state, call :: calls =>
      ∀ next ∈ call.run state, call.Respects state ∧ CallsRespect next calls

/-- What is true of every state of a run, live or not. -/
structure WindowState.Tidy (state : WindowState) : Prop where
  distinct : state.hwnds.Nodup
  size : state.wndTable.length = w32kMaxWindows

section Entries

variable {table : List WndEntry}

theorem entriesOf_pos {hwnd : Nat} :
    0 < entriesOf table hwnd ↔ ∃ entry ∈ table, entry.inUse = true ∧ entry.hwnd = hwnd := by
  unfold entriesOf
  rw [countP_pos_iff]
  simp only [Bool.and_eq_true, beq_iff_eq]

theorem countP_inUse_eq {hwnds : List Nat} (distinct : hwnds.Nodup)
    (entries : ∀ entry ∈ table, entry.inUse = true → entry.hwnd ∈ hwnds)
    (registered : ∀ hwnd ∈ hwnds, entriesOf table hwnd = 1) :
    table.countP WndEntry.inUse = hwnds.length := by
  have same : ((table.filter WndEntry.inUse).map WndEntry.hwnd).Perm hwnds := by
    rw [perm_iff_count]
    intro hwnd
    have count : ((table.filter WndEntry.inUse).map WndEntry.hwnd).count hwnd =
        entriesOf table hwnd := by
      unfold entriesOf
      rw [List.count, countP_map, countP_filter]
      apply List.countP_congr
      intro entry _
      simp only [Function.comp_apply, Bool.and_comm]
    rw [count]
    by_cases member : hwnd ∈ hwnds
    · rw [registered hwnd member, count_eq_one_of_mem distinct member]
    · rw [count_eq_zero_of_not_mem member]
      by_contra positive
      obtain ⟨entry, inTable, inUse, rfl⟩ := entriesOf_pos.mp (Nat.pos_of_ne_zero positive)
      exact member (entries entry inTable inUse)
  rw [← same.length_eq, length_map, countP_eq_length_filter]

theorem entriesOf_set {i : Nat} {old : WndEntry} (listed : table[i]? = some old)
    (free : old.inUse = false) (hwnd wndproc other : Nat) :
    entriesOf (table.set i ⟨hwnd, wndproc, true⟩) other =
      entriesOf table other + if hwnd = other then 1 else 0 := by
  obtain ⟨inside, rfl⟩ := List.getElem?_eq_some_iff.mp listed
  unfold entriesOf
  rw [countP_set inside]
  simp only [free, Bool.false_and, Bool.false_eq_true, if_false, Nat.sub_zero, Bool.true_and,
    beq_iff_eq]

end Entries

section Calls

variable {state next : WindowState}

theorem WindowState.Tidy.exists_free_iff (tidy : state.Tidy)
    (entries : ∀ entry ∈ state.wndTable, entry.inUse = true → entry.hwnd ∈ state.hwnds)
    (registered : ∀ hwnd ∈ state.hwnds, entriesOf state.wndTable hwnd = 1) :
    (∃ entry ∈ state.wndTable, entry.inUse = false) ↔ state.windows.length < w32kMaxWindows := by
  have count := countP_inUse_eq tidy.distinct entries registered
  unfold WindowState.hwnds at count
  rw [length_map] at count
  rw [← count, ← tidy.size]
  constructor
  · rintro ⟨entry, member, free⟩
    apply Nat.lt_of_le_of_ne countP_le_length
    intro all
    have inUse := countP_eq_length.mp all entry member
    rw [free] at inUse
    cases inUse
  · intro fewer
    by_contra none
    apply Nat.ne_of_lt fewer
    rw [countP_eq_length]
    intro entry member
    by_contra free
    exact none ⟨entry, member, Bool.eq_false_iff.mpr free⟩

theorem win32kRegisterWindowProc_length (table : List WndEntry) (hwnd wndproc : Nat) :
    (win32kRegisterWindowProc table hwnd wndproc).2.length = table.length := by
  unfold win32kRegisterWindowProc
  split
  · rfl
  · split
    · exact length_set
    · rfl

theorem userCreateWindowEx_cases (state : WindowState) (name : Option ClassName) (pWnd : Nat) :
    (∃ slot, findClassByName state.classTable name = some slot ∧ pWnd ≠ 0 ∧
      (userCreateWindowEx state name pWnd).2 =
        { state with
          windows := ⟨pWnd, (state.classTable[slot]?).elim 0 ClassEntry.lpfnWndProc⟩ ::
            state.windows
          wndTable := (win32kRegisterWindowProc state.wndTable pWnd
            ((state.classTable[slot]?).elim 0 ClassEntry.lpfnWndProc)).2 }) ∨
      (¬ (∃ slot, findClassByName state.classTable name = some slot ∧ pWnd ≠ 0) ∧
        (userCreateWindowEx state name pWnd).2 = state) := by
  unfold userCreateWindowEx
  cases name with
  | none =>
    right
    refine ⟨?_, rfl⟩
    rintro ⟨slot, absent, -⟩
    cases absent
  | some name =>
    cases found : findClassByName state.classTable (some name) with
    | none =>
      right
      refine ⟨?_, by simp only [found]⟩
      rintro ⟨slot, absent, -⟩
      cases absent
    | some slot =>
      by_cases null : pWnd = 0
      · right
        refine ⟨?_, by simp only [found, if_pos null]⟩
        rintro ⟨-, -, nonNull⟩
        exact nonNull null
      · left
        exact ⟨slot, rfl, null, by simp only [found, if_neg null]⟩

theorem WndCall.run_tidy {call : WndCall} (tidy : state.Tidy) (done : call.run state = some next) :
    next.Tidy := by
  cases call with
  | create name pWnd =>
    rw [WndCall.run] at done
    split at done
    · cases done
    rename_i fresh
    cases done
    rcases userCreateWindowEx_cases state name pWnd with ⟨slot, -, -, created⟩ | ⟨-, same⟩
    · rw [created]
      constructor
      · exact nodup_cons.mpr ⟨fresh, tidy.distinct⟩
      · exact (win32kRegisterWindowProc_length _ _ _).trans tidy.size
    · rw [same]
      exact tidy
  | destroy hWnd =>
    rw [WndCall.run, userDestroyWindow] at done
    split at done
    · cases done
    · cases done
      split
      · exact tidy
      · constructor
        · exact tidy.distinct.sublist (filter_sublist.map _)
        · exact tidy.size
  | setForeground hWnd =>
    cases done
    unfold userSetForegroundWindow
    split
    · exact tidy
    · exact ⟨tidy.distinct, tidy.size⟩
  | registerClass cls | setCapture hWnd | setFocus hWnd =>
    cases done
    exact ⟨tidy.distinct, tidy.size⟩

theorem WindowState.Live.entriesOf_eq_zero (live : state.Live) {hwnd : Nat}
    (fresh : hwnd ∉ state.hwnds) : entriesOf state.wndTable hwnd = 0 := by
  by_contra positive
  obtain ⟨entry, member, inUse, rfl⟩ := entriesOf_pos.mp (Nat.pos_of_ne_zero positive)
  exact fresh (live.entries entry member inUse)

theorem WindowState.denotes_stored_iff (hWnd : Nat) :
    state.Denotes (if hWnd ≠ 0 ∧ hWnd < 0x1000 then 0 else hWnd) ↔
      hWnd < 0x1000 ∨ hWnd ∈ state.hwnds := by
  unfold WindowState.Denotes
  split
  · rename_i low
    exact iff_of_true (.inl rfl) (.inl low.2)
  constructor
  · rintro (zero | member)
    · exact .inl (by omega)
    · exact .inr member
  · rintro (low | member)
    · exact .inl (by omega)
    · exact .inr member

/-- A window that has been created is in the table if its class has a window procedure and the
table has room. -/
theorem create_live_iff (live : state.Live) (tidy : state.Tidy) {pWnd : Nat}
    (fresh : pWnd ∉ state.hwnds) (nonNull : pWnd ≠ 0) (lpfnWndProc : Nat) :
    WindowState.Live
      { state with
        windows := ⟨pWnd, lpfnWndProc⟩ :: state.windows
        wndTable := (win32kRegisterWindowProc state.wndTable pWnd lpfnWndProc).2 } ↔
      lpfnWndProc ≠ 0 ∧ state.windows.length < w32kMaxWindows := by
  have before := live.entriesOf_eq_zero fresh
  have room := tidy.exists_free_iff live.entries live.registered
  constructor
  · intro after
    have one := after.registered pWnd mem_cons_self
    dsimp only at one
    rw [← room]
    by_contra refused
    have same : (win32kRegisterWindowProc state.wndTable pWnd lpfnWndProc).2 = state.wndTable := by
      unfold win32kRegisterWindowProc
      split
      · rfl
      · rename_i given
        split
        · rename_i i found
          obtain ⟨inside, free, -⟩ := findIdx?_eq_some_iff_getElem.mp found
          refine absurd ⟨fun zero => given (.inr zero), _, getElem_mem inside, ?_⟩ refused
          simpa using free
        · rfl
    rw [same] at one
    omega
  · rintro ⟨given, fewer⟩
    obtain ⟨entry, member, free⟩ := room.mpr fewer
    cases found : state.wndTable.findIdx? fun entry => !entry.inUse with
    | none =>
      have inUse := findIdx?_eq_none_iff.mp found entry member
      rw [free] at inUse
      cases inUse
    | some i =>
      obtain ⟨inside, isFree, -⟩ := findIdx?_eq_some_iff_getElem.mp found
      have registered : (win32kRegisterWindowProc state.wndTable pWnd lpfnWndProc).2 =
          state.wndTable.set i ⟨pWnd, lpfnWndProc, true⟩ := by
        unfold win32kRegisterWindowProc
        rw [if_neg (by omega), found]
      rw [registered]
      have count := entriesOf_set (getElem?_eq_getElem inside) (by simpa using isFree) pWnd
        lpfnWndProc
      have entries : ∀ entry ∈ state.wndTable.set i ⟨pWnd, lpfnWndProc, true⟩,
          entry.inUse = true → entry.hwnd ∈ pWnd :: state.hwnds := by
        intro entry member inUse
        rcases mem_or_eq_of_mem_set member with old | rfl
        · exact mem_cons_of_mem _ (live.entries entry old inUse)
        · exact mem_cons_self
      have ones : ∀ hwnd ∈ pWnd :: state.hwnds,
          entriesOf (state.wndTable.set i ⟨pWnd, lpfnWndProc, true⟩) hwnd = 1 := by
        intro hwnd member
        rw [count]
        rcases mem_cons.mp member with rfl | old
        · rw [before, if_pos rfl]
        · rw [live.registered hwnd old, if_neg fun same : pWnd = hwnd => fresh (same ▸ old)]
      have denotes : ∀ {hWnd : Nat}, state.Denotes hWnd → hWnd = 0 ∨ hWnd ∈ pWnd :: state.hwnds :=
        fun denoted => denoted.imp_right (mem_cons_of_mem _)
      have tidyAfter : WindowState.Tidy
          { state with
            windows := ⟨pWnd, lpfnWndProc⟩ :: state.windows
            wndTable := state.wndTable.set i ⟨pWnd, lpfnWndProc, true⟩ } :=
        ⟨nodup_cons.mpr ⟨fresh, tidy.distinct⟩, length_set.trans tidy.size⟩
      constructor
      case entries => exact entries
      case capture => exact denotes live.capture
      case focus => exact denotes live.focus
      case foreground => exact denotes live.foreground
      case registered => exact ones
      case room => exact (tidyAfter.exists_free_iff entries ones).mpr

theorem destroy_not_live (live : state.Live) {hWnd : Nat} (member : hWnd ∈ state.hwnds) :
    ¬ WindowState.Live
      { state with windows := state.windows.filter fun window => window.hwnd != hWnd } := by
  intro after
  have one := live.registered hWnd member
  obtain ⟨entry, inTable, inUse, rfl⟩ := 
    entriesOf_pos.mp (show 0 < entriesOf state.wndTable hWnd by omega)
  obtain ⟨window, kept, same⟩ := List.mem_map.mp (after.entries entry inTable inUse)
  have other := (mem_filter.mp kept).2
  rw [same] at other
  simp at other

/-- A call leaves no stale window exactly if it meets the condition. -/
theorem WndCall.run_live_iff {call : WndCall} (live : state.Live) (tidy : state.Tidy)
    (done : call.run state = some next) : next.Live ↔ call.Respects state := by
  cases call with
  | registerClass cls =>
    cases done
    apply iff_of_true _ trivial
    exact ⟨live.entries, live.capture, live.focus, live.foreground, live.registered, live.room⟩
  | create name pWnd =>
    rw [WndCall.run] at done
    split at done
    · cases done
    rename_i fresh
    cases done
    unfold WndCall.Respects
    rcases userCreateWindowEx_cases state name pWnd with
      ⟨slot, found, nonNull, created⟩ | ⟨nothing, same⟩
    · rw [created, create_live_iff live tidy fresh nonNull]
      constructor
      · intro fits other isOther _
        rw [found] at isOther
        cases isOther
        exact fits
      · intro fits
        exact fits slot found nonNull
    · rw [same]
      apply iff_of_true live
      intro slot found nonNull
      exact absurd ⟨slot, found, nonNull⟩ nothing
  | destroy hWnd =>
    rw [WndCall.run, userDestroyWindow] at done
    unfold WndCall.Respects
    split at done
    · cases done
    rename_i defined
    cases done
    split
    · rename_i low
      exact iff_of_true live low
    · rename_i high
      apply iff_of_false _ high
      apply destroy_not_live live
      by_contra absent
      exact defined ⟨Nat.le_of_not_lt high, absent⟩
  | setCapture hWnd =>
    cases done
    rw [WndCall.Respects, ← WindowState.denotes_stored_iff]
    constructor
    · exact fun after => after.capture
    · intro stored
      exact ⟨live.entries, stored, live.focus, live.foreground, live.registered, live.room⟩
  | setFocus hWnd =>
    cases done
    rw [WndCall.Respects, ← WindowState.denotes_stored_iff]
    constructor
    · exact fun after => after.focus
    · intro stored
      exact ⟨live.entries, live.capture, stored, live.foreground, live.registered, live.room⟩
  | setForeground hWnd =>
    cases done
    rw [WndCall.Respects]
    unfold userSetForegroundWindow
    split
    · rename_i low
      exact iff_of_true live (.inl low.2)
    rename_i high
    have stored := state.denotes_stored_iff hWnd
    rw [if_neg high] at stored
    rw [← stored]
    constructor
    · exact fun after => after.foreground
    · intro denoted
      exact ⟨live.entries, live.capture, live.focus, denoted, live.registered, live.room⟩

end Calls

/-- Along a run, from any live and tidy state. -/
theorem liveThroughout_iff_of_live {state : WindowState} (live : state.Live) (tidy : state.Tidy)
    (calls : List WndCall) : LiveThroughout state calls ↔ CallsRespect state calls := by
  induction calls generalizing state with
  | nil => exact iff_of_true live trivial
  | cons call calls ih =>
    unfold LiveThroughout CallsRespect
    constructor
    · rintro ⟨-, throughout⟩ next done
      have later := throughout next done
      have nextLive : next.Live := by
        cases calls with
        | nil => exact later
        | cons _ _ => exact later.1
      exact ⟨(WndCall.run_live_iff live tidy done).mp nextLive,
        (ih nextLive (WndCall.run_tidy tidy done)).mp later⟩
    · intro respects
      refine ⟨live, fun next done => ?_⟩
      obtain ⟨here, rest⟩ := respects next done
      exact (ih ((WndCall.run_live_iff live tidy done).mpr here)
        (WndCall.run_tidy tidy done)).mpr rest

theorem run_destroy {state : WindowState} {hWnd : Nat} (member : hWnd ∈ state.hwnds) :
    (WndCall.destroy hWnd).run state = some (userDestroyWindow state hWnd).2 := by
  rw [WndCall.run, if_neg]
  rintro ⟨-, wild⟩
  exact wild member

theorem windowInit_live : windowInit.Live where
  entries := by decide
  capture := .inl rfl
  focus := .inl rfl
  foreground := .inl rfl
  registered := fun hwnd absent => nomatch absent
  room := fun _ => ⟨⟨0, 0, false⟩, by decide, rfl⟩

theorem windowInit_tidy : windowInit.Tidy := ⟨nodup_nil, rfl⟩

/-- In every run the references stay live exactly as long as the calls respect the state. -/
theorem windowReferences_live (calls : List WndCall) :
    LiveThroughout windowInit calls ↔ CallsRespect windowInit calls :=
  liveThroughout_iff_of_live windowInit_live windowInit_tidy calls

def letterA : ClassName := ⟨[0x41], by decide⟩

/-- A window of the class `A` is created and destroyed. -/
def createAndDestroy : List WndCall :=
  [.registerClass (some ⟨0x400000, 0, 0, some letterA⟩), .create (some letterA) 0x200000,
    .destroy 0x200000]

/-- The entry of the window is still in use. -/
theorem createAndDestroy_not_live : ¬ LiveThroughout windowInit createAndDestroy := by
  intro throughout
  have created := (throughout.2 _ rfl).2 _ rfl
  have member : 0x200000 ∈ (userCreateWindowEx
      { windowInit with
        classTable :=
          (userRegisterClassEx windowInit.classTable (some ⟨0x400000, 0, 0, some letterA⟩)).2 }
      (some letterA) 0x200000).2.hwnds := by decide +kernel
  have destroyed := created.2 _ (run_destroy member)
  have entry := destroyed.entries ⟨0x200000, 0x400000, true⟩ (by decide +kernel) rfl
  exact absurd entry (by decide +kernel)

end MinNT.Win32k
