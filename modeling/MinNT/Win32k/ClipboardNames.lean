import MinNT.Cm.Registry
import MinNT.Win32k.Clipboard

namespace MinNT.Clipboard

open List Transition
open MinNT.Cm (WChar)

def clipboardMaxName : Nat := 128

/-- The rows of `FormatNames`, each up to its first null character; a row is written once, over
zeros, so that zeros follow. -/
abbrev FormatNames := List (List WChar)

def wide (chars : List Char) : List WChar := chars.map fun c => BitVec.ofNat 16 c.toNat

def wszText : List WChar := wide ['C', 'F', '_', 'T', 'E', 'X', 'T']
def wszBitmap : List WChar := wide ['C', 'F', '_', 'B', 'I', 'T', 'M', 'A', 'P']
def wszUnicodeText : List WChar :=
  wide ['C', 'F', '_', 'U', 'N', 'I', 'C', 'O', 'D', 'E', 'T', 'E', 'X', 'T']
def wszHDrop : List WChar := wide ['C', 'F', '_', 'H', 'D', 'R', 'O', 'P']

/-- The names that `ClipboardInit` leaves. -/
def formatNamesInit : FormatNames :=
  [wszText, wszBitmap, wszUnicodeText, wszHDrop] ++ replicate (clipboardMaxFormats - 4) []

/-- The loop that measures a name, from character `len` on. -/
def measure (lpFormatName : Nat → WChar) : Nat → Nat → Nat
  | 0, len => len
  | remaining + 1, len =>
      if lpFormatName len ≠ 0 then measure lpFormatName remaining (len + 1) else len

def nameLen (lpFormatName : Nat → WChar) : Nat := measure lpFormatName (clipboardMaxName - 1) 0

/-- What is copied into a row. -/
def rowName (lpFormatName : Nat → WChar) : List WChar :=
  (range (nameLen lpFormatName)).map lpFormatName

def matchesRow (lpFormatName : Nat → WChar) (row : List WChar) : Bool :=
  row.getD 0 0 ≠ 0 && (range (nameLen lpFormatName)).all (fun j => row.getD j 0 = lpFormatName j) &&
    row.getD (nameLen lpFormatName) 0 = 0

def formatOf (i : Nat) : Nat := if i < 4 then i + 1 else 100 + i

/-- `UserRegisterClipboardFormatW`: the status and the format, and the names. -/
def userRegisterClipboardFormatW (names : FormatNames) (lpFormatName : Nat → WChar) :
    (NtStatus × Option Nat) × FormatNames :=
  match names.findIdx? (matchesRow lpFormatName) with
  | some i => ((statusSuccess, some (formatOf i)), names)
  | none =>
      match (names.drop 4).findIdx? fun row => row.getD 0 0 = 0 with
      | some i => ((statusSuccess, some (100 + (4 + i))), names.set (4 + i) (rowName lpFormatName))
      | none => ((statusInsufficientResources, none), names)

variable {lpFormatName : Nat → WChar}

theorem measure_spec (remaining : Nat) {len : Nat} (front : ∀ j < len, lpFormatName j ≠ 0) :
    ∀ j < measure lpFormatName remaining len, lpFormatName j ≠ 0 := by
  induction remaining generalizing len with
  | zero => exact front
  | succ remaining ih =>
    rw [measure]
    split
    · rename_i more
      apply ih
      intro j below
      rcases Nat.lt_succ_iff_lt_or_eq.mp below with earlier | rfl
      · exact front j earlier
      · exact more
    · exact front

theorem rowName_nonzero : 0 ∉ rowName lpFormatName := by
  intro member
  obtain ⟨j, inside, zero⟩ := List.mem_map.mp member
  have front := @measure_spec lpFormatName (clipboardMaxName - 1) 0
    fun j below => absurd below (Nat.not_lt_zero j)
  exact front j (mem_range.mp inside) zero

theorem rowName_getD {j : Nat} (inside : j < nameLen lpFormatName) :
    (rowName lpFormatName).getD j 0 = lpFormatName j := by
  simp [rowName, inside]

theorem getD_ne_zero_iff {row : List WChar} (nonzero : 0 ∉ row) {j : Nat} :
    row.getD j 0 ≠ 0 ↔ j < row.length := by
  constructor
  · intro some
    by_contra behind
    exact some (getD_eq_default _ _ (Nat.not_lt.mp behind))
  · intro inside
    rw [getD_eq_getElem _ _ inside]
    exact fun zero => nonzero (zero ▸ getElem_mem inside)

/-- A row matches a name exactly if it has that name, and the name is not empty. -/
theorem matchesRow_iff {row : List WChar} (nonzero : 0 ∉ row) :
    matchesRow lpFormatName row = true ↔ row ≠ [] ∧ row = rowName lpFormatName := by
  unfold matchesRow
  simp only [Bool.and_eq_true, decide_eq_true_eq, all_eq_true, mem_range]
  rw [getD_ne_zero_iff nonzero, length_pos_iff, and_assoc, and_congr_right_iff]
  intro _
  constructor
  · rintro ⟨same, ends⟩
    have long : row.length ≤ nameLen lpFormatName := by
      by_contra more
      exact (getD_ne_zero_iff nonzero).mpr (Nat.not_le.mp more) ends
    have whole : row.length = nameLen lpFormatName := by
      by_contra short
      have inside : row.length < nameLen lpFormatName := by omega
      have zero := same row.length inside
      rw [getD_eq_default _ _ (Nat.le_refl _), ← rowName_getD inside] at zero
      exact (getD_ne_zero_iff rowName_nonzero).mpr (by simpa [rowName] using inside) zero.symm
    apply ext_getElem
    · simpa [rowName] using whole
    · intro j inside _
      rw [← getD_eq_getElem _ 0 inside, same j (whole ▸ inside)]
      simp [rowName]
  · rintro rfl
    refine ⟨fun j inside => rowName_getD inside, ?_⟩
    exact getD_eq_default _ _ (by simp [rowName])

/-- No name is in two rows. -/
structure NamesSound (names : FormatNames) : Prop where
  nonzero : ∀ row ∈ names, 0 ∉ row
  once : ∀ (i j : Nat) (row : List WChar), names[i]? = some row → names[j]? = some row →
    row ≠ [] → i = j

/-- The name has the format. -/
def HasFormat (names : FormatNames) (name : List WChar) (format : Nat) : Prop :=
  name ≠ [] ∧ ∃ i, names[i]? = some name ∧ formatOf i = format

/-- Later names, in which none has lost its format. -/
structure Extends (names later : FormatNames) : Prop where
  sound : NamesSound later
  keeps : ∀ name format, HasFormat names name format → HasFormat later name format

/-- What a successful registration says holds of the names. -/
def Answers (names : FormatNames) (lpFormatName : Nat → WChar) (answer : NtStatus × Option Nat) :
    Prop :=
  ∀ format, answer = (statusSuccess, some format) → rowName lpFormatName ≠ [] →
    HasFormat names (rowName lpFormatName) format

theorem formatOf_inj {i j : Nat} : formatOf i = formatOf j ↔ i = j := by
  unfold formatOf
  split <;> split <;> omega

section Register

variable {names : FormatNames}

theorem HasFormat.of_row {row : List WChar} {i : Nat} (here : names[i]? = some row)
    (some : row ≠ []) : HasFormat names row (formatOf i) := ⟨some, i, here, rfl⟩

theorem NamesSound.store (sound : NamesSound names) {slot : Nat}
    (fresh : ∀ k : Nat, names[k]? = some (rowName lpFormatName) → rowName lpFormatName = []) :
    NamesSound (names.set slot (rowName lpFormatName)) where
  nonzero := by
    intro row member
    rcases mem_or_eq_of_mem_set member with old | rfl
    · exact sound.nonzero row old
    · exact rowName_nonzero
  once := by
    intro i j row first second some
    rw [getElem?_set] at first second
    split at first
    · split at second
      · omega
      · split at first
        · cases first
          exact absurd (fresh j second) some
        · cases first
    · split at second
      · split at second
        · cases second
          exact absurd (fresh i first) some
        · cases second
      · exact sound.once i j row first second some

/-- A registration answers with the format of its name. -/
theorem register_spec (sound : NamesSound names) (lpFormatName : Nat → WChar) :
    Extends names (userRegisterClipboardFormatW names lpFormatName).2 ∧
    Answers (userRegisterClipboardFormatW names lpFormatName).2 lpFormatName
      (userRegisterClipboardFormatW names lpFormatName).1 := by
  unfold userRegisterClipboardFormatW
  cases known : names.findIdx? (matchesRow lpFormatName) with
  | some i =>
    obtain ⟨inside, matched, _⟩ := findIdx?_eq_some_iff_getElem.mp known
    rw [matchesRow_iff (sound.nonzero _ (getElem_mem inside))] at matched
    refine ⟨⟨sound, fun _ _ has => has⟩, ?_⟩
    intro format answer named
    cases answer
    exact .of_row (by rw [getElem?_eq_getElem inside, matched.2]) named
  | none =>
    dsimp only
    have fresh : ∀ k : Nat, names[k]? = some (rowName lpFormatName) →
        rowName lpFormatName = [] := by
      intro k there
      by_contra named
      have misses := findIdx?_eq_none_iff.mp known _ (mem_of_getElem? there)
      rw [(matchesRow_iff rowName_nonzero).mpr ⟨named, rfl⟩] at misses
      cases misses
    cases place : (names.drop 4).findIdx? fun row => row.getD 0 0 = 0 with
    | none => exact ⟨⟨sound, fun _ _ has => has⟩, fun format answer => by cases answer⟩
    | some i =>
      obtain ⟨inside, zero, _⟩ := findIdx?_eq_some_iff_getElem.mp place
      rw [length_drop] at inside
      have free : names[4 + i]? = some [] := by
        have nonzero := sound.nonzero _ (getElem_mem (show 4 + i < names.length by omega))
        rw [getElem_drop, decide_eq_true_eq] at zero
        rw [getElem?_eq_getElem (by omega), Option.some.injEq]
        by_contra long
        exact (getD_ne_zero_iff nonzero).mpr (length_pos_iff.mpr long) zero
      refine ⟨⟨sound.store fresh, ?_⟩, ?_⟩
      · rintro name format ⟨named, j, there, rfl⟩
        have apart : 4 + i ≠ j := by
          rintro rfl
          rw [free] at there
          cases there
          exact named rfl
        exact .of_row (by rw [getElem?_set_ne apart, there]) named
      · intro format answer named
        cases answer
        have shape : formatOf (4 + i) = 100 + (4 + i) := if_neg (by omega)
        rw [← shape]
        exact .of_row (getElem?_set_self (by omega)) named

/-- Along calls, every answer is the format of its name. -/
theorem register_run (sound : NamesSound names) (calls : List (Nat → WChar)) :
    Extends names (runCalls userRegisterClipboardFormatW names calls).2 ∧
    ∀ (i : Nat) (call : Nat → WChar) (answer : NtStatus × Option Nat), calls[i]? = some call →
      (runCalls userRegisterClipboardFormatW names calls).1[i]? = some answer →
      Answers (runCalls userRegisterClipboardFormatW names calls).2 call answer := by
  induction calls generalizing names with
  | nil => exact ⟨⟨sound, fun _ _ has => has⟩, fun i call answer made => by cases made⟩
  | cons call calls ih =>
    obtain ⟨first, answered⟩ := register_spec sound call
    obtain ⟨rest, later⟩ := ih first.sound
    refine ⟨⟨rest.sound, fun name format has => rest.keeps _ _ (first.keeps _ _ has)⟩, ?_⟩
    intro i made answer listed here
    cases i with
    | zero =>
      cases listed
      cases here
      exact fun format same named => rest.keeps _ _ (answered format same named)
    | succ i => exact later i made answer listed here

end Register

theorem formatNamesInit_sound : NamesSound formatNamesInit where
  nonzero := by decide +kernel
  once := by
    have length : formatNamesInit.length = 64 := by decide +kernel
    have distinct : ∀ i < 64, ∀ j < 64, formatNamesInit[i]? ≠ formatNamesInit[j]? ∨
        formatNamesInit[i]? = some [] ∨ i = j := by
      decide +kernel
    intro i j row first second some
    have inside := length ▸ (List.getElem?_eq_some_iff.mp first).1
    have inside' := length ▸ (List.getElem?_eq_some_iff.mp second).1
    rcases distinct i inside j inside' with different | empty | same
    · exact absurd (first.trans second.symm) different
    · exact absurd (Option.some.inj (first.symm.trans empty)) some
    · exact same

/-- In every run of registrations, two that succeed give the same format exactly if their names, up
to the length of a row, are the same. -/
theorem userRegisterClipboardFormatW_sameFormat_iff (calls : List (Nat → WChar)) {i j : Nat}
    {first second : Nat → WChar} {format format' : Nat} (made : calls[i]? = some first)
    (made' : calls[j]? = some second) (named : rowName first ≠ []) (named' : rowName second ≠ [])
    (answer : (runCalls userRegisterClipboardFormatW formatNamesInit calls).1[i]? =
      some (statusSuccess, some format))
    (answer' : (runCalls userRegisterClipboardFormatW formatNamesInit calls).1[j]? =
      some (statusSuccess, some format')) : format = format' ↔ rowName first = rowName second := by
  obtain ⟨⟨sound, _⟩, answered⟩ := register_run formatNamesInit_sound calls
  obtain ⟨_, k, here, rfl⟩ := answered i first _ made answer format rfl named
  obtain ⟨_, l, there, rfl⟩ := answered j second _ made' answer' format' rfl named'
  rw [formatOf_inj]
  constructor
  · rintro rfl
    exact Option.some.inj (here.symm.trans there)
  · intro same
    rw [← same] at there
    exact sound.once k l _ here there named

/-- A new name, a built-in one, another new one, and the first with more behind its null. -/
def someNames : List (Nat → WChar) :=
  [fun j => (wide ['R', 'T', 'F']).getD j 0, fun j => wszBitmap.getD j 0,
    fun j => (wide ['P']).getD j 0, fun j => (wide ['R', 'T', 'F'] ++ [0, 0x58]).getD j 0]

/-- Four registrations, the first name once more at the end. -/
theorem newName_sameFormat :
    (runCalls userRegisterClipboardFormatW formatNamesInit someNames).1 =
        [104, 2, 105, 104].map (fun format => (statusSuccess, some format)) ∧
      rowName (someNames.getD 0 fun _ => 0) = rowName (someNames.getD 3 fun _ => 0) ∧
      rowName (someNames.getD 0 fun _ => 0) ≠ rowName (someNames.getD 2 fun _ => 0) := by
  have answers : (runCalls userRegisterClipboardFormatW formatNamesInit someNames).1 =
      [104, 2, 105, 104].map (fun format => (statusSuccess, some format)) := by decide +kernel
  have named : ∀ name ∈ someNames, rowName name ≠ [] := by decide +kernel
  have same (j : Nat) (second : Nat → WChar) (format : Nat) (made : someNames[j]? = some second)
      (answer : [104, 2, 105, 104][j]? = some format) :
      104 = format ↔ rowName (someNames.getD 0 fun _ => 0) = rowName second := by
    apply @userRegisterClipboardFormatW_sameFormat_iff someNames 0 j _ _ 104 format rfl made
      (named _ mem_cons_self) (named _ (mem_of_getElem? made))
    · rw [answers]
      rfl
    · rw [answers, getElem?_map, answer]
      rfl
  exact ⟨answers, (same 3 _ 104 rfl rfl).mp rfl,
    fun equal => absurd ((same 2 _ 105 rfl rfl).mpr equal) (by decide)⟩

end MinNT.Clipboard
