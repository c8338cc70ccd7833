import Mathlib.Data.List.Nodup
import MinNT.Boot.SubsystemRegistry

namespace MinNT.Boot

open List

theorem char_append (front rest : List (BitVec 8)) (string : CString)
    (shape : string.chars = front ++ rest) : string.char front.length = rest.headD 0 := by
  rw [CString.char, shape, getD_eq_getElem?_getD, getElem?_append_right (Nat.le_refl _),
    Nat.sub_self, headD_eq_head?_getD, head?_eq_getElem?]

theorem CString.char_ne_zero (string : CString) {char : BitVec 8}
    (member : char ∈ string.chars) : char ≠ 0#8 := by
  intro isZero
  rw [isZero] at member
  exact string.terminated member

theorem sameName_iff_rest {recorded name : CString} {left : Nat}
    {front other first second : List (BitVec 8)} (recordedShape : recorded.chars = front ++ first)
    (nameShape : name.chars = other ++ second) (aligned : front.length = other.length)
    (short : first.length < left) :
    sameName recorded name left front.length = true ↔ first = second := by
  induction left generalizing front other first second with
  | zero => omega
  | succ left ih =>
    have recordedChar := char_append front first recorded recordedShape
    have nameChar := char_append other second name nameShape
    rw [← aligned] at nameChar
    rw [sameName, recordedChar, nameChar]
    have recordedNonzero : ∀ char ∈ first, char ≠ 0#8 := by
      intro char member
      apply recorded.char_ne_zero
      rw [recordedShape]
      exact mem_append_right _ member
    have nameNonzero : ∀ char ∈ second, char ≠ 0#8 := by
      intro char member
      apply name.char_ne_zero
      rw [nameShape]
      exact mem_append_right _ member
    cases first with
    | nil =>
      cases second with
      | nil => simp
      | cons char second =>
        have nonzero := nameNonzero char mem_cons_self
        simpa using fun same : 0#8 = char => absurd same.symm nonzero
    | cons char first =>
      have nonzero := recordedNonzero char mem_cons_self
      cases second with
      | nil => simp [nonzero]
      | cons char' second =>
        by_cases same : char = char'
        · subst char'
          have recordedNext : recorded.chars = (front ++ [char]) ++ first := by
            simp [recordedShape]
          have nameNext : name.chars = (other ++ [char]) ++ second := by
            simp [nameShape]
          have rest := ih recordedNext nameNext (by simp [aligned]) (by simpa using short)
          simpa [nonzero] using rest
        · simp [same]

theorem sameName_iff {recorded name : CString} (short : recorded.chars.length < bootMaxName) :
    sameName recorded name bootMaxName 0 = true ↔ recorded = name := by
  have rest := sameName_iff_rest (show recorded.chars = [] ++ recorded.chars from rfl)
    (show name.chars = [] ++ name.chars from rfl) rfl short
  rw [length_nil] at rest
  rw [rest]
  cases recorded
  cases name
  simp

/-- A registry that calls of `BootRegisterSubsystemEx` have built, with the names
it took in the order of their registration. -/
inductive Built : Registry → List CString → Prop
  | zeroed : Built (fun _ => zeroedRec) []
  | taken {registry next : Registry} {names : List CString} (built : Built registry names)
      (name : CString) (init : Nat) (deps : List (Option CString)) (phase : Nat)
      (short : name.chars.length < bootMaxName) (small : phase < 2 ^ 32 - 1)
      (done : bootRegisterSubsystemEx registry (some name) (some init) deps phase =
        (statusSuccess, next)) : Built next (names ++ [name])
  | refused {registry next : Registry} {names : List CString} (built : Built registry names)
      (name : Option CString) (init : Option Nat) (deps : List (Option CString)) (phase : Nat)
      {status : NtStatus} (failed : status ≠ statusSuccess)
      (done : bootRegisterSubsystemEx registry name init deps phase = (status, next)) :
      Built next names

/-- What registration keeps: the names fill the first slots, and are different. -/
structure Registered (registry : Registry) (names : List CString) : Prop where
  fits : names.length ≤ bootMaxSubsystems
  used : ∀ i, (registry i).inUse = true ↔ i < names.length
  name : ∀ i, i < names.length → names[i]? = some (registry i).name
  once : names.Nodup
  short : ∀ name ∈ names, name.chars.length < bootMaxName
  small : ∀ i, (registry i).phase < 2 ^ 32 - 1

theorem mem_slots {i : Nat} : i ∈ slots ↔ i < bootMaxSubsystems := mem_range

section Registered

variable {registry next : Registry} {names : List CString}

theorem Registered.name_mem (registered : Registered registry names) {i : Nat}
    (used : (registry i).inUse = true) : (registry i).name ∈ names := by
  have inside := (registered.used i).mp used
  exact mem_of_getElem? (registered.name i inside)

theorem take_of_short {name : CString} (short : name.chars.length < bootMaxName) :
    name.take (bootMaxName - 1) = name := by
  cases name with
  | mk chars terminated =>
    simp only [CString.take, CString.mk.injEq]
    apply take_of_length_le
    change chars.length < 32 at short
    change chars.length ≤ 31
    omega

theorem Registered.freeSlot (registered : Registered registry names) {i : Nat}
    (found : slots.find? (fun i => !(registry i).inUse) = some i) :
    i = names.length ∧ i < bootMaxSubsystems := by
  have bound := mem_slots.mp (mem_of_find?_eq_some found)
  have free : (registry i).inUse = false := by simpa using find?_some found
  refine ⟨?_, bound⟩
  have notBelow : ¬ i < names.length := by
    rw [← registered.used i]
    simp [free]
  by_contra different
  rw [slots, find?_range_eq_some] at found
  have before := found.2.2 names.length (by omega)
  have isUsed : (registry names.length).inUse = true := by simpa using before
  exact absurd ((registered.used names.length).mp isUsed) (Nat.lt_irrefl _)

/-- A registration takes the next slot. -/
theorem Registered.taken (registered : Registered registry names) {name : CString} {init : Nat}
    {deps : List (Option CString)} {phase : Nat} (short : name.chars.length < bootMaxName)
    (small : phase < 2 ^ 32 - 1)
    (done : bootRegisterSubsystemEx registry (some name) (some init) deps phase =
      (statusSuccess, next)) : Registered next (names ++ [name]) := by
  rw [bootRegisterSubsystemEx] at done
  split at done
  · simp [statusInvalidParameter, statusSuccess] at done
  split at done
  · simp [statusObjectNameCollision, statusSuccess] at done
  rename_i fresh
  split at done
  · rename_i i found
    obtain ⟨rfl, bound⟩ := registered.freeSlot found
    rw [take_of_short short] at done
    have isNext := (Prod.mk.inj done).2
    have new : next names.length = ⟨name, some init, deps, phase, false, true⟩ := by
      rw [← isNext, Function.update_self]
    have old : ∀ i, i ≠ names.length → next i = registry i := by
      intro i different
      rw [← isNext, Function.update_of_ne different]
    have absent : name ∉ names := by
      intro member
      obtain ⟨i, inside, same⟩ := getElem_of_mem member
      have isName := registered.name i inside
      rw [getElem?_eq_getElem inside, same, Option.some.injEq] at isName
      apply fresh
      rw [any_eq_true]
      refine ⟨i, mem_slots.mpr (by have := registered.fits; omega), ?_⟩
      rw [Bool.and_eq_true]
      refine ⟨(registered.used i).mpr inside, ?_⟩
      rw [← isName]
      exact (sameName_iff short).mpr rfl
    refine ⟨?_, ?_, ?_, ?_, ?_, ?_⟩
    · rw [length_append, length_singleton]
      exact bound
    · intro i
      rw [length_append, length_singleton]
      by_cases last : i = names.length
      · subst i
        simp [new]
      · rw [old i last, registered.used i]
        omega
    · intro i inside
      rw [length_append, length_singleton] at inside
      by_cases last : i = names.length
      · subst i
        simp [new]
      · have before : i < names.length := by omega
        rw [getElem?_append_left before, old i last]
        exact registered.name i before
    · rw [nodup_append]
      refine ⟨registered.once, nodup_singleton name, ?_⟩
      intro other member last single same
      rw [mem_singleton.mp single] at same
      exact absent (same ▸ member)
    · intro other member
      rcases mem_append.mp member with before | last
      · exact registered.short other before
      · rw [mem_singleton.mp last]
        exact short
    · intro i
      by_cases last : i = names.length
      · subst i
        rw [new]
        exact small
      · rw [old i last]
        exact registered.small i
  · simp [statusNoMemory, statusSuccess] at done

theorem refused_same {name : Option CString} {init : Option Nat} {deps : List (Option CString)}
    {phase : Nat} {status : NtStatus} (failed : status ≠ statusSuccess)
    (done : bootRegisterSubsystemEx registry name init deps phase = (status, next)) :
    next = registry := by
  unfold bootRegisterSubsystemEx at done
  split at done
  · split at done
    · exact (Prod.mk.inj done).2.symm
    · split at done
      · exact (Prod.mk.inj done).2.symm
      · split at done
        · exact absurd (Prod.mk.inj done).1.symm failed
        · exact (Prod.mk.inj done).2.symm
  · exact (Prod.mk.inj done).2.symm

theorem Built.registered (built : Built registry names) : Registered registry names := by
  induction built with
  | zeroed =>
    refine ⟨Nat.zero_le _, ?_, ?_, nodup_nil, ?_, fun _ => ?_⟩
    · intro i
      simp [zeroedRec]
    · intro i inside
      exact absurd inside (Nat.not_lt_zero i)
    · exact fun name member => absurd member not_mem_nil
    · simp [zeroedRec]
  | taken _ name init deps phase short small done ih => exact ih.taken short small done
  | refused _ name init deps phase failed done ih =>
    rw [refused_same failed done]
    exact ih

end Registered

/-- A registry the sort meets: registered subsystems, marked for a profile. -/
structure Marked (registry : Registry) : Prop where
  used : ∀ i, (registry i).inUse = true → i < bootMaxSubsystems
  once : ∀ i j, (registry i).inUse = true → (registry j).inUse = true →
    (registry i).name = (registry j).name → i = j
  short : ∀ i, (registry i).inUse = true → (registry i).name.chars.length < bootMaxName
  small : ∀ i, (registry i).phase < 2 ^ 32 - 1

theorem bootMarkShouldInit_same (allows : CString → Bool) (registry : Registry) (i : Nat) :
    bootMarkShouldInit allows registry i =
      { registry i with shouldInit := (bootMarkShouldInit allows registry i).shouldInit } := by
  rw [bootMarkShouldInit]
  split
  · rfl
  · rfl

/-- Registered subsystems make a marked registry. -/
theorem Registered.marked {registry : Registry} {names : List CString}
    (registered : Registered registry names) (allows : CString → Bool) :
    Marked (bootMarkShouldInit allows registry) := by
  have inUse : ∀ i, (bootMarkShouldInit allows registry i).inUse = (registry i).inUse := by
    intro i
    rw [bootMarkShouldInit_same]
  have name : ∀ i, (bootMarkShouldInit allows registry i).name = (registry i).name := by
    intro i
    rw [bootMarkShouldInit_same]
  have bound : ∀ i, (registry i).inUse = true → i < names.length :=
    fun i used => (registered.used i).mp used
  refine ⟨?_, ?_, ?_, ?_⟩
  · intro i used
    rw [inUse] at used
    have inside := bound i used
    have fits := registered.fits
    omega
  · intro i j usedFirst usedSecond same
    rw [inUse] at usedFirst usedSecond
    rw [name, name] at same
    have first := registered.name i (bound i usedFirst)
    have second := registered.name j (bound j usedSecond)
    rw [← same, ← first] at second
    exact ((getElem?_inj (bound j usedSecond) registered.once).mp second).symm
  · intro i used
    rw [inUse] at used
    rw [name]
    exact registered.short _ (registered.name_mem used)
  · intro i
    rw [bootMarkShouldInit_same]
    exact registered.small i

end MinNT.Boot
