import MinNT.Cm.Registry
import MinNT.NtStatus

/-! The window classes of `win32k/userwnd.c`: a table of 64 slots that is searched by name. -/

namespace MinNT.Win32k

open List
open Cm (WChar rtlpUpcase)

def maxClasses : Nat := 64

/-- A `UNICODE_STRING` with what its buffer holds; the lengths are in bytes. -/
structure CountedString where
  length : Nat
  maximumLength : Nat
  buffer : List WChar

/-- The string that a `PCWSTR` points to. -/
structure ClassName where
  chars : List WChar
  noTerminator : 0 ∉ chars
deriving DecidableEq

/-- The part of a `W32K_WNDCLASS` that is used. -/
structure WndClass where
  lpfnWndProc : Nat
  hInstance : Nat
  hbrBackground : Nat
  lpszClassName : Option ClassName
deriving DecidableEq

/-- A `W32K_CLASS_ENTRY`. -/
structure ClassEntry where
  lpfnWndProc : Nat
  hbrBackground : Nat
  hInstance : Nat
  szClassName : List WChar
  inuse : Bool
deriving DecidableEq

/-- The static `g_ClassTable`. -/
def classTable : List ClassEntry :=
  replicate maxClasses
    { lpfnWndProc := 0
      hbrBackground := 0
      hInstance := 0
      szClassName := replicate 64 0
      inuse := false }

def win32kInitClassTable (table : List ClassEntry) : List ClassEntry :=
  table.map fun entry => { entry with inuse := false }

def rtlEqualUnicodeString (a b : CountedString) (caseInsensitive : Bool) : Bool :=
  if a.length ≠ b.length then false
  else
    (range (a.length / 2)).all fun i =>
      let x := a.buffer.getD i 0
      let y := b.buffer.getD i 0
      if caseInsensitive then rtlpUpcase x == rtlpUpcase y else x == y

/-- `FindClassByName`, by the index into `g_ClassTable`. -/
def findClassByName (table : List ClassEntry) (lpClassName : Option ClassName) : Option Nat :=
  match lpClassName with
  | none => none
  | some name =>
      table.findIdx? fun entry =>
        entry.inuse &&
          -- both lengths are set to 0
          rtlEqualUnicodeString ⟨0, 2 * 64, entry.szClassName⟩ ⟨0, 0, name.chars⟩ true

def userRegisterClassEx (table : List ClassEntry) (pWndClass : Option WndClass) :
    NtStatus × List ClassEntry :=
  match pWndClass with
  | none => (statusInvalidParameter, table)
  | some cls =>
      match cls.lpszClassName with
      | none => (statusInvalidParameter, table)
      | some name =>
          match findClassByName table (some name) with
          | some _ => (statusObjectNameNotFound, table)
          | none =>
              match table.findIdx? fun entry => !entry.inuse with
              | none => (statusNoMemory, table)
              | some slot =>
                  let nameLen := min 63 name.chars.length
                  (statusSuccess,
                    table.modify slot fun entry =>
                      { lpfnWndProc := cls.lpfnWndProc
                        hbrBackground := cls.hbrBackground
                        hInstance := cls.hInstance
                        szClassName :=
                          name.chars.take nameLen ++ 0 :: entry.szClassName.drop (nameLen + 1)
                        inuse := true })

/-- The classes that have been registered, in the order of their slots, and the table. -/
structure ClassRegistry where
  classes : List WndClass
  table : List ClassEntry

def ClassRegistry.register (registry : ClassRegistry) (call : Option WndClass) : ClassRegistry :=
  let answer := userRegisterClassEx registry.table call
  ⟨if answer.1 = statusSuccess then registry.classes ++ call.toList else registry.classes, answer.2⟩

def emptyRegistry : ClassRegistry := ⟨[], win32kInitClassTable classTable⟩

/-- What a sequence of calls leaves. -/
def afterRegistrations (calls : List (Option WndClass)) : ClassRegistry :=
  calls.foldl ClassRegistry.register emptyRegistry

/-- Names that are equal but for case. -/
def ClassName.Same (left right : ClassName) : Prop :=
  left.chars.map rtlpUpcase = right.chars.map rtlpUpcase

instance (left right : ClassName) : Decidable (left.Same right) :=
  inferInstanceAs (Decidable (_ = _))

def WndClass.Named (cls : WndClass) (name : ClassName) : Prop :=
  ∃ own, cls.lpszClassName = some own ∧ own.Same name

/-- The slot has the class. -/
def ClassRegistry.HasAt (registry : ClassRegistry) (slot : Nat) (cls : WndClass) : Prop :=
  ∃ entry, registry.table[slot]? = some entry ∧ entry.inuse = true ∧
    entry.lpfnWndProc = cls.lpfnWndProc ∧ entry.hbrBackground = cls.hbrBackground ∧
    entry.hInstance = cls.hInstance

/-- A lookup finds the class that has the name, and nothing if no class has it. -/
def ClassRegistry.LookupRight (registry : ClassRegistry) (name : ClassName) : Prop :=
  match findClassByName registry.table (some name) with
  | some slot => ∃ cls, registry.classes[slot]? = some cls ∧ registry.HasAt slot cls ∧
    cls.Named name
  | none => ∀ cls ∈ registry.classes, ¬ cls.Named name

/-- A class can be registered unless one with its name is; then nothing changes. -/
def ClassRegistry.RegisterRight (registry : ClassRegistry) (cls : WndClass) (name : ClassName) :
    Prop :=
  let answer := userRegisterClassEx registry.table (some cls)
  ((∃ other ∈ registry.classes, other.Named name) →
      answer.1 ≠ statusSuccess ∧ answer.2 = registry.table) ∧
    ((∀ other ∈ registry.classes, ¬ other.Named name) →
      answer.1 = statusSuccess ∧
        (registry.register (some cls)).HasAt registry.classes.length cls)

/-- The first class with a name that a sequence of calls has. -/
def firstNamed (calls : List (Option WndClass)) : Option (WndClass × ClassName) :=
  calls.findSome? fun call =>
    call.bind fun cls => cls.lpszClassName.map fun name => (cls, name)

section Lookup

variable {table : List ClassEntry}

theorem findClassByName_eq (table : List ClassEntry) (name : ClassName) :
    findClassByName table (some name) = table.findIdx? ClassEntry.inuse := by
  have equal : ∀ entry : ClassEntry, (entry.inuse && rtlEqualUnicodeString
      ⟨0, 2 * 64, entry.szClassName⟩ ⟨0, 0, name.chars⟩ true) = entry.inuse :=
    fun entry => by simp [rtlEqualUnicodeString]
  simp only [findClassByName, equal]

theorem userRegisterClassEx_first {cls : WndClass} {name : ClassName}
    (named : cls.lpszClassName = some name) :
    userRegisterClassEx (win32kInitClassTable classTable) (some cls) =
      (statusSuccess, (win32kInitClassTable classTable).modify 0 fun entry =>
        { lpfnWndProc := cls.lpfnWndProc
          hbrBackground := cls.hbrBackground
          hInstance := cls.hInstance
          szClassName := name.chars.take (min 63 name.chars.length) ++
            0 :: entry.szClassName.drop (min 63 name.chars.length + 1)
          inuse := true }) := by
  have none : (win32kInitClassTable classTable).findIdx? ClassEntry.inuse = none := by decide
  have first : ((win32kInitClassTable classTable).findIdx? fun entry => !entry.inuse) = some 0 :=
    by decide
  simp only [userRegisterClassEx, named, findClassByName_eq, none, first]

theorem userRegisterClassEx_taken {slot : Nat}
    (taken : table.findIdx? ClassEntry.inuse = some slot) (call : Option WndClass) :
    (userRegisterClassEx table call).1 ≠ statusSuccess ∧
      (userRegisterClassEx table call).2 = table := by
  have invalid : statusInvalidParameter ≠ statusSuccess := by decide
  have duplicate : statusObjectNameNotFound ≠ statusSuccess := by decide
  cases call with
  | none => exact ⟨invalid, rfl⟩
  | some cls =>
    cases named : cls.lpszClassName with
    | none =>
      simp only [userRegisterClassEx, named]
      exact ⟨invalid, trivial⟩
    | some name =>
      simp only [userRegisterClassEx, named, findClassByName_eq, taken]
      exact ⟨duplicate, trivial⟩

end Lookup

/-- The registry with one class. -/
structure ClassRegistry.Only (registry : ClassRegistry) (cls : WndClass) : Prop where
  classes : registry.classes = [cls]
  taken : registry.table.findIdx? ClassEntry.inuse = some 0
  has : registry.HasAt 0 cls

theorem register_first {cls : WndClass} {name : ClassName}
    (named : cls.lpszClassName = some name) : (emptyRegistry.register (some cls)).Only cls := by
  have registered := userRegisterClassEx_first named
  unfold ClassRegistry.register emptyRegistry
  constructor
  · simp only [registered, ↓reduceIte, Option.toList_some, nil_append]
  · simp only [registered]
    rfl
  · simp only [registered]
    exact ⟨_, rfl, rfl, rfl, rfl, rfl⟩

theorem register_nameless {call : Option WndClass}
    (nameless : (call.bind fun cls => cls.lpszClassName.map fun name => (cls, name)) = none) :
    emptyRegistry.register call = emptyRegistry := by
  cases call with
  | none => rfl
  | some cls =>
    rw [Option.bind_some, Option.map_eq_none_iff] at nameless
    unfold ClassRegistry.register userRegisterClassEx
    simp only [nameless]
    rfl

theorem ClassRegistry.Only.register {registry : ClassRegistry} {cls : WndClass}
    (only : registry.Only cls) (call : Option WndClass) : registry.register call = registry := by
  obtain ⟨failed, same⟩ := userRegisterClassEx_taken only.taken call
  unfold ClassRegistry.register
  dsimp only
  rw [if_neg failed, same]

theorem ClassRegistry.Only.foldl {registry : ClassRegistry} {cls : WndClass}
    (only : registry.Only cls) (calls : List (Option WndClass)) :
    calls.foldl ClassRegistry.register registry = registry := by
  induction calls with
  | nil => rfl
  | cons call calls ih => rw [foldl_cons, only.register, ih]

/-- All registrations leave the first class with a name, alone. -/
theorem afterRegistrations_cases (calls : List (Option WndClass)) :
    match firstNamed calls with
    | none => afterRegistrations calls = emptyRegistry
    | some (cls, name) => cls.lpszClassName = some name ∧ (afterRegistrations calls).Only cls := by
  induction calls with
  | nil => rfl
  | cons call calls ih =>
    unfold firstNamed afterRegistrations at *
    rw [findSome?_cons, foldl_cons]
    cases first : call.bind fun cls => cls.lpszClassName.map fun name => (cls, name) with
    | none =>
      rw [register_nameless first]
      exact ih
    | some pair =>
      rw [Option.bind_eq_some_iff] at first
      obtain ⟨cls, rfl, named⟩ := first
      rw [Option.map_eq_some_iff] at named
      obtain ⟨name, named, rfl⟩ := named
      have only := register_first named
      rw [only.foldl]
      exact ⟨named, only⟩

/-- After any registrations a lookup by a name, and the registration of a class with it, are right
exactly if no class had been registered or the name is that of the first one. -/
theorem classes_by_name (calls : List (Option WndClass)) (name : ClassName) :
    ((afterRegistrations calls).LookupRight name ↔
        ∀ first ∈ firstNamed calls, first.2.Same name) ∧
      ∀ cls : WndClass, cls.lpszClassName = some name →
        ((afterRegistrations calls).RegisterRight cls name ↔
          ∀ first ∈ firstNamed calls, first.2.Same name) := by
  have cases := afterRegistrations_cases calls
  cases isFirst : firstNamed calls with
  | none =>
    rw [isFirst] at cases
    dsimp only at cases
    rw [cases]
    have missing : findClassByName emptyRegistry.table (some name) = none := by
      rw [findClassByName_eq]
      decide
    have always : ∀ first ∈ (none : Option (WndClass × ClassName)), first.2.Same name :=
      fun first absent => nomatch absent
    constructor
    · apply iff_of_true _ always
      unfold ClassRegistry.LookupRight
      rw [missing]
      exact fun cls absent => nomatch absent
    · intro cls named
      apply iff_of_true _ always
      constructor
      · rintro ⟨other, absent, -⟩
        cases absent
      · intro
        exact ⟨congrArg Prod.fst (userRegisterClassEx_first named), (register_first named).has⟩
  | some pair =>
    obtain ⟨first, own⟩ := pair
    rw [isFirst] at cases
    dsimp only at cases
    obtain ⟨named, only⟩ := cases
    have same : (∀ entry ∈ some (first, own), entry.2.Same name) ↔ first.Named name := by
      constructor
      · intro all
        exact ⟨own, named, all _ rfl⟩
      · rintro ⟨other, isOther, same⟩ entry isEntry
        cases isEntry
        rw [named] at isOther
        cases isOther
        exact same
    rw [same]
    constructor
    · unfold ClassRegistry.LookupRight
      rw [findClassByName_eq, only.taken, only.classes]
      constructor
      · rintro ⟨cls, isClass, -, right⟩
        cases isClass
        exact right
      · intro right
        exact ⟨first, rfl, only.has, right⟩
    · intro cls isNamed
      have taken := userRegisterClassEx_taken only.taken (some cls)
      unfold ClassRegistry.RegisterRight
      rw [only.classes]
      constructor
      · intro right
        by_contra other
        apply taken.1
        refine (right.2 ?_).1
        intro cls member
        rw [mem_singleton.mp member]
        exact other
      · intro right
        constructor
        · intro
          exact taken
        · intro none
          exact absurd right (none first mem_cons_self)

/-- Two classes with different names: the second one is not registered, and its name finds the
first. -/
theorem not_classes_by_name :
    ∃ a b : WndClass, ∃ name, b.lpszClassName = some name ∧ ¬ a.Named name ∧
      ¬ (afterRegistrations [some a]).RegisterRight b name ∧
      ¬ (afterRegistrations [some a, some b]).LookupRight name := by
  let a : WndClass := ⟨1, 0, 0, some ⟨[0x41], by decide⟩⟩
  let b : WndClass := ⟨2, 0, 0, some ⟨[0x42], by decide⟩⟩
  have other : ¬ a.Named ⟨[0x42], by decide⟩ := by
    rintro ⟨own, isOwn, same⟩
    cases isOwn
    exact absurd same (by decide)
  have one : (afterRegistrations [some a]).Only a := (afterRegistrations_cases [some a]).2
  have two : (afterRegistrations [some a, some b]).Only a :=
    (afterRegistrations_cases [some a, some b]).2
  refine ⟨a, b, ⟨[0x42], by decide⟩, rfl, other, ?_, ?_⟩
  · intro right
    apply (userRegisterClassEx_taken one.taken (some b)).1
    refine (right.2 ?_).1
    intro cls member
    rw [one.classes, mem_singleton] at member
    rw [member]
    exact other
  · unfold ClassRegistry.LookupRight
    rw [findClassByName_eq, two.taken, two.classes]
    rintro ⟨cls, isClass, -, right⟩
    cases isClass
    exact other right

end MinNT.Win32k
