import MinNT.Cm.KeyPaths
import MinNT.Cm.LockedCalls

namespace MinNT.Cm

open Ke

def cmEnumerateValue (registry : Registry) (key : Option Nat) (index : Nat)
    (outDataLength : Option Nat) : EnumerateResult :=
  match key with
  | none => ⟨statusInvalidParameter, none, none, none⟩
  | some key =>
      match (registry.nodes key).values[index]? with
      | none => ⟨statusNoMoreEntries, none, none, none⟩
      | some value =>
          ⟨statusSuccess, some value.name, some value.dataType,
            if outDataLength.any (fun length => value.data.length ≤ length) then some value.data
            else none⟩

/-- The calls that are there to read the registry. -/
inductive CmRead where
  | openKey (path : List WChar) (room : Nat → Bool)
  | queryValue (key : Option Nat) (valueName : List WChar) (outDataLength : Option Nat)
  | enumerateSubKey (key : Option Nat) (index : Nat)
  | enumerateValue (key : Option Nat) (index : Nat) (outDataLength : Option Nat)

/-- What they answer. -/
inductive CmAnswer where
  | opened (status : NtStatus) (out : Option Nat)
  | queried (result : QueryResult)
  | subKey (status : NtStatus) (name : Option (List WChar))
  | value (result : EnumerateResult)
deriving DecidableEq

/-- The answer, and the registry after the call. `none` is a call that does not
return. -/
def CmRead.run (buffers : Buffers) (registry : Registry) : CmRead → Option (CmAnswer × Registry)
  | .openKey path room =>
      (cmOpenKey registry path room).map (fun result => (.opened result.1 result.2.1, result.2.2))
  | .queryValue key valueName outDataLength =>
      some (.queried (cmQueryValue buffers registry key valueName outDataLength), registry)
  | .enumerateSubKey key index =>
      some (.subKey (cmEnumerateSubKey registry key index).1
        (cmEnumerateSubKey registry key index).2, registry)
  | .enumerateValue key index outDataLength =>
      some (.value (cmEnumerateValue registry key index outDataLength), registry)

/-- The key that the parts of a path lead to, where there is one. -/
def existingKey (registry : Registry) (key : Nat) : List (List WChar) → Option Nat
  | [] => some key
  | part :: parts =>
      ((subkeys registry key).find? (fun child =>
        rtlEqualUnicodeString (registry.nodes child).name part)).bind
          (fun child => existingKey registry child parts)

/-- What opening a path should answer. -/
def openAnswer (registry : Registry) (path : List WChar) : CmAnswer :=
  match existingKey registry cmGetRootKey (components path) with
  | some key => .opened statusSuccess (some key)
  | none => .opened statusObjectNameNotFound none

/-- The call leaves the registry as it is, and one that opens a key answers as it
should. -/
def CmRead.OnlyReads (buffers : Buffers) (registry : Registry) (read : CmRead) : Prop :=
  ∃ answer, read.run buffers registry = some (answer, registry) ∧
    ∀ path room, read = .openKey path room → answer = openAnswer registry path

/-- Each of the calls, one after the other, does so. -/
def OnlyRead (buffers : Buffers) : Registry → List CmRead → Prop
  | _, [] => True
  | registry, read :: reads =>
      read.OnlyReads buffers registry ∧
        ∀ answer after, read.run buffers registry = some (answer, after) →
          OnlyRead buffers after reads

section Reads

variable {registry : Registry}

theorem existingKey_iff {key node : Nat} {parts : List (List WChar)} :
    existingKey registry key parts = some node ↔ Resolves registry key parts node := by
  induction parts generalizing key with
  | nil => simp [existingKey, Resolves]
  | cons part parts ih =>
    rw [existingKey, Option.bind_eq_some_iff, Resolves]
    constructor
    · rintro ⟨child, found, rest⟩
      exact ⟨child, found, ih.mp rest⟩
    · rintro ⟨child, found, rest⟩
      exact ⟨child, found, ih.mpr rest⟩

theorem Resolves.descend_eq {key node : Nat} {parts : List (List WChar)}
    (resolves : Resolves registry key parts node) :
    descend registry key parts = (node, registry) := by
  induction parts generalizing key with
  | nil =>
    obtain rfl : key = node := resolves
    rfl
  | cons part parts ih =>
    obtain ⟨child, found, rest⟩ := resolves
    rw [descend, found]
    exact ih rest

/-- `CmOpenKey` only reads exactly if the path is split as it should be and the
key is there already. -/
theorem openKey_onlyReads_iff (buffers : Buffers) (tree : RegistryTree registry)
    (path : List WChar) (room : Nat → Bool) :
    (CmRead.openKey path room).OnlyReads buffers registry ↔
      SingleBackslashes path ∧
        (existingKey registry cmGetRootKey (components path)).isSome = true := by
  constructor
  · rintro ⟨answer, ran, right⟩
    obtain ⟨status, out, after, call, effect⟩ := cmCreateKey_effect tree path room
    rw [CmRead.run, cmOpenKey, call] at ran
    simp only [Option.map_some, Option.some.injEq, Prod.mk.injEq] at ran
    obtain ⟨rfl, rfl⟩ := ran
    have known := right path room rfl
    unfold openAnswer at known
    cases existing : existingKey after cmGetRootKey (components path) with
    | none =>
      -- The call never answers that a name was not found.
      rw [existing] at known
      simp only [CmAnswer.opened.injEq] at known
      rcases effect.outcome with ⟨failed, _⟩ | ⟨succeeded, _⟩
      · exact absurd (failed.symm.trans known.1) (by decide)
      · exact absurd (succeeded.symm.trans known.1) (by decide)
    | some key =>
      rw [existing] at known
      simp only [CmAnswer.opened.injEq] at known
      obtain ⟨rfl, rfl⟩ := known
      refine ⟨?_, rfl⟩
      by_contra doubled
      have ends := (existingKey_iff.mp existing).descend_eq
      rcases cmCreateKey_wrongKey tree doubled call with wrong | wrong
      · exact wrong (by rw [ends])
      · exact wrong (by rw [ends])
  · rintro ⟨single, existing⟩
    obtain ⟨key, found⟩ := Option.isSome_iff_exists.mp existing
    have root : cmGetRootKey < registry.count := tree.root.1
    have call := (existingKey_iff.mp found).findOrCreate_eq tree root room
    refine ⟨.opened statusSuccess (some key), ?_, ?_⟩
    · rw [CmRead.run, cmOpenKey, cmCreateKey, pathSegments_of_single single, call]
      rfl
    · intro other _ same
      cases same
      rw [openAnswer, found]

theorem CmRead.onlyReads (buffers : Buffers) {read : CmRead}
    (other : ∀ path room, read ≠ .openKey path room) : read.OnlyReads buffers registry := by
  cases read with
  | openKey path room => exact absurd rfl (other path room)
  | queryValue | enumerateSubKey
  | enumerateValue => exact ⟨_, rfl, fun path room same => absurd same (other path room)⟩

/-- Calls only read exactly if each key that is opened is there already, under a
path that has no two backslashes side by side. -/
theorem onlyRead_iff (buffers : Buffers) (tree : RegistryTree registry) (reads : List CmRead) :
    OnlyRead buffers registry reads ↔
      ∀ path room, CmRead.openKey path room ∈ reads →
        SingleBackslashes path ∧
          (existingKey registry cmGetRootKey (components path)).isSome = true := by
  induction reads with
  | nil => simp [OnlyRead]
  | cons read reads ih =>
    rw [OnlyRead]
    constructor
    · rintro ⟨now, rest⟩ path room member
      obtain ⟨answer, ran, right⟩ := now
      rcases List.mem_cons.mp member with rfl | later
      · exact (openKey_onlyReads_iff buffers tree path room).mp ⟨answer, ran, right⟩
      · exact ih.mp (rest answer registry ran) path room later
    · intro existing
      have now : read.OnlyReads buffers registry := by
        by_cases opens : ∃ path room, read = .openKey path room
        · obtain ⟨path, room, rfl⟩ := opens
          exact (openKey_onlyReads_iff buffers tree path room).mpr
            (existing path room List.mem_cons_self)
        · apply CmRead.onlyReads buffers
          intro path room same
          exact opens ⟨path, room, same⟩
      refine ⟨now, ?_⟩
      intro answer after ran
      obtain ⟨_, same, _⟩ := now
      rw [same] at ran
      simp only [Option.some.injEq, Prod.mk.injEq] at ran
      rw [← ran.2]
      exact ih.mpr (fun path room member => existing path room (List.mem_cons_of_mem _ member))

end Reads

/-- Opening the key of `oneKeyRegistry` in the other case and asking for its first
subkey. -/
def readOneKey : List CmRead :=
  [.openKey [backslash, 0x61#16] (fun _ => true), .enumerateSubKey (some 1) 0]

/-- Reads of a registry with one key. -/
theorem readOneKey_onlyRead :
    OnlyRead (fun _ => none) oneKeyRegistry readOneKey ↔
      ∀ path room, CmRead.openKey path room ∈ readOneKey →
        SingleBackslashes path ∧
          (existingKey oneKeyRegistry cmGetRootKey (components path)).isSome = true :=
  onlyRead_iff (fun _ => none)
    ((Runs.create .refl _ _ oneKeyRegistry_created).keeps registryTree_init).1 readOneKey

/-- Opening `\A` in a new registry makes the key. -/
theorem openMissing_notOnlyRead :
    (CmRead.openKey [backslash, 0x41#16] (fun _ => true)).run (fun _ => none) cmInitSystem =
        some (.opened statusSuccess (some 1), oneKeyRegistry) ∧
      ¬ OnlyRead (fun _ => none) cmInitSystem [.openKey [backslash, 0x41#16] (fun _ => true)] := by
  have ran : (CmRead.openKey [backslash, 0x41#16] (fun _ => true)).run (fun _ => none)
      cmInitSystem = some (.opened statusSuccess (some 1), oneKeyRegistry) := rfl
  refine ⟨ran, ?_⟩
  rintro ⟨⟨_, kept, _⟩, _⟩
  rw [ran] at kept
  simp only [Option.some.injEq, Prod.mk.injEq] at kept
  have counts : oneKeyRegistry.count = cmInitSystem.count := by rw [kept.2]
  exact absurd counts (by decide)

end MinNT.Cm
