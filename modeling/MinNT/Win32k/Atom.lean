import Mathlib.Data.List.TakeWhile
import Mathlib.Data.UInt
import MinNT.Lib.ChainedTable
import MinNT.NtStatus

/-! The global atoms of `win32k/atom.c`: a hash table of names with 16-bit identifiers and 16-bit
reference counts. -/

namespace MinNT.Win32k

open Function ChainedTable

def atomTableSize : Nat := 256
def atomMaxName : Nat := 255

/-- An `ATOM_ENTRY`, with `Name` as far as `NameLength` goes. -/
structure AtomEntry where
  atomId : Nat
  refCount : Nat
  name : List UInt16
deriving DecidableEq, Repr

/-- `g_AtomTable` and `g_NextAtomId`. -/
structure AtomTable where
  chains : Nat → List AtomEntry
  nextAtomId : Nat

def atomInit : AtomTable := ⟨fun _ => [], 0xC001⟩

/-- The bytes of a string of `WCHAR`. -/
def wcharBytes (name : List UInt16) : List UInt8 :=
  name.flatMap fun c : UInt16 => [c.toUInt8, (c >>> 8).toUInt8]

/-- Hashes `length` bytes, not `length` characters. -/
def atomHash (name : List UInt16) (length : Nat) : Nat :=
  (((wcharBytes name).take length).foldl
    (fun hash byte => (hash ^^^ byte.toUInt32) * 16777619) (2166136261 : UInt32)).toNat %
    atomTableSize

def lowerChar (c : UInt16) : UInt16 := if 0x41 ≤ c ∧ c ≤ 0x5A then c + 32 else c

def atomEqualName (a b : List UInt16) : Bool :=
  if a.length ≠ b.length then false
  else (a.zip b).all fun pair => lowerChar pair.1 == lowerChar pair.2

/-- The count of characters in front of the terminator, which stands behind the list at the
latest. -/
def nameLen (lpString : List UInt16) : Nat :=
  min atomMaxName (lpString.takeWhile (· ≠ 0)).length

/-- The reference count of an entry goes up. -/
def referenceEntry (entry : AtomEntry) : Option AtomEntry :=
  some { entry with refCount := (entry.refCount + 1) % 2 ^ 16 }

/-- `GlobalAddAtomW`; the pointers may be null, and the pool may refuse the entry. -/
def globalAddAtomW (atoms : AtomTable) (lpString : Option (List UInt16)) (lpAtom allocates : Bool) :
    NtStatus × Option Nat × AtomTable :=
  match lpString with
  | none => (statusInvalidParameter, none, atoms)
  | some lpString =>
      if !lpAtom then (statusInvalidParameter, none, atoms)
      else
        let length := nameLen lpString
        let hash := atomHash lpString length
        match alterFirst (fun entry => atomEqualName entry.name (lpString.take length))
            referenceEntry (atoms.chains hash) with
        | some (entry, chain) =>
            (statusSuccess, some entry.atomId,
              { atoms with chains := update atoms.chains hash chain })
        | none =>
            if allocates then
              let entry := ⟨atoms.nextAtomId, 1, lpString.take length⟩
              (statusSuccess, some entry.atomId,
                ⟨update atoms.chains hash (entry :: atoms.chains hash),
                  (atoms.nextAtomId + 1) % 2 ^ 16⟩)
            else (statusNoMemory, none, atoms)

/-- The reference count of an entry goes down, and the entry is freed with the last reference. -/
def releaseEntry (entry : AtomEntry) : Option AtomEntry :=
  let refCount := (entry.refCount + (2 ^ 16 - 1)) % 2 ^ 16
  if refCount = 0 then none else some { entry with refCount := refCount }

def globalDeleteAtom (atoms : AtomTable) (nAtom : Nat) : NtStatus × AtomTable :=
  if nAtom < 0xC000 then (statusInvalidParameter, atoms)
  else
    match alterIn (fun entry => entry.atomId == nAtom) releaseEntry atoms.chains
        atomTableSize with
    | some (_, chains) => (statusSuccess, { atoms with chains := chains })
    | none => (statusNotFound, atoms)

def globalFindAtomW (atoms : AtomTable) (lpString : Option (List UInt16)) (lpAtom : Bool) :
    NtStatus × Option Nat :=
  match lpString with
  | none => (statusInvalidParameter, none)
  | some lpString =>
      if !lpAtom then (statusInvalidParameter, none)
      else
        let length := nameLen lpString
        match (atoms.chains (atomHash lpString length)).find? fun entry =>
            atomEqualName entry.name (lpString.take length) with
        | some entry => (statusSuccess, some entry.atomId)
        | none => (statusNotFound, none)

/-- A name of at most 255 characters. -/
structure AtomName where
  chars : List UInt16
  noTerminator : 0 ∉ chars
  bounded : chars.length ≤ atomMaxName

/-- A name with its case dropped. -/
def foldName (name : List UInt16) : List UInt16 := name.map lowerChar

theorem atomHash_lt (name : List UInt16) (length : Nat) : atomHash name length < atomTableSize :=
  Nat.mod_lt _ (by decide)

theorem nameLen_chars (name : AtomName) : nameLen name.chars = name.chars.length := by
  unfold nameLen
  have whole : name.chars.takeWhile (· ≠ 0) = name.chars := by
    rw [List.takeWhile_eq_self_iff]
    intro c member
    rw [decide_eq_true_iff]
    rintro rfl
    exact name.noTerminator member
  rw [whole]
  exact Nat.min_eq_right name.bounded

theorem atomEqualName_iff (a b : List UInt16) :
    atomEqualName a b = true ↔ foldName a = foldName b := by
  unfold atomEqualName foldName
  induction a generalizing b with
  | nil =>
    cases b with
    | nil => simp
    | cons d b => simp
  | cons c a ih =>
    cases b with
    | nil => simp
    | cons d b =>
      have tails := ih b
      simp only [List.length_cons, ne_eq, Nat.add_right_cancel_iff, ite_not, List.zip_cons_cons,
        List.all_cons, List.map_cons, List.cons.injEq] at tails ⊢
      rw [← tails]
      by_cases same : a.length = b.length
      · simp [same]
      · simp [same]

theorem globalAddAtomW_name (atoms : AtomTable) (name : AtomName) :
    globalAddAtomW atoms (some name.chars) true true =
      match alterFirst (fun entry => atomEqualName entry.name name.chars)
          referenceEntry (atoms.chains (atomHash name.chars name.chars.length)) with
      | some (entry, chain) =>
        (statusSuccess, some entry.atomId,
          { atoms with
            chains := update atoms.chains (atomHash name.chars name.chars.length) chain })
      | none =>
        (statusSuccess, some atoms.nextAtomId,
          ⟨update atoms.chains (atomHash name.chars name.chars.length)
            (⟨atoms.nextAtomId, 1, name.chars⟩ ::
              atoms.chains (atomHash name.chars name.chars.length)),
            (atoms.nextAtomId + 1) % 2 ^ 16⟩) := by
  unfold globalAddAtomW
  simp only [nameLen_chars, List.take_length, Bool.not_true, Bool.false_eq_true, if_false, if_true]

theorem globalFindAtomW_name (atoms : AtomTable) (name : AtomName) :
    globalFindAtomW atoms (some name.chars) true =
      match (atoms.chains (atomHash name.chars name.chars.length)).find? fun entry =>
          atomEqualName entry.name name.chars with
      | some entry => (statusSuccess, some entry.atomId)
      | none => (statusNotFound, none) := by
  unfold globalFindAtomW
  simp only [nameLen_chars, List.take_length, Bool.not_true, Bool.false_eq_true, if_false]

end MinNT.Win32k
