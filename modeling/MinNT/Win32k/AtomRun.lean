import Mathlib.Data.List.Nodup
import MinNT.Lib.Transition
import MinNT.Win32k.Atom

/-! Which atoms are live over a whole run of additions, finds and deletions. -/

namespace MinNT.Win32k

open List Function ChainedTable

/-- The atoms, with the count of the additions that returned an atom and of the deletions that
took one. -/
structure AtomHistory where
  atoms : AtomTable
  added : Nat → Nat
  deleted : Nat → Nat

def AtomHistory.initial : AtomHistory := ⟨atomInit, fun _ => 0, fun _ => 0⟩

/-- The live atoms. -/
def AtomHistory.live (history : AtomHistory) : List AtomEntry :=
  entries history.atoms.chains atomTableSize

def tally (counts : Nat → Nat) (atom : Nat) : Nat → Nat :=
  update counts atom (counts atom + 1)

inductive AtomCall where
  | add (name : AtomName)
  | find (name : AtomName)
  | delete (nAtom : Nat)

def AtomHistory.step (history : AtomHistory) : AtomCall → Option AtomHistory
  | .add name =>
      match globalAddAtomW history.atoms (some name.chars) true true with
      | (_, some atom, atoms) => some ⟨atoms, tally history.added atom, history.deleted⟩
      | (_, none, atoms) => some { history with atoms := atoms }
  | .find _ => some history
  | .delete nAtom =>
      match globalDeleteAtom history.atoms nAtom with
      | (status, atoms) =>
          if status = statusSuccess then
            some ⟨atoms, history.added, tally history.deleted nAtom⟩
          else some { history with atoms := atoms }

/-- The live atom of a name, if there is one, hashes as the name does. -/
def HashesAlike (history : AtomHistory) (name : AtomName) : Prop :=
  ∀ entry ∈ history.live, foldName entry.name = foldName name.chars →
    atomHash entry.name entry.name.length = atomHash name.chars name.chars.length

/-- An addition or find is of a name that hashes as its live atom does, and an addition wraps
neither the reference count of that atom nor, for a new one, has the identifiers wrapped. -/
def Regular (history : AtomHistory) : AtomCall → Prop
  | .add name =>
      HashesAlike history name ∧
      (∀ entry ∈ history.live, foldName entry.name = foldName name.chars →
        entry.refCount < 2 ^ 16 - 1) ∧
      ((∀ entry ∈ history.live, foldName entry.name ≠ foldName name.chars) →
        history.atoms.nextAtomId ≠ 0)
  | .find name => HashesAlike history name
  | .delete _ => True

instance (history : AtomHistory) (name : AtomName) : Decidable (HashesAlike history name) :=
  inferInstanceAs (Decidable (∀ entry ∈ history.live, _ → _))

instance (history : AtomHistory) (call : AtomCall) : Decidable (Regular history call) :=
  match call with
  | .add _ => inferInstanceAs (Decidable (_ ∧ (∀ entry ∈ history.live, _ → _) ∧
      ((∀ entry ∈ history.live, _) → _)))
  | .find _ => inferInstanceAs (Decidable (HashesAlike history _))
  | .delete _ => inferInstanceAs (Decidable True)

/-- The live entries in any order, against the identifiers and the counts. -/
structure EntriesInv (live : List AtomEntry) (nextAtomId : Nat) (added deleted : Nat → Nat) :
    Prop where
  ids : (live.map AtomEntry.atomId).Nodup
  names : (live.map fun entry => foldName entry.name).Nodup
  range : ∀ entry ∈ live, 0xC001 ≤ entry.atomId ∧ entry.atomId < 2 ^ 16
  fresh : nextAtomId ≠ 0 → ∀ entry ∈ live, entry.atomId < nextAtomId
  referenced : ∀ entry ∈ live, 0 < entry.refCount ∧ entry.refCount < 2 ^ 16
  counted : ∀ entry ∈ live, added entry.atomId = deleted entry.atomId + entry.refCount
  dead : ∀ atom, (∀ entry ∈ live, entry.atomId ≠ atom) → added atom = deleted atom

section Entries

variable {live others : List AtomEntry} {found : AtomEntry} {nextAtomId : Nat}
  {added deleted : Nat → Nat}

theorem EntriesInv.perm (inv : EntriesInv live nextAtomId added deleted)
    (same : live.Perm others) : EntriesInv others nextAtomId added deleted where
  ids := (same.map _).nodup_iff.mp inv.ids
  names := (same.map _).nodup_iff.mp inv.names
  range := fun entry member => inv.range entry (same.mem_iff.mpr member)
  fresh := fun some entry member => inv.fresh some entry (same.mem_iff.mpr member)
  referenced := fun entry member => inv.referenced entry (same.mem_iff.mpr member)
  counted := fun entry member => inv.counted entry (same.mem_iff.mpr member)
  dead := fun atom none => inv.dead atom fun entry member => none entry (same.mem_iff.mp member)

theorem EntriesInv.other_ne (inv : EntriesInv (found :: others) nextAtomId added deleted) :
    ∀ entry ∈ others, entry.atomId ≠ found.atomId := by
  intro entry member same
  have apart := (nodup_cons.mp inv.ids).1
  exact apart (same ▸ mem_map_of_mem member)

theorem tally_self (counts : Nat → Nat) (atom : Nat) : tally counts atom atom = counts atom + 1 :=
  update_self ..

theorem tally_of_ne (counts : Nat → Nat) {atom other : Nat} (different : other ≠ atom) :
    tally counts atom other = counts other :=
  update_of_ne different ..

section Inv

variable (inv : EntriesInv (found :: others) nextAtomId added deleted)
include inv

theorem EntriesInv.recount {refCount : Nat} {moreAdded moreDeleted : Nat → Nat}
    (some : 0 < refCount) (small : refCount < 2 ^ 16)
    (here : moreAdded found.atomId = moreDeleted found.atomId + refCount)
    (addedElsewhere : ∀ atom, atom ≠ found.atomId → moreAdded atom = added atom)
    (deletedElsewhere : ∀ atom, atom ≠ found.atomId → moreDeleted atom = deleted atom) :
    EntriesInv ({ found with refCount := refCount } :: others) nextAtomId moreAdded
      moreDeleted where
  ids := inv.ids
  names := inv.names
  range := forall_mem_cons.mpr (forall_mem_cons.mp inv.range)
  fresh := fun more => forall_mem_cons.mpr (forall_mem_cons.mp (inv.fresh more))
  referenced :=
    forall_mem_cons.mpr ⟨⟨some, small⟩, (forall_mem_cons.mp inv.referenced).2⟩
  counted := by
    refine forall_mem_cons.mpr ⟨here, fun entry member => ?_⟩
    have apart := inv.other_ne entry member
    rw [addedElsewhere _ apart, deletedElsewhere _ apart]
    exact (forall_mem_cons.mp inv.counted).2 entry member
  dead := by
    intro atom none
    have apart := forall_mem_cons.mp none
    rw [addedElsewhere atom (Ne.symm apart.1), deletedElsewhere atom (Ne.symm apart.1)]
    exact inv.dead atom (forall_mem_cons.mpr apart)

theorem EntriesInv.reference (small : found.refCount < 2 ^ 16 - 1) :
    EntriesInv ({ found with refCount := (found.refCount + 1) % 2 ^ 16 } :: others) nextAtomId
      (tally added found.atomId) deleted := by
  have counted := (forall_mem_cons.mp inv.counted).1
  apply inv.recount
  · omega
  · omega
  · rw [tally_self]
    omega
  · exact fun atom different => tally_of_ne added different
  · exact fun atom different => rfl

end Inv

/-- A new name takes the next identifier. -/
theorem EntriesInv.create {name : List UInt16} (inv : EntriesInv live nextAtomId added deleted)
    (first : 0xC001 ≤ nextAtomId) (last : nextAtomId < 2 ^ 16)
    (new : ∀ entry ∈ live, foldName entry.name ≠ foldName name) :
    EntriesInv (⟨nextAtomId, 1, name⟩ :: live) ((nextAtomId + 1) % 2 ^ 16)
      (tally added nextAtomId) deleted := by
  have before := inv.fresh (by omega)
  have apart : ∀ entry ∈ live, entry.atomId ≠ nextAtomId :=
    fun entry member => Nat.ne_of_lt (before entry member)
  constructor
  case ids =>
    refine nodup_cons.mpr ⟨fun member => ?_, inv.ids⟩
    obtain ⟨entry, held, same⟩ := List.mem_map.mp member
    exact apart entry held same
  case names =>
    refine nodup_cons.mpr ⟨fun member => ?_, inv.names⟩
    obtain ⟨entry, held, same⟩ := List.mem_map.mp member
    exact new entry held same
  case range => exact forall_mem_cons.mpr ⟨⟨first, last⟩, inv.range⟩
  case fresh =>
    intro more
    refine forall_mem_cons.mpr ⟨?_, fun entry member => ?_⟩
    · dsimp only
      omega
    · have less := before entry member
      omega
  case referenced => exact forall_mem_cons.mpr ⟨⟨Nat.one_pos, Nat.one_lt_two_pow (by decide)⟩,
    inv.referenced⟩
  case counted =>
    refine forall_mem_cons.mpr ⟨?_, fun entry member => ?_⟩
    · dsimp only
      rw [tally_self, inv.dead nextAtomId apart]
    · rw [tally_of_ne added (apart entry member)]
      exact inv.counted entry member
  case dead =>
    intro atom none
    have others := forall_mem_cons.mp none
    rw [tally_of_ne added (Ne.symm others.1)]
    exact inv.dead atom others.2

theorem EntriesInv.free (inv : EntriesInv (found :: others) nextAtomId added deleted)
    (last : found.refCount = 1) :
    EntriesInv others nextAtomId added (tally deleted found.atomId) where
  ids := (nodup_cons.mp inv.ids).2
  names := (nodup_cons.mp inv.names).2
  range := (forall_mem_cons.mp inv.range).2
  fresh := fun more => (forall_mem_cons.mp (inv.fresh more)).2
  referenced := (forall_mem_cons.mp inv.referenced).2
  counted := by
    intro entry member
    rw [tally_of_ne deleted (inv.other_ne entry member)]
    exact (forall_mem_cons.mp inv.counted).2 entry member
  dead := by
    intro atom none
    by_cases same : atom = found.atomId
    · rw [same, tally_self, (forall_mem_cons.mp inv.counted).1, last]
    · rw [tally_of_ne deleted same]
      exact inv.dead atom (forall_mem_cons.mpr ⟨Ne.symm same, none⟩)

theorem EntriesInv.release (inv : EntriesInv (found :: others) nextAtomId added deleted) :
    EntriesInv ((releaseEntry found).toList ++ others) nextAtomId added
      (tally deleted found.atomId) := by
  have counted := (forall_mem_cons.mp inv.counted).1
  have referenced := (forall_mem_cons.mp inv.referenced).1
  unfold releaseEntry
  dsimp only
  by_cases last : (found.refCount + (2 ^ 16 - 1)) % 2 ^ 16 = 0
  · rw [if_pos last]
    exact inv.free (by omega)
  rw [if_neg last, Option.toList_some, singleton_append]
  apply inv.recount
  · omega
  · omega
  · rw [tally_self]
    omega
  · exact fun atom different => rfl
  · exact fun atom different => tally_of_ne deleted different

end Entries

structure AtomInv (history : AtomHistory) : Prop where
  placed : ∀ hash, ∀ entry ∈ history.atoms.chains hash,
    atomHash entry.name entry.name.length = hash
  firstId : history.atoms.nextAtomId = 0 ∨ 0xC001 ≤ history.atoms.nextAtomId
  lastId : history.atoms.nextAtomId < 2 ^ 16
  live : EntriesInv history.live history.atoms.nextAtomId history.added history.deleted

theorem AtomInv.initial : AtomInv .initial where
  placed := fun _ _ member => absurd member not_mem_nil
  firstId := .inr (Nat.le_refl _)
  lastId := by decide
  live := by
    have none : AtomHistory.initial.live = [] := flatMap_eq_nil_iff.mpr fun _ _ => rfl
    rw [none]
    constructor
    case ids => exact nodup_nil
    case names => exact nodup_nil
    case range => exact fun _ member => absurd member not_mem_nil
    case fresh => exact fun _ _ member => absurd member not_mem_nil
    case referenced => exact fun _ member => absurd member not_mem_nil
    case counted => exact fun _ member => absurd member not_mem_nil
    case dead => exact fun _ _ => rfl

section Table

variable {history : AtomHistory}

variable {hash : Nat} {entry : AtomEntry} {name : AtomName}

section Inv

variable (inv : AtomInv history)
include inv

theorem AtomInv.live_of_chain
    (member : entry ∈ history.atoms.chains hash) : entry ∈ history.live := by
  refine mem_entries.mpr ⟨hash, ?_, member⟩
  rw [← inv.placed hash entry member]
  exact atomHash_lt _ _

theorem AtomInv.chain_of_live (member : entry ∈ history.live) :
    entry ∈ history.atoms.chains (atomHash entry.name entry.name.length) := by
  obtain ⟨hash, -, held⟩ := mem_entries.mp member
  rwa [inv.placed hash entry held]

theorem AtomInv.eq_of_names {entry other : AtomEntry}
    (member : entry ∈ history.live) (otherMember : other ∈ history.live)
    (same : foldName entry.name = foldName other.name) : entry = other :=
  inj_on_of_nodup_map inv.live.names member otherMember same

theorem AtomInv.eq_of_ids {entry other : AtomEntry} (member : entry ∈ history.live)
    (otherMember : other ∈ history.live) (same : entry.atomId = other.atomId) : entry = other :=
  inj_on_of_nodup_map inv.live.ids member otherMember same

end Inv

theorem placed_alter {chains : Nat → List AtomEntry} {found : AtomEntry}
    {chain : List AtomEntry} {chosen : AtomEntry → Bool} {change : AtomEntry → Option AtomEntry}
    (placed : ∀ hash, ∀ entry ∈ chains hash, atomHash entry.name entry.name.length = hash)
    (keeps : ∀ entry changed, change entry = some changed → changed.name = entry.name)
    (altered : alterFirst chosen change (chains hash) = some (found, chain)) :
    ∀ other, ∀ entry ∈ update chains hash chain other,
      atomHash entry.name entry.name.length = other := by
  intro other entry member
  obtain ⟨-, before, rest, split, rfl⟩ := alterFirst_some altered
  by_cases here : other = hash
  · rw [here, update_self] at member
    rw [here]
    have held := placed hash
    rw [split] at held
    simp only [mem_append, mem_cons, Option.mem_toList] at member held
    rcases member with front | changed | behind
    · exact held entry (.inl front)
    · rw [keeps found entry changed]
      exact held found (.inr (.inl rfl))
    · exact held entry (.inr (.inr behind))
  · rw [update_of_ne here] at member
    exact placed other entry member

theorem placed_push {chains : Nat → List AtomEntry} {new : AtomEntry}
    (placed : ∀ hash, ∀ entry ∈ chains hash, atomHash entry.name entry.name.length = hash)
    (here : atomHash new.name new.name.length = hash) :
    ∀ other, ∀ entry ∈ update chains hash (new :: chains hash) other,
      atomHash entry.name entry.name.length = other := by
  intro other entry member
  by_cases same : other = hash
  · rw [same, update_self] at member
    rw [same]
    rcases mem_cons.mp member with rfl | held
    · exact here
    · exact placed hash entry held
  · rw [update_of_ne same] at member
    exact placed other entry member

/-- A regular addition keeps the atoms. -/
theorem AtomInv.add (inv : AtomInv history) (regular : Regular history (.add name))
    {next : AtomHistory} (done : history.step (.add name) = some next) : AtomInv next := by
  obtain ⟨alike, small, more⟩ := regular
  have inside := atomHash_lt name.chars name.chars.length
  unfold AtomHistory.step at done
  dsimp only at done
  rw [globalAddAtomW_name] at done
  cases search : alterFirst (fun entry => atomEqualName entry.name name.chars) referenceEntry
      (history.atoms.chains (atomHash name.chars name.chars.length)) with
  | some altered =>
    obtain ⟨found, chain⟩ := altered
    rw [search] at done
    cases done
    obtain ⟨equal, before, rest, split, -⟩ := alterFirst_some search
    have inChain : found ∈ history.atoms.chains (atomHash name.chars name.chars.length) := by
      rw [split]
      exact mem_append_right _ mem_cons_self
    have member := inv.live_of_chain inChain
    obtain ⟨others, held, now⟩ := entries_alter inside search
    constructor
    case placed =>
      refine placed_alter inv.placed (fun entry changed same => ?_) search
      cases same
      rfl
    case firstId => exact inv.firstId
    case lastId => exact inv.lastId
    case live =>
      have grown := (inv.live.perm held).reference
        (small found member ((atomEqualName_iff _ _).mp equal))
      exact grown.perm now.symm
  | none =>
    rw [search] at done
    cases done
    have missing := alterFirst_none search
    have new : ∀ entry ∈ history.live, foldName entry.name ≠ foldName name.chars := by
      intro entry member same
      have held := inv.chain_of_live member
      rw [alike entry member same] at held
      exact ne_true_of_eq_false (missing entry held) ((atomEqualName_iff _ _).mpr same)
    have some := more new
    have first : 0xC001 ≤ history.atoms.nextAtomId := inv.firstId.resolve_left some
    constructor
    case placed => exact placed_push inv.placed rfl
    case firstId =>
      have last := inv.lastId
      dsimp only
      omega
    case lastId => exact Nat.mod_lt _ (by decide)
    case live =>
      have created := inv.live.create first inv.lastId new
      exact created.perm (entries_push _ inside _).symm

/-- A deletion keeps the atoms. -/
theorem AtomInv.delete (inv : AtomInv history) {nAtom : Nat} {next : AtomHistory}
    (done : history.step (.delete nAtom) = some next) : AtomInv next := by
  unfold AtomHistory.step globalDeleteAtom at done
  dsimp only at done
  by_cases low : nAtom < 0xC000
  · rw [if_pos low] at done
    cases done
    exact inv
  rw [if_neg low] at done
  cases search : alterIn (fun entry => entry.atomId == nAtom) releaseEntry history.atoms.chains
      atomTableSize with
  | none =>
    rw [search] at done
    cases done
    exact inv
  | some altered =>
    obtain ⟨found, chains⟩ := altered
    rw [search] at done
    cases done
    obtain ⟨hash, inside, chain, inChain, rfl⟩ := alterIn_some search
    have same : found.atomId = nAtom := eq_of_beq (alterFirst_some inChain).1
    obtain ⟨others, held, now⟩ := entries_alter inside inChain
    constructor
    case placed =>
      refine placed_alter inv.placed (fun entry changed kept => ?_) inChain
      unfold releaseEntry at kept
      dsimp only at kept
      split at kept
      · cases kept
      · cases kept
        rfl
    case firstId => exact inv.firstId
    case lastId => exact inv.lastId
    case live =>
      have released := (inv.live.perm held).release
      rw [same] at released
      exact released.perm now.symm

theorem AtomInv.step (inv : AtomInv history) {call : AtomCall} (regular : Regular history call)
    {next : AtomHistory} (done : history.step call = some next) : AtomInv next := by
  cases call with
  | add name => exact inv.add regular done
  | find name =>
    cases done
    exact inv
  | delete nAtom => exact inv.delete done

theorem AtomInv.eq_of_chain (inv : AtomInv history) {entry found : AtomEntry}
    (member : entry ∈ history.live) (same : foldName entry.name = foldName name.chars)
    (held : found ∈ history.atoms.chains hash)
    (equal : atomEqualName found.name name.chars = true) : found = entry :=
  inv.eq_of_names (inv.live_of_chain held) member
    (((atomEqualName_iff _ _).mp equal).trans same.symm)

theorem AtomInv.find_iff (inv : AtomInv history)
    (member : entry ∈ history.live) (same : foldName entry.name = foldName name.chars) :
    globalFindAtomW history.atoms (some name.chars) true = (statusSuccess, some entry.atomId) ↔
      atomHash entry.name entry.name.length = atomHash name.chars name.chars.length := by
  rw [globalFindAtomW_name]
  cases search : (history.atoms.chains (atomHash name.chars name.chars.length)).find? fun entry =>
      atomEqualName entry.name name.chars with
  | some found =>
    have held := mem_of_find?_eq_some search
    have equal := find?_some search
    have found_eq := inv.eq_of_chain member same held equal
    rw [found_eq] at held ⊢
    exact iff_of_true rfl (inv.placed _ entry held)
  | none =>
    refine iff_of_false (fun found => by cases found) fun alike => ?_
    have held := inv.chain_of_live member
    rw [alike] at held
    exact find?_eq_none.mp search entry held ((atomEqualName_iff _ _).mpr same)

theorem AtomInv.add_iff (inv : AtomInv history)
    (member : entry ∈ history.live) (same : foldName entry.name = foldName name.chars) :
    (globalAddAtomW history.atoms (some name.chars) true true).2.1 = some entry.atomId ↔
      atomHash entry.name entry.name.length = atomHash name.chars name.chars.length := by
  rw [globalAddAtomW_name]
  cases search : alterFirst (fun entry => atomEqualName entry.name name.chars) referenceEntry
      (history.atoms.chains (atomHash name.chars name.chars.length)) with
  | some altered =>
    obtain ⟨found, chain⟩ := altered
    obtain ⟨equal, before, rest, split, -⟩ := alterFirst_some search
    have held : found ∈ history.atoms.chains (atomHash name.chars name.chars.length) := by
      rw [split]
      exact mem_append_right _ mem_cons_self
    have found_eq := inv.eq_of_chain member same held equal
    rw [found_eq] at held ⊢
    exact iff_of_true rfl (inv.placed _ entry held)
  | none =>
    refine iff_of_false (fun created => ?_) fun alike => ?_
    · have reused : history.atoms.nextAtomId = entry.atomId := Option.some.inj created
      have range := inv.live.range entry member
      have less := inv.live.fresh (by omega) entry member
      omega
    · have held := inv.chain_of_live member
      rw [alike] at held
      exact ne_true_of_eq_false (alterFirst_none search entry held)
        ((atomEqualName_iff _ _).mpr same)

end Table

/-- The atoms of a state: which identifiers they have, which calls return them, and how they stand
to the counts of the calls. -/
structure AtomsCorrect (history : AtomHistory) : Prop where
  range : ∀ entry ∈ history.live, 0xC001 ≤ entry.atomId ∧ entry.atomId ≤ 0xFFFF
  distinct : ∀ entry ∈ history.live, ∀ other ∈ history.live,
    foldName entry.name ≠ foldName other.name → entry.atomId ≠ other.atomId
  add : ∀ entry ∈ history.live, ∀ name : AtomName, foldName entry.name = foldName name.chars →
    ((globalAddAtomW history.atoms (some name.chars) true true).2.1 = some entry.atomId ↔
      atomHash entry.name entry.name.length = atomHash name.chars name.chars.length)
  find : ∀ entry ∈ history.live, ∀ name : AtomName, foldName entry.name = foldName name.chars →
    (globalFindAtomW history.atoms (some name.chars) true = (statusSuccess, some entry.atomId) ↔
      atomHash entry.name entry.name.length = atomHash name.chars name.chars.length)
  counted : ∀ atom, (∃ entry ∈ history.live, entry.atomId = atom) ↔
    history.deleted atom < history.added atom

/-- Atoms under the invariant are as they should be. -/
theorem AtomInv.correct {history : AtomHistory} (inv : AtomInv history) :
    AtomsCorrect history where
  range := by
    intro entry member
    have range := inv.live.range entry member
    omega
  distinct := by
    intro entry member other otherMember different same
    rw [inv.eq_of_ids member otherMember same] at different
    exact different rfl
  add := fun _ member _ same => inv.add_iff member same
  find := fun _ member _ same => inv.find_iff member same
  counted := by
    intro atom
    constructor
    · rintro ⟨entry, member, rfl⟩
      have counted := inv.live.counted entry member
      have referenced := inv.live.referenced entry member
      omega
    · intro more
      by_contra none
      have dead := inv.live.dead atom fun entry member same => none ⟨entry, member, same⟩
      omega

/-- In runs whose names hash as their live atoms do and whose counts and identifiers do not wrap,
the live atoms are those whose additions outnumber their deletions, in range and one for each
name; a call returns the live atom of its name exactly if the names hash alike. -/
theorem atomsCorrect_of_regular {history : AtomHistory}
    (run : Transition.Reaches AtomHistory.step Regular .initial history) : AtomsCorrect history :=
  (run.invariant AtomInv.initial fun _ _ _ inv regular done => inv.step regular done).correct

/-- A name is added twice and deleted once. -/
theorem atomsCorrect_of_regular_deleted : ∃ history,
    Transition.runFrom AtomHistory.step .initial
      [.add ⟨[0x61, 0x62], by decide, by decide⟩, .add ⟨[0x61, 0x62], by decide, by decide⟩,
        .delete 0xC001] = some history ∧
    history.live = [⟨0xC001, 1, [0x61, 0x62]⟩] ∧ AtomsCorrect history := by
  refine ⟨_, rfl, by decide +kernel, atomsCorrect_of_regular ?_⟩
  have begun : Transition.Reaches AtomHistory.step Regular .initial _ := .start
  have first := begun.step (show Regular _ (.add ⟨[0x61, 0x62], by decide, by decide⟩) by
    decide +kernel) rfl
  have second := first.step (show Regular _ (.add ⟨[0x61, 0x62], by decide, by decide⟩) by
    decide +kernel) rfl
  exact second.step (show Regular _ (.delete 0xC001) from trivial) rfl

/-- `A` is live: `a` is not found, and its addition returns another atom. -/
theorem not_atomsCorrect : ∃ history,
    Transition.runFrom AtomHistory.step .initial [.add ⟨[0x41], by decide, by decide⟩] =
      some history ∧
    foldName [0x41] = foldName [0x61] ∧ history.live = [⟨0xC001, 1, [0x41]⟩] ∧
    globalFindAtomW history.atoms (some [0x61]) true = (statusNotFound, none) ∧
    (globalAddAtomW history.atoms (some [0x61]) true true).2.1 = some 0xC002 := by
  refine ⟨_, rfl, by decide, ?_, ?_, ?_⟩
  · decide +kernel
  · decide +kernel
  · decide +kernel

end MinNT.Win32k
