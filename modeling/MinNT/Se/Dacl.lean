import MinNT.Se.AccessCheck

namespace MinNT.Se

open List ByteMemory

section Before

variable {α : Type} {good bad : α → Prop} {item : α} {items : List α}

/-- An item of one kind comes before every item of another kind. -/
def Before (good bad : α → Prop) (items : List α) : Prop :=
  ∃ front item back, items = front ++ item :: back ∧ good item ∧ ∀ earlier ∈ front, ¬ bad earlier

theorem not_before_nil : ¬ Before good bad [] := by
  rintro ⟨front, item, back, shape, _⟩
  simp at shape

theorem before_cons : Before good bad (item :: items) ↔
    good item ∨ ¬ bad item ∧ Before good bad items := by
  constructor
  · rintro ⟨front, first, back, shape, isGood, none⟩
    cases front with
    | nil =>
      cases shape
      exact .inl isGood
    | cons other front =>
      cases shape
      refine .inr ⟨none item mem_cons_self, front, first, back, rfl, isGood, ?_⟩
      exact fun earlier member => none earlier (mem_cons_of_mem _ member)
  · rintro (isGood | ⟨notBad, front, first, back, shape, isGood, none⟩)
    · exact ⟨[], item, items, rfl, isGood, fun _ member => absurd member not_mem_nil⟩
    · refine ⟨item :: front, first, back, by rw [shape, cons_append], isGood, ?_⟩
      intro earlier member
      rcases mem_cons.mp member with same | later
      · rw [same]
        exact notBad
      · exact none earlier later

theorem not_before_iff (apart : ∀ item, good item → ¬ bad item) :
    ¬ Before good bad items ↔ Before bad good items ∨ ∀ item ∈ items, ¬ good item := by
  induction items with
  | nil => simp [not_before_nil]
  | cons item items ih =>
    rw [before_cons, before_cons, forall_mem_cons, not_or, not_and, ih]
    tauto

theorem before_append {rest : List α} : Before good bad (items ++ rest) ↔
    Before good bad items ∨ (∀ item ∈ items, ¬ bad item) ∧ Before good bad rest := by
  induction items with
  | nil => simp [not_before_nil]
  | cons item items ih =>
    rw [cons_append, before_cons, before_cons, ih, forall_mem_cons]
    tauto

end Before

/-- What `SeSidEqual` compares. -/
structure Sid where
  revision : Nat
  authority : List Nat
  subAuthority : List Nat
deriving DecidableEq, Repr

def sidAt (memory : ByteMemory) (sid : Nat) : Sid :=
  { revision := load memory 1 sid
    authority := (range 6).map fun j => load memory 1 (sid + 2 + j)
    subAuthority := (range (load memory 1 (sid + 1))).map fun i =>
      load memory 4 (sid + 8 + 4 * i) }

structure Ace where
  aceType : Nat
  mask : AccessMask
  sid : Sid
deriving DecidableEq, Repr

def Ace.Allows (ace : Ace) : Prop := ace.aceType = 0

def Ace.Denies (ace : Ace) : Prop := ace.aceType = 1

/-- Allow and deny ACEs one behind the other, each within its size. -/
def AcesAt (memory : ByteMemory) (aclEnd : Nat) : Nat → List Ace → Prop
  | _, [] => True
  | pAce, ace :: aces =>
      load memory 1 pAce = ace.aceType ∧ (ace.Allows ∨ ace.Denies) ∧
      load memory 4 (pAce + 4) = ace.mask.toNat ∧ sidAt memory (pAce + 8) = ace.sid ∧
      16 + 4 * ace.sid.subAuthority.length ≤ load memory 2 (pAce + 2) ∧
      pAce + load memory 2 (pAce + 2) ≤ aclEnd ∧
      AcesAt memory aclEnd (pAce + load memory 2 (pAce + 2)) aces

/-- A well-formed DACL. -/
structure DaclAt (memory : ByteMemory) (dacl : Nat) (aces : List Ace) : Prop where
  count : load memory 2 (dacl + 4) = aces.length
  aces : AcesAt memory (dacl + load memory 2 (dacl + 2)) (dacl + 8) aces

/-- The ACEs of a subject, in list order. -/
def subjectAces (aces : List Ace) (sid : Sid) : List Ace := aces.filter fun ace => ace.sid = sid

section Walk

variable {memory : ByteMemory}

theorem seSidEqual_iff (first second : Nat) :
    seSidEqual memory (some first) (some second) = true ↔
      sidAt memory first = sidAt memory second := by
  simp only [seSidEqual, Bool.and_eq_true, beq_iff_eq, all_eq_true, mem_range, sidAt, Sid.mk.injEq]
  constructor
  · rintro ⟨⟨⟨revision, count⟩, authority⟩, subAuthority⟩
    refine ⟨revision, ?_, ?_⟩
    · apply map_congr_left
      exact fun j member => authority j (mem_range.mp member)
    · rw [← count]
      apply map_congr_left
      exact fun i member => subAuthority i (mem_range.mp member)
  · rintro ⟨revision, authority, subAuthority⟩
    have count : load memory 1 (first + 1) = load memory 1 (second + 1) := by
      simpa using congrArg List.length subAuthority
    rw [← count] at subAuthority
    refine ⟨⟨⟨revision, count⟩, ?_⟩, ?_⟩
    · intro j inside
      exact map_inj_left.mp authority j (mem_range.mpr inside)
    · intro i inside
      exact map_inj_left.mp subAuthority i (mem_range.mpr inside)

/-- The walk over the ACEs themselves. -/
def checkList (sid : Sid) (desired : AccessMask) : List Ace → Check → Option Check
  | [], check => some check
  | ace :: aces, check =>
      if ace.sid = sid ∧ desired &&& ace.mask = desired then
        if ace.aceType = 0 then checkList sid desired aces ⟨check.granted ||| ace.mask, true⟩
        else none
      else checkList sid desired aces check

theorem checkAces_eq {aclEnd subject : Nat} {desired : AccessMask} {aces : List Ace} {pAce : Nat}
    (wellFormed : AcesAt memory aclEnd pAce aces) (check : Check) :
    checkAces memory aclEnd (some subject) desired none aces.length pAce check =
      checkList (sidAt memory subject) desired aces check := by
  induction aces generalizing pAce check with
  | nil => rfl
  | cons ace aces ih =>
    obtain ⟨type, kind, mask, sid, size, fits, rest⟩ := wellFormed
    have inside : ¬ pAce + 4 > aclEnd := by omega
    have sameSid : seSidEqual memory (some subject) (some (pAce + 8)) = true ↔
        ace.sid = sidAt memory subject := by
      rw [seSidEqual_iff, sid]
      exact eq_comm
    have aceMask : BitVec.ofNat 32 (load memory 4 (pAce + 4)) = ace.mask := by
      rw [mask, BitVec.ofNat_toNat, BitVec.setWidth_eq]
    rw [length_cons, checkAces, if_neg inside, checkList, checkAce, type, aceMask]
    simp only [mappedMask, sameSid]
    by_cases own : ace.sid = sidAt memory subject
    · by_cases full : desired &&& ace.mask = desired
      · rcases kind with allows | denies
        · have isAllow : ace.aceType = 0 := allows
          simp only [isAllow, own, full, if_true, and_self]
          exact ih rest _
        · have isDeny : ace.aceType = 1 := denies
          simp only [isDeny, own, full, if_true, and_self, Nat.one_ne_zero, if_false]
      · rcases kind with allows | denies
        · have isAllow : ace.aceType = 0 := allows
          simp only [isAllow, own, full, if_true, if_false, and_false]
          exact ih rest _
        · have isDeny : ace.aceType = 1 := denies
          simp only [isDeny, own, full, if_true, if_false, and_false, Nat.one_ne_zero]
          exact ih rest _
    · simp only [own, if_false, false_and, ite_self]
      exact ih rest _

end Walk

/-- The ACE has all desired bits. -/
def Ace.Full (ace : Ace) (desired : AccessMask) : Prop := desired &&& ace.mask = desired

instance (ace : Ace) (desired : AccessMask) : Decidable (ace.Full desired) :=
  inferInstanceAs (Decidable (desired &&& ace.mask = desired))

/-- Every desired bit is in an allow ACE before it is in any deny ACE. -/
def Allowed (aces : List Ace) (desired : AccessMask) : Prop :=
  ∀ bit, desired.getLsbD bit = true →
    Before (fun ace => ace.Allows ∧ ace.mask.getLsbD bit = true)
      (fun ace => ace.Denies ∧ ace.mask.getLsbD bit = true) aces

/-- The result and `*AccessStatus` are those of the DACL. -/
def FollowsDacl (result : Bool × AccessMask) (aces : List Ace) (desired : AccessMask) : Prop :=
  (result.1 = true ↔ Allowed aces desired) ∧
  (result.1 = true → desired &&& result.2 = desired) ∧ (result.1 = false → result.2 = 0)

/-- The bits that the allow ACEs have together. -/
def allowedBits (aces : List Ace) : AccessMask :=
  aces.foldr (fun ace bits => if ace.aceType = 0 then ace.mask ||| bits else bits) 0

/-- A deny ACE has a desired bit that no allow ACE in front of it has. -/
def DeniesOpenBit (aces : List Ace) (desired : AccessMask) : Prop :=
  ∃ front ace back, aces = front ++ ace :: back ∧ ace.Denies ∧
    desired &&& ace.mask &&& ~~~ allowedBits front ≠ 0

/-- The first ACE with all desired bits is `ace`. -/
structure FirstFull (aces : List Ace) (desired : AccessMask) (front : List Ace) (ace : Ace)
    (back : List Ace) : Prop where
  shape : aces = front ++ ace :: back
  partly : ∀ earlier ∈ front, ¬ earlier.Full desired
  full : ace.Full desired

/-- The ACEs, by those with all desired bits, on which a check of single ACEs goes wrong. -/
inductive Misjudged (aces : List Ace) (desired : AccessMask) : Prop
  /-- What the first one allows, no other denies, but an ACE with some of the bits before it. -/
  | deniedBit {front back : List Ace} {ace : Ace} : FirstFull aces desired front ace back →
      ace.Allows → (∀ later ∈ back, later.Full desired → ¬ later.Denies) →
      DeniesOpenBit front desired → Misjudged aces desired
  /-- What the first one allows, another one denies too late. -/
  | lateDeny {front back : List Ace} {ace later : Ace} : FirstFull aces desired front ace back →
      ace.Allows → later ∈ back → later.Full desired → later.Denies →
      ¬ DeniesOpenBit front desired → Misjudged aces desired
  /-- What the first one denies, ACEs with some of the bits have allowed before. -/
  | allowedBefore {front back : List Ace} {ace : Ace} : FirstFull aces desired front ace back →
      ace.Denies → desired &&& allowedBits front = desired → ¬ DeniesOpenBit front desired →
      Misjudged aces desired
  /-- There is none, and ACEs with some of the bits allow them together. -/
  | splitGrant : (∀ ace ∈ aces, ¬ ace.Full desired) → desired &&& allowedBits aces = desired →
      ¬ DeniesOpenBit aces desired → Misjudged aces desired

/-- One ACE allows all desired bits and none denies them all. -/
def AllowedAtOnce (aces : List Ace) (desired : AccessMask) : Prop :=
  (∃ ace ∈ aces, ace.Allows ∧ ace.Full desired) ∧ ¬ ∃ ace ∈ aces, ace.Denies ∧ ace.Full desired

section Decision

variable {aces : List Ace} {sid : Sid} {desired : AccessMask}

theorem Ace.Allows.not_denies {ace : Ace} (allows : ace.Allows) : ¬ ace.Denies :=
  fun denies => by cases allows.symm.trans denies

theorem allowedBits_getLsbD (aces : List Ace) (bit : Nat) :
    (allowedBits aces).getLsbD bit = true ↔
      ∃ ace ∈ aces, ace.Allows ∧ ace.mask.getLsbD bit = true := by
  induction aces with
  | nil => simp [allowedBits]
  | cons ace aces ih =>
    rw [exists_mem_cons_iff, ← ih, allowedBits, foldr_cons]
    by_cases allows : ace.aceType = 0
    · simp [Ace.Allows, allows, allowedBits]
    · simp [Ace.Allows, allows, allowedBits]

theorem mask_ne_zero_iff {mask : AccessMask} : mask ≠ 0 ↔ ∃ bit, mask.getLsbD bit = true := by
  constructor
  · intro some
    by_contra none
    apply some
    apply BitVec.eq_of_getLsbD_eq
    intro bit _
    rw [Bool.eq_false_iff.mpr fun set => none ⟨bit, set⟩]
    simp
  · rintro ⟨bit, set⟩ rfl
    simp at set

theorem covered_iff {mask : AccessMask} : desired &&& mask = desired ↔
    ∀ bit, desired.getLsbD bit = true → mask.getLsbD bit = true := by
  constructor
  · intro same bit isDesired
    have here := congrArg (BitVec.getLsbD · bit) same
    simpa [isDesired] using here
  · intro all
    apply BitVec.eq_of_getLsbD_eq
    intro bit _
    rw [BitVec.getLsbD_and]
    cases isDesired : desired.getLsbD bit with
    | false => rfl
    | true => rw [all bit isDesired, Bool.and_true]

theorem deniesOpenBit_iff : DeniesOpenBit aces desired ↔
    ∃ bit, desired.getLsbD bit = true ∧
      Before (fun ace => ace.Denies ∧ ace.mask.getLsbD bit = true)
        (fun ace => ace.Allows ∧ ace.mask.getLsbD bit = true) aces := by
  constructor
  · rintro ⟨front, ace, back, shape, denies, open'⟩
    obtain ⟨bit, set⟩ := mask_ne_zero_iff.mp open'
    simp only [BitVec.getLsbD_and, BitVec.getLsbD_not, Bool.and_eq_true, Bool.not_eq_true'] at set
    obtain ⟨⟨isDesired, has⟩, _, unset⟩ := set
    refine ⟨bit, isDesired, front, ace, back, shape, ⟨denies, has⟩, fun earlier member allows => ?_⟩
    rw [(allowedBits_getLsbD front bit).mpr ⟨earlier, member, allows⟩] at unset
    cases unset
  · rintro ⟨bit, isDesired, front, ace, back, shape, ⟨denies, has⟩, none⟩
    refine ⟨front, ace, back, shape, denies, mask_ne_zero_iff.mpr ⟨bit, ?_⟩⟩
    have inside : bit < 32 := by
      by_contra outside
      rw [BitVec.getLsbD_of_ge _ _ (Nat.le_of_not_lt outside)] at isDesired
      cases isDesired
    have unset : (allowedBits front).getLsbD bit = false := by
      rw [Bool.eq_false_iff]
      intro set
      obtain ⟨earlier, member, allows⟩ := (allowedBits_getLsbD front bit).mp set
      exact none earlier member allows
    rw [BitVec.getLsbD_and, BitVec.getLsbD_and, isDesired, has, BitVec.getLsbD_not, unset,
      decide_eq_true inside]
    rfl

/-- All desired bits are allowed if the allow ACEs have them together and no deny ACE comes before
them. -/
theorem allowed_iff : Allowed aces desired ↔
    desired &&& allowedBits aces = desired ∧ ¬ DeniesOpenBit aces desired := by
  have apart : ∀ bit (ace : Ace), (ace.Allows ∧ ace.mask.getLsbD bit = true) →
      ¬ (ace.Denies ∧ ace.mask.getLsbD bit = true) :=
    fun bit ace allows denies => allows.1.not_denies denies.1
  rw [covered_iff, deniesOpenBit_iff]
  constructor
  · intro allowed
    refine ⟨fun bit isDesired => ?_, ?_⟩
    · obtain ⟨front, ace, back, shape, allows, _⟩ := allowed bit isDesired
      exact (allowedBits_getLsbD aces bit).mpr ⟨ace, by rw [shape]; simp, allows⟩
    · rintro ⟨bit, isDesired, denied⟩
      exact (not_before_iff (apart bit)).mpr (.inl denied) (allowed bit isDesired)
  · rintro ⟨together, undenied⟩ bit isDesired
    by_contra misses
    rcases (not_before_iff (apart bit)).mp misses with denied | never
    · exact undenied ⟨bit, isDesired, denied⟩
    · obtain ⟨ace, member, allows⟩ :=
        (allowedBits_getLsbD aces bit).mp (together bit isDesired)
      exact never ace member allows

section FirstFull

variable {front back : List Ace} {ace : Ace} (first : FirstFull aces desired front ace back)

include first

theorem FirstFull.mem : ace ∈ aces := by
  rw [first.shape]
  exact mem_append_right _ mem_cons_self

theorem FirstFull.mem_of_back {later : Ace} (member : later ∈ back) : later ∈ aces := by
  rw [first.shape]
  exact mem_append_right _ (mem_cons_of_mem _ member)

/-- Behind an ACE that allows all desired bits none is denied any more. -/
theorem FirstFull.allowed_of_allows (allows : ace.Allows) :
    Allowed aces desired ↔ ¬ DeniesOpenBit front desired := by
  have has := covered_iff.mp first.full
  rw [allowed_iff, and_iff_right, deniesOpenBit_iff, deniesOpenBit_iff, first.shape]
  · apply not_congr
    apply exists_congr
    intro bit
    apply and_congr_right
    intro isDesired
    rw [before_append, before_cons, or_iff_left]
    rintro ⟨_, ⟨denies, _⟩ | ⟨notAllows, _⟩⟩
    · exact allows.not_denies denies
    · exact notAllows ⟨allows, has bit isDesired⟩
  · exact covered_iff.mpr fun bit isDesired => (allowedBits_getLsbD aces bit).mpr
      ⟨ace, first.mem, allows, has bit isDesired⟩

/-- Behind an ACE that denies all desired bits none is allowed any more. -/
theorem FirstFull.allowed_of_denies (denies : ace.Denies) :
    Allowed aces desired ↔ Allowed front desired := by
  have has := covered_iff.mp first.full
  rw [Allowed, Allowed, first.shape]
  apply forall₂_congr
  intro bit isDesired
  rw [before_append, before_cons, or_iff_left]
  rintro ⟨_, ⟨allows, _⟩ | ⟨notDenies, _⟩⟩
  · exact allows.not_denies denies
  · exact notDenies ⟨denies, has bit isDesired⟩

theorem FirstFull.atOnce_of_allows (allows : ace.Allows) : AllowedAtOnce aces desired ↔
    ∀ later ∈ back, later.Full desired → ¬ later.Denies := by
  rw [AllowedAtOnce, first.shape]
  constructor
  · rintro ⟨_, none⟩ later member full denies
    exact none ⟨later, by simp [member], denies, full⟩
  · intro none
    refine ⟨⟨ace, by simp, allows, first.full⟩, ?_⟩
    rintro ⟨other, member, denies, full⟩
    rcases mem_append.mp member with early | late
    · exact first.partly other early full
    · rcases mem_cons.mp late with rfl | late
      · exact allows.not_denies denies
      · exact none other late full denies

theorem FirstFull.not_atOnce_of_denies (denies : ace.Denies) : ¬ AllowedAtOnce aces desired :=
  fun atOnce => atOnce.2 ⟨ace, first.mem, denies, first.full⟩

end FirstFull

theorem exists_firstFull (some : ∃ ace ∈ aces, ace.Full desired) :
    ∃ front ace back, FirstFull aces desired front ace back := by
  obtain ⟨full, member, isFull⟩ := some
  cases found : aces.find? (fun ace => ace.Full desired) with
  | none =>
    have partly := find?_eq_none.mp found full member
    exact absurd (decide_eq_true isFull) partly
  | some ace =>
    obtain ⟨isFull, front, back, shape, partly⟩ := find?_eq_some_iff_append.mp found
    refine ⟨front, ace, back, shape, fun earlier inside isFull => ?_, of_decide_eq_true isFull⟩
    have notFull := partly earlier inside
    rw [decide_eq_true isFull] at notFull
    cases notFull

/-- To look at single ACEs goes right but for the four kinds of lists. -/
theorem allowedAtOnce_iff_allowed (kinds : ∀ ace ∈ aces, ace.Allows ∨ ace.Denies) :
    (AllowedAtOnce aces desired ↔ Allowed aces desired) ↔ ¬ Misjudged aces desired := by
  constructor
  · rintro same (⟨first, allows, undenied, open'⟩ | ⟨first, allows, member, full, denies, kept⟩ |
      ⟨first, denies, together, kept⟩ | ⟨partly, together, kept⟩)
    · have allowed := same.mp ((first.atOnce_of_allows allows).mpr undenied)
      exact (first.allowed_of_allows allows).mp allowed open'
    · have atOnce := same.mpr ((first.allowed_of_allows allows).mpr kept)
      exact (first.atOnce_of_allows allows).mp atOnce _ member full denies
    · have allowed := (first.allowed_of_denies denies).mpr (allowed_iff.mpr ⟨together, kept⟩)
      exact first.not_atOnce_of_denies denies (same.mpr allowed)
    · obtain ⟨⟨ace, member, _, full⟩, _⟩ := same.mpr (allowed_iff.mpr ⟨together, kept⟩)
      exact partly ace member full
  · intro right
    by_cases some : ∃ ace ∈ aces, ace.Full desired
    · obtain ⟨front, ace, back, first⟩ := exists_firstFull some
      rcases kinds ace first.mem with allows | denies
      · rw [first.atOnce_of_allows allows, first.allowed_of_allows allows]
        constructor
        · exact fun undenied open' => right (.deniedBit first allows undenied open')
        · exact fun kept later member full denies =>
            right (.lateDeny first allows member full denies kept)
      · rw [first.allowed_of_denies denies]
        refine iff_of_false (first.not_atOnce_of_denies denies) fun allowed => ?_
        obtain ⟨together, kept⟩ := allowed_iff.mp allowed
        exact right (.allowedBefore first denies together kept)
    · refine iff_of_false (fun atOnce => ?_) fun allowed => ?_
      · obtain ⟨⟨ace, member, _, full⟩, _⟩ := atOnce
        exact some ⟨ace, member, full⟩
      · obtain ⟨together, kept⟩ := allowed_iff.mp allowed
        exact right (.splitGrant (fun ace member full => some ⟨ace, member, full⟩) together kept)

theorem subjectAces_cons (ace : Ace) (aces : List Ace) (sid : Sid) :
    subjectAces (ace :: aces) sid =
      if ace.sid = sid then ace :: subjectAces aces sid else subjectAces aces sid := by
  rw [subjectAces, filter_cons]
  simp only [decide_eq_true_eq]
  rfl

theorem full_or {granted mask : AccessMask} (full : desired &&& mask = desired) :
    desired &&& (granted ||| mask) = desired := by
  rw [BitVec.and_or_distrib_left, full]
  ext i inside
  simp
  tauto

theorem checkList_spec (kinds : ∀ ace ∈ aces, ace.Allows ∨ ace.Denies) (check : Check)
    (covered : check.foundAllow = true → desired &&& check.granted = desired) :
    match checkList sid desired aces check with
    | none => ∃ ace ∈ subjectAces aces sid, ace.Denies ∧ ace.Full desired
    | some last =>
      (¬ ∃ ace ∈ subjectAces aces sid, ace.Denies ∧ ace.Full desired) ∧
      (last.foundAllow = true ↔ check.foundAllow = true ∨
        ∃ ace ∈ subjectAces aces sid, ace.Allows ∧ ace.Full desired) ∧
      (last.foundAllow = true → desired &&& last.granted = desired) := by
  induction aces generalizing check with
  | nil => simpa [checkList, subjectAces] using covered
  | cons ace aces ih =>
    rw [forall_mem_cons] at kinds
    rw [checkList, subjectAces_cons]
    by_cases own : ace.sid = sid
    · by_cases full : desired &&& ace.mask = desired
      · rw [if_pos ⟨own, full⟩]
        rcases kinds.1 with allows | denies
        · have isAllow : ace.aceType = 0 := allows
          have next := ih kinds.2 ⟨check.granted ||| ace.mask, true⟩ (fun _ => full_or full)
          have notDeny : ¬ ace.Denies := fun denies => by cases isAllow.symm.trans denies
          rw [if_pos isAllow, if_pos own]
          split at next
          · simpa [notDeny] using next
          · have isFull : ace.Full desired := full
            simpa [notDeny, allows, isFull] using next
        · have isDeny : ace.aceType = 1 := denies
          rw [if_neg (by simp [isDeny]), if_pos own]
          exact ⟨ace, mem_cons_self, denies, full⟩
      · have next := ih kinds.2 check covered
        have notFull : ¬ ace.Full desired := full
        rw [if_neg (fun both => full both.2), if_pos own]
        simpa [notFull] using next
    · rw [if_neg (fun both => own both.1), if_neg own]
      exact ih kinds.2 check covered

theorem AcesAt.kinds {memory : ByteMemory} {aclEnd pAce : Nat}
    (wellFormed : AcesAt memory aclEnd pAce aces) : ∀ ace ∈ aces, ace.Allows ∨ ace.Denies := by
  induction aces generalizing pAce with
  | nil => exact fun ace member => absurd member not_mem_nil
  | cons ace aces ih =>
    obtain ⟨_, kind, _, _, _, _, rest⟩ := wellFormed
    exact forall_mem_cons.mpr ⟨kind, ih rest⟩

/-- The check grants exactly what one ACE allows and none denies at once; the value
for `*AccessStatus` goes with it. -/
theorem seAccessCheck_spec {memory : ByteMemory} {dacl : Nat}
    (wellFormed : DaclAt memory dacl aces) (subject : Nat) (previouslyGranted : AccessMask) :
    let result := seAccessCheck memory (some (some dacl)) (some subject) desired
      previouslyGranted none
    (result.1 = true ↔ AllowedAtOnce (subjectAces aces (sidAt memory subject)) desired) ∧
      (result.1 = true → desired &&& result.2 = desired) ∧ (result.1 = false → result.2 = 0) := by
  have spec := @checkList_spec aces (sidAt memory subject) desired wellFormed.aces.kinds
    ⟨0, false⟩ (fun found => by cases found)
  simp only [seAccessCheck, wellFormed.count, checkAces_eq wellFormed.aces]
  cases found : checkList (sidAt memory subject) desired aces ⟨0, false⟩ with
  | none =>
    rw [found] at spec
    simp only [Bool.false_eq_true, false_iff, false_imp_iff, implies_true, and_true]
    exact fun granted => granted.2 spec
  | some last =>
    rw [found] at spec
    obtain ⟨noDeny, allow, covers⟩ := spec
    cases isFound : last.foundAllow with
    | false =>
      rw [isFound] at allow
      simp only [isFound, Bool.false_eq_true, if_false, false_iff, false_imp_iff,
        implies_true, and_true]
      intro granted
      have none := allow.mpr (.inr granted.1)
      cases none
    | true =>
      rw [isFound] at allow covers
      have some := allow.mp rfl
      simp only [Bool.false_eq_true, false_or] at some
      simp only [isFound, if_true, true_iff, true_imp_iff, Bool.true_eq_false, false_imp_iff,
        and_true]
      refine ⟨⟨some, noDeny⟩, ?_⟩
      rw [BitVec.or_comm]
      exact full_or (covers rfl)

end Decision

def worldSid : Sid := ⟨1, [0, 0, 0, 0, 0, 1], []⟩

/-- Two ACEs for one SID, the first with a mask of 1, the second with a mask of 3,
and the SID behind them. -/
def twoAces (firstType : UInt8) : ByteMemory := fun index =>
  [2, 0, 40, 0, 2, 0, 0, 0,
    firstType, 0, 16, 0, 1, 0, 0, 0, 1, 0, 0, 0, 0, 0, 0, 1,
    0, 0, 16, 0, 3, 0, 0, 0, 1, 0, 0, 0, 0, 0, 0, 1, 1, 0, 0, 0, 0, 0, 0, 1].getD index 0

theorem twoAces_daclAt (firstType : UInt8) (kind : firstType = 0 ∨ firstType = 1) :
    DaclAt (twoAces firstType) 0 [⟨firstType.toNat, 1#32, worldSid⟩, ⟨0, 3#32, worldSid⟩] := by
  rcases kind with rfl | rfl
  · exact ⟨by decide, by simp only [AcesAt, Ace.Allows, Ace.Denies]; decide⟩
  · exact ⟨by decide, by simp only [AcesAt, Ace.Allows, Ace.Denies]; decide⟩

theorem twoAces_subject (firstType : UInt8) (kind : firstType = 0 ∨ firstType = 1) :
    subjectAces [⟨firstType.toNat, 1#32, worldSid⟩, ⟨0, 3#32, worldSid⟩]
      (sidAt (twoAces firstType) 40) =
        [⟨firstType.toNat, 1#32, worldSid⟩, ⟨0, 3#32, worldSid⟩] := by
  rcases kind with rfl | rfl
  · decide
  · decide

/-- For every well-formed DACL the check follows it exactly when the ACEs of the subject are of none
of the four kinds on which a check of single ACEs goes wrong. -/
theorem seAccessCheck_follows_iff {memory : ByteMemory} {dacl : Nat} {aces : List Ace}
    (wellFormed : DaclAt memory dacl aces) (subject : Nat)
    (desired previouslyGranted : AccessMask) :
    FollowsDacl
      (seAccessCheck memory (some (some dacl)) (some subject) desired previouslyGranted none)
      (subjectAces aces (sidAt memory subject)) desired ↔
    ¬ Misjudged (subjectAces aces (sidAt memory subject)) desired := by
  obtain ⟨result, status⟩ := @seAccessCheck_spec aces desired memory dacl wellFormed subject
    previouslyGranted
  rw [FollowsDacl, and_iff_left status, result]
  exact allowedAtOnce_iff_allowed fun ace member =>
    wellFormed.aces.kinds ace (mem_of_mem_filter member)

/-- Two allow ACEs are followed. -/
theorem seAccessCheck_follows_allows :
    FollowsDacl (seAccessCheck (twoAces 0) (some (some 0)) (some 40) 3#32 0#32 none)
      (subjectAces [⟨0, 1#32, worldSid⟩, ⟨0, 3#32, worldSid⟩] (sidAt (twoAces 0) 40)) 3#32 := by
  have own := twoAces_subject 0 (.inl rfl)
  apply (seAccessCheck_follows_iff (twoAces_daclAt 0 (.inl rfl)) 40 3#32 0#32).mpr
  rw [own]
  have allows : ∀ ace ∈ ([⟨0, 1#32, worldSid⟩, ⟨0, 3#32, worldSid⟩] : List Ace), ace.Allows := by
    simp [Ace.Allows]
  rintro (⟨first, _, _, front, ace, back, shape, denies, _⟩ | ⟨first, _, member, _, denies, _⟩ |
    ⟨first, denies, _⟩ | ⟨partly, _⟩)
  · refine (allows ace ?_).not_denies denies
    have inside := first.shape
    rw [shape] at inside
    exact inside ▸ by simp
  · exact (allows _ (first.mem_of_back member)).not_denies denies
  · exact (allows _ first.mem).not_denies denies
  · exact partly ⟨0, 3#32, worldSid⟩ (by simp) rfl

/-- A deny ACE for one of two desired bits before an allow ACE for both: granted. -/
theorem seAccessCheck_overlooks_deny :
    DaclAt (twoAces 1) 0 [⟨1, 1#32, worldSid⟩, ⟨0, 3#32, worldSid⟩] ∧
      seAccessCheck (twoAces 1) (some (some 0)) (some 40) 3#32 0#32 none = (true, 3#32) ∧
      ¬ FollowsDacl (seAccessCheck (twoAces 1) (some (some 0)) (some 40) 3#32 0#32 none)
        (subjectAces [⟨1, 1#32, worldSid⟩, ⟨0, 3#32, worldSid⟩] (sidAt (twoAces 1) 40)) 3#32 := by
  have granted :
      seAccessCheck (twoAces 1) (some (some 0)) (some 40) 3#32 0#32 none = (true, 3#32) := by
    decide
  have own : subjectAces [⟨1, 1#32, worldSid⟩, ⟨0, 3#32, worldSid⟩] (sidAt (twoAces 1) 40) =
      [⟨1, 1#32, worldSid⟩, ⟨0, 3#32, worldSid⟩] := twoAces_subject 1 (.inr rfl)
  refine ⟨twoAces_daclAt 1 (.inr rfl), granted, ?_⟩
  rw [granted, own]
  intro follows
  have first := (follows.1.mp rfl) 0 (by decide)
  rw [before_cons] at first
  rcases first with ⟨allows, _⟩ | ⟨notDenied, _⟩
  · cases allows
  · exact notDenied ⟨rfl, by decide⟩

end MinNT.Se
