import Mathlib.Data.List.Nodup
import MinNT.Drivers.Ahci

namespace MinNT.Ahci

open List

/-- The attached ports of a controller below `num_ports`. -/
def portsOf (position : Nat) (ctl : Controller) : List PortAddress :=
  ((range ctl.numPorts).filter ctl.attached).map fun i => ⟨position, i⟩

/-- The ports in the order of their numbers. -/
def numberedPorts : Nat → List Controller → List PortAddress
  | _, [] => []
  | position, ctl :: rest => portsOf position ctl ++ numberedPorts (position + 1) rest

section Search

variable {ctl : Controller} {diskNumber : Nat}

theorem searchPorts_eq (left i : Nat) {idx : Nat} (reached : idx ≤ diskNumber) :
    searchPorts ctl diskNumber left i idx =
      match ((List.range' i left).filter ctl.attached)[diskNumber - idx]? with
      | some port => (some port, diskNumber)
      | none => (none, idx + ((List.range' i left).filter ctl.attached).length) := by
  induction left generalizing i idx with
  | zero => rfl
  | succ left ih =>
    rw [searchPorts, List.range'_succ]
    by_cases attached : ctl.attached i = true
    · rw [if_pos attached, filter_cons_of_pos attached]
      by_cases same : idx = diskNumber
      · rw [if_pos same, same, Nat.sub_self, getElem?_cons_zero]
      · have later : diskNumber - idx = (diskNumber - (idx + 1)) + 1 := by omega
        rw [if_neg same, ih (i + 1) (by omega), later, getElem?_cons_succ,
          length_cons, Nat.add_assoc, Nat.add_comm 1]
    · rw [if_neg attached, filter_cons_of_neg attached, ih (i + 1) reached]

theorem searchControllers_eq (controllers : List Controller) (position : Nat) {idx : Nat}
    (reached : idx ≤ diskNumber) :
    searchControllers diskNumber controllers position idx =
      (numberedPorts position controllers)[diskNumber - idx]? := by
  induction controllers generalizing position idx with
  | nil => rfl
  | cons ctl rest ih =>
    rw [searchControllers, searchPorts_eq _ _ reached, ← range_eq_range', numberedPorts]
    cases found : ((range ctl.numPorts).filter ctl.attached)[diskNumber - idx]? with
    | some port =>
      have inside := (List.getElem?_eq_some_iff.mp found).1
      rw [getElem?_append_left (by simpa [portsOf] using inside), portsOf, getElem?_map, found]
      rfl
    | none =>
      have beyond := List.getElem?_eq_none_iff.mp found
      have length : (portsOf position ctl).length =
          ((range ctl.numPorts).filter ctl.attached).length := length_map _
      simp only
      rw [ih (position + 1) (by omega), getElem?_append_right (by omega), length, Nat.sub_sub]

theorem ahciGetPortByIndex_eq (controllers : List Controller) (diskNumber : Nat) :
    ahciGetPortByIndex controllers diskNumber = (numberedPorts 0 controllers)[diskNumber]? :=
  searchControllers_eq controllers 0 (Nat.zero_le _)

end Search

theorem count_attached (attached : Nat → Bool) (ports : List Nat) (count : Nat) :
    ports.foldl (fun count i => if attached i then count + 1 else count) count =
      count + (ports.filter attached).length := by
  induction ports generalizing count with
  | nil => rfl
  | cons i ports ih =>
    rw [foldl_cons, ih]
    by_cases isAttached : attached i = true
    · rw [if_pos isAttached, filter_cons_of_pos isAttached, length_cons]
      omega
    · rw [if_neg isAttached, filter_cons_of_neg isAttached]

theorem ahciGetDiskCount_eq (controllers : List Controller) :
    ahciGetDiskCount controllers = (numberedPorts 0 controllers).length := by
  suffices counts : ∀ position count, controllers.foldl
      (fun count ctl => (range ctl.numPorts).foldl
        (fun count i => if ctl.attached i then count + 1 else count) count) count =
      count + (numberedPorts position controllers).length by
    rw [ahciGetDiskCount, counts 0, Nat.zero_add]
  induction controllers with
  | nil => exact fun _ _ => rfl
  | cons ctl rest ih =>
    intro position count
    rw [foldl_cons, ih (position + 1), count_attached, numberedPorts, length_append,
      portsOf, length_map, Nat.add_assoc]

variable {port : PortAddress}

theorem mem_portsOf {position : Nat} {ctl : Controller} :
    port ∈ portsOf position ctl ↔
      port.controller = position ∧ port.index < ctl.numPorts ∧ ctl.attached port.index = true := by
  rw [portsOf, List.mem_map]
  constructor
  · rintro ⟨i, member, rfl⟩
    rw [mem_filter, mem_range] at member
    exact ⟨rfl, member⟩
  · rintro ⟨rfl, inside⟩
    exact ⟨port.index, by rwa [mem_filter, mem_range], rfl⟩

theorem mem_numberedPorts {controllers : List Controller} {position : Nat} :
    port ∈ numberedPorts position controllers ↔
      ∃ place ctl, controllers[place]? = some ctl ∧ port.controller = position + place ∧
        port.index < ctl.numPorts ∧ ctl.attached port.index = true := by
  induction controllers generalizing position with
  | nil => simp [numberedPorts]
  | cons ctl rest ih =>
    rw [numberedPorts, mem_append, mem_portsOf, ih]
    constructor
    · rintro (⟨here, inside⟩ | ⟨place, other, at', there, inside⟩)
      · exact ⟨0, ctl, rfl, here, inside⟩
      · exact ⟨place + 1, other, at', by omega, inside⟩
    · rintro ⟨place, other, at', there, inside⟩
      cases place with
      | zero =>
        cases at'
        exact .inl ⟨there, inside⟩
      | succ place => exact .inr ⟨place, other, at', by omega, inside⟩

theorem numberedPorts_nodup (controllers : List Controller) (position : Nat) :
    (numberedPorts position controllers).Nodup := by
  induction controllers generalizing position with
  | nil => exact nodup_nil
  | cons ctl rest ih =>
    rw [numberedPorts, nodup_append]
    refine ⟨?_, ih (position + 1), ?_⟩
    · apply (nodup_range.filter _).map
      intro i j same
      cases same
      rfl
    · rintro port here other there rfl
      obtain ⟨place, _, _, later, _⟩ := mem_numberedPorts.mp there
      have first := (mem_portsOf.mp here).1
      omega

/-- A port with a disk. -/
def IsAttached (controllers : List Controller) (port : PortAddress) : Prop :=
  ∃ ctl, controllers[port.controller]? = some ctl ∧ ctl.attached port.index = true

/-- The numbers below the count denote different attached ports, and all of them. -/
structure Numbered (controllers : List Controller) : Prop where
  distinct : ∀ d d', d < ahciGetDiskCount controllers → d' < ahciGetDiskCount controllers →
    ahciGetPortByIndex controllers d = ahciGetPortByIndex controllers d' → d = d'
  denotes : ∀ d, d < ahciGetDiskCount controllers →
    ∃ port, ahciGetPortByIndex controllers d = some port ∧ IsAttached controllers port
  covered : ∀ port, IsAttached controllers port →
    ∃ d, d < ahciGetDiskCount controllers ∧ ahciGetPortByIndex controllers d = some port

/-- Every port with a disk is one that the loops up to `num_ports` reach. -/
def LowPorts (controllers : List Controller) : Prop :=
  ∀ ctl ∈ controllers, ∀ i, ctl.attached i = true → i < ctl.numPorts

theorem mem_numbered_attached {controllers : List Controller}
    (member : port ∈ numberedPorts 0 controllers) : IsAttached controllers port := by
  obtain ⟨place, ctl, at', there, _, attached⟩ := mem_numberedPorts.mp member
  rw [Nat.zero_add] at there
  exact ⟨ctl, there ▸ at', attached⟩

/-- The numbering is as it should be exactly if all ports are low. -/
theorem numbered_iff (controllers : List Controller) :
    Numbered controllers ↔ LowPorts controllers := by
  have nodup := numberedPorts_nodup controllers 0
  constructor
  · intro numbered ctl member i attached
    obtain ⟨place, at'⟩ := mem_iff_getElem?.mp member
    obtain ⟨d, _, found⟩ := numbered.covered ⟨place, i⟩ ⟨ctl, at', attached⟩
    rw [ahciGetPortByIndex_eq] at found
    obtain ⟨place', ctl', at'', there, inside, _⟩ :=
      mem_numberedPorts.mp (mem_of_getElem? found)
    rw [Nat.zero_add] at there
    have same : place = place' := there
    rw [← same, at'] at at''
    cases at''
    exact inside
  · intro low
    constructor
    · intro d d' inside inside' same
      rw [ahciGetDiskCount_eq] at inside inside'
      rw [ahciGetPortByIndex_eq, ahciGetPortByIndex_eq] at same
      exact (getElem?_inj inside nodup).mp same
    · intro d inside
      rw [ahciGetDiskCount_eq] at inside
      refine ⟨(numberedPorts 0 controllers)[d], ?_, mem_numbered_attached (getElem_mem _)⟩
      rw [ahciGetPortByIndex_eq, getElem?_eq_getElem inside]
    · rintro port ⟨ctl, at', attached⟩
      have inside := low ctl (mem_of_getElem? at') port.index attached
      have member : port ∈ numberedPorts 0 controllers :=
        mem_numberedPorts.mpr ⟨port.controller, ctl, at', (Nat.zero_add _).symm, inside, attached⟩
      obtain ⟨d, found⟩ := mem_iff_getElem?.mp member
      refine ⟨d, ?_, by rw [ahciGetPortByIndex_eq, found]⟩
      rw [ahciGetDiskCount_eq]
      exact (List.getElem?_eq_some_iff.mp found).1

end MinNT.Ahci
