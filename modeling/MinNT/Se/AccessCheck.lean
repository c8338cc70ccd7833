import MinNT.Lib.ByteMemory

namespace MinNT.Se

open ByteMemory

abbrev AccessMask := BitVec 32

def genericRead : AccessMask := 0x80000000#32
def genericWrite : AccessMask := 0x40000000#32
def genericExecute : AccessMask := 0x20000000#32
def genericAll : AccessMask := 0x10000000#32

structure GenericMapping where
  genericRead : AccessMask
  genericWrite : AccessMask
  genericExecute : AccessMask
  genericAll : AccessMask
deriving DecidableEq, Repr

/-- `SeSidEqual`, on the addresses of the two SIDs. -/
def seSidEqual (memory : ByteMemory) : Option Nat → Option Nat → Bool
  | none, none => true
  | some sid1, some sid2 =>
      load memory 1 sid1 == load memory 1 sid2 &&
      load memory 1 (sid1 + 1) == load memory 1 (sid2 + 1) &&
      (List.range 6).all (fun j => load memory 1 (sid1 + 2 + j) == load memory 1 (sid2 + 2 + j)) &&
      (List.range (load memory 1 (sid1 + 1))).all fun i =>
        load memory 4 (sid1 + 8 + 4 * i) == load memory 4 (sid2 + 8 + 4 * i)
  | _, _ => false

/-- The mask of an allow ACE, less the rights of a generic mapping. -/
def mappedMask (mapping : Option GenericMapping) (desired mask : AccessMask) : AccessMask :=
  match mapping with
  | none => mask
  | some mapping =>
      let mask := if desired &&& genericRead ≠ 0 then mask &&& ~~~ mapping.genericRead else mask
      let mask := if desired &&& genericWrite ≠ 0 then mask &&& ~~~ mapping.genericWrite else mask
      let mask :=
        if desired &&& genericExecute ≠ 0 then mask &&& ~~~ mapping.genericExecute else mask
      if desired &&& genericAll ≠ 0 then mask &&& ~~~ mapping.genericAll else mask

/-- The local variables `granted` and `foundAllow`. -/
structure Check where
  granted : AccessMask
  foundAllow : Bool
deriving DecidableEq, Repr

section Loop

variable (memory : ByteMemory) (aclEnd : Nat) (subject : Option Nat) (desired : AccessMask)
  (mapping : Option GenericMapping)

/-- One ACE; `none` is the return of a deny. -/
def checkAce (pAce : Nat) (check : Check) : Option Check :=
  let aceSid := some (pAce + 8)
  let aceMask := BitVec.ofNat 32 (load memory 4 (pAce + 4))
  if load memory 1 pAce = 0 then
    if seSidEqual memory subject aceSid then
      let mask := mappedMask mapping desired aceMask
      if desired &&& mask = desired then some ⟨check.granted ||| mask, true⟩ else some check
    else some check
  else if load memory 1 pAce = 1 then
    if seSidEqual memory subject aceSid then
      if desired &&& aceMask = desired then none else some check
    else some check
  else some check

/-- The loop over the ACEs that are left, with `AclSize` as the end of the list. -/
def checkAces : Nat → Nat → Check → Option Check
  | 0, _, check => some check
  | left + 1, pAce, check =>
      if pAce + 4 > aclEnd then some check
      else
        match checkAce memory subject desired mapping pAce check with
        | none => none
        | some next => checkAces left (pAce + load memory 2 (pAce + 2)) next

end Loop

/-- `SeAccessCheck` on a descriptor by its `Dacl` field: the result and the value
for `*AccessStatus`. -/
def seAccessCheck (memory : ByteMemory) (securityDescriptor : Option (Option Nat))
    (subject : Option Nat) (desired previouslyGranted : AccessMask)
    (mapping : Option GenericMapping) : Bool × AccessMask :=
  match securityDescriptor with
  | none => (true, desired ||| previouslyGranted)
  | some none => (true, desired ||| previouslyGranted)
  | some (some dacl) =>
      let aclSize := load memory 2 (dacl + 2)
      let aceCount := load memory 2 (dacl + 4)
      match checkAces memory (dacl + aclSize) subject desired mapping aceCount (dacl + 8)
          ⟨0, false⟩ with
      | none => (false, 0)
      | some check =>
          if check.foundAllow then (true, check.granted ||| previouslyGranted) else (false, 0)

end MinNT.Se
