import MinNT.Lib.FirstMatch
import MinNT.Lib.Transition
import MinNT.NtStatus

namespace MinNT.Net

inductive FwAction where
  | allow
  | drop
  | log
deriving DecidableEq, Repr

inductive FwDirection where
  | inbound
  | outbound
  | both
deriving DecidableEq, Repr

/-- What `FwAddRule` is given. A name is its characters in front of the NUL. -/
structure FwRuleArguments where
  action : FwAction
  direction : FwDirection
  protocol : BitVec 8
  sourceIp : BitVec 32
  sourceMask : BitVec 32
  sourcePort : BitVec 16
  destIp : BitVec 32
  destMask : BitVec 32
  destPort : BitVec 16
  name : Option (List (BitVec 8))
deriving DecidableEq, Repr

structure FwRule where
  id : BitVec 32
  action : FwAction
  direction : FwDirection
  protocol : BitVec 8
  sourceIp : BitVec 32
  sourceMask : BitVec 32
  sourcePort : BitVec 16
  destIp : BitVec 32
  destMask : BitVec 32
  destPort : BitVec 16
  name : List (BitVec 8)
  enabled : Bool
  inUse : Bool
deriving DecidableEq, Repr

structure FwPacket where
  protocol : BitVec 8
  sourceIp : BitVec 32
  sourcePort : BitVec 16
  destIp : BitVec 32
  destPort : BitVec 16
  direction : FwDirection
deriving DecidableEq, Repr

/-- A rule behind `RtlZeroMemory`. -/
def FwRule.zero : FwRule where
  id := 0
  action := .allow
  direction := .inbound
  protocol := 0
  sourceIp := 0
  sourceMask := 0
  sourcePort := 0
  destIp := 0
  destMask := 0
  destPort := 0
  name := []
  enabled := false
  inUse := false

/-- The rule that `FwAddRule` writes into a slot. -/
def FwRuleArguments.rule (arguments : FwRuleArguments) : FwRule where
  id := 0
  action := arguments.action
  direction := arguments.direction
  protocol := arguments.protocol
  sourceIp := arguments.sourceIp
  sourceMask := arguments.sourceMask
  sourcePort := arguments.sourcePort
  destIp := arguments.destIp
  destMask := arguments.destMask
  destPort := arguments.destPort
  name := (arguments.name.getD []).take 63
  enabled := true
  inUse := true

/-- The tests of `FwEvaluatePacket` behind those of `InUse` and `Enabled`. -/
def FwRule.passes (rule : FwRule) (packet : FwPacket) : Bool :=
  if rule.direction ≠ .both ∧ rule.direction ≠ packet.direction then false
  else if rule.protocol ≠ 0 ∧ rule.protocol ≠ packet.protocol then false
  else if rule.sourcePort ≠ 0 ∧ rule.sourcePort ≠ packet.sourcePort then false
  else if rule.destPort ≠ 0 ∧ rule.destPort ≠ packet.destPort then false
  else if rule.sourceMask ≠ 0 ∧ packet.sourceIp &&& rule.sourceMask ≠ rule.sourceIp then false
  else if rule.destMask ≠ 0 ∧ packet.destIp &&& rule.destMask ≠ rule.destIp then false
  else true

/-- A rule covers a packet: addresses are compared on the bits of the masks. -/
structure FwRule.Matches (rule : FwRule) (packet : FwPacket) : Prop where
  direction : rule.direction = .both ∨ rule.direction = packet.direction
  protocol : rule.protocol = 0 ∨ rule.protocol = packet.protocol
  sourcePort : rule.sourcePort = 0 ∨ rule.sourcePort = packet.sourcePort
  destPort : rule.destPort = 0 ∨ rule.destPort = packet.destPort
  source : packet.sourceIp &&& rule.sourceMask = rule.sourceIp &&& rule.sourceMask
  dest : packet.destIp &&& rule.destMask = rule.destIp &&& rule.destMask

instance (rule : FwRule) (packet : FwPacket) : Decidable (rule.Matches packet) :=
  decidable_of_iff
    ((rule.direction = .both ∨ rule.direction = packet.direction) ∧
      (rule.protocol = 0 ∨ rule.protocol = packet.protocol) ∧
      (rule.sourcePort = 0 ∨ rule.sourcePort = packet.sourcePort) ∧
      (rule.destPort = 0 ∨ rule.destPort = packet.destPort) ∧
      packet.sourceIp &&& rule.sourceMask = rule.sourceIp &&& rule.sourceMask ∧
      packet.destIp &&& rule.destMask = rule.destIp &&& rule.destMask)
    ⟨fun ⟨direction, protocol, sourcePort, destPort, source, dest⟩ =>
        ⟨direction, protocol, sourcePort, destPort, source, dest⟩,
      fun ⟨direction, protocol, sourcePort, destPort, source, dest⟩ =>
        ⟨direction, protocol, sourcePort, destPort, source, dest⟩⟩

/-- An address has no bits outside its mask, or the mask leaves it out altogether. -/
def WithinMask (address mask : BitVec 32) : Prop := mask ≠ 0 → address &&& mask = address

instance (address mask : BitVec 32) : Decidable (WithinMask address mask) :=
  inferInstanceAs (Decidable (mask ≠ 0 → address &&& mask = address))

structure FwRule.Masked (rule : FwRule) : Prop where
  source : WithinMask rule.sourceIp rule.sourceMask
  dest : WithinMask rule.destIp rule.destMask

/-- The comparison of the code is the one on the bits of the mask as long as the
address has no other bits. -/
theorem masked_compare {address mask : BitVec 32} (within : WithinMask address mask)
    (given : BitVec 32) :
    ¬ (mask ≠ 0 ∧ given &&& mask ≠ address) ↔ given &&& mask = address &&& mask := by
  by_cases any : mask = 0
  · simp [any]
  · rw [within any, and_iff_right any, not_not]

theorem skips_iff {test : Prop} [Decidable test] {rest : Bool} :
    (if test then false else rest) = true ↔ ¬ test ∧ rest = true := by
  by_cases skipped : test <;> simp [skipped]

theorem wildcard_iff {α : Type} {wanted any given : α} :
    ¬ (wanted ≠ any ∧ wanted ≠ given) ↔ wanted = any ∨ wanted = given := by
  rw [not_and_or, not_not, not_not]

theorem FwRule.passes_iff {rule : FwRule} (masked : rule.Masked) (packet : FwPacket) :
    rule.passes packet = true ↔ rule.Matches packet := by
  have source := masked_compare masked.source packet.sourceIp
  have dest := masked_compare masked.dest packet.destIp
  simp only [passes, skips_iff, wildcard_iff, source, dest]
  constructor
  · rintro ⟨direction, protocol, sourcePort, destPort, sourceIp, destIp, _⟩
    exact ⟨direction, protocol, sourcePort, destPort, sourceIp, destIp⟩
  · rintro ⟨direction, protocol, sourcePort, destPort, sourceIp, destIp⟩
    exact ⟨direction, protocol, sourcePort, destPort, sourceIp, destIp, trivial⟩

def fwMaxRules : Nat := 128
def fwLogMax : Nat := 256

structure FwLogEntry where
  ruleId : BitVec 32
  sourceIp : BitVec 32
  destIp : BitVec 32
  destPort : BitVec 16
  protocol : BitVec 8
  action : FwAction
  timestamp : Int
deriving DecidableEq, Repr

/-- `g_Rules`, `g_Log`, `g_LogHead`, `g_LogCount` and `g_FirewallEnabled`. -/
structure Firewall where
  rules : Nat → FwRule
  log : Nat → FwLogEntry
  logHead : Nat
  logCount : Nat
  enabled : Bool

/-- The zeroed globals. -/
def Firewall.zero : Firewall where
  rules := fun _ => FwRule.zero
  log := fun _ => ⟨0, 0, 0, 0, 0, .allow, 0⟩
  logHead := 0
  logCount := 0
  enabled := false

def Firewall.setRule (firewall : Firewall) (slot : Nat) (rule : FwRule) : Firewall :=
  { firewall with rules := Function.update firewall.rules slot rule }

@[simp] theorem Firewall.setRule_enabled (firewall : Firewall) (slot : Nat) (rule : FwRule) :
    (firewall.setRule slot rule).enabled = firewall.enabled := rfl

theorem Firewall.setRule_same (firewall : Firewall) (slot : Nat) (rule : FwRule) :
    (firewall.setRule slot rule).rules slot = rule := by
  simp [setRule]

theorem Firewall.setRule_other (firewall : Firewall) {slot other : Nat} (rule : FwRule)
    (different : other ≠ slot) :
    (firewall.setRule slot rule).rules other = firewall.rules other := by
  simp [setRule, different]

/-- The slot that the loop of `FwAddRule` stops at. -/
def Firewall.freeSlot (firewall : Firewall) : Option Nat :=
  (List.range fwMaxRules).find? fun slot => !(firewall.rules slot).inUse

def fwAddRule (firewall : Firewall) (arguments : FwRuleArguments) : NtStatus × Firewall :=
  match firewall.freeSlot with
  | some slot => (statusSuccess, firewall.setRule slot arguments.rule)
  | none => (statusNoMemory, firewall)

/-- A rule identifier names a slot in use. -/
def Firewall.Names (firewall : Firewall) (ruleId : Nat) : Prop :=
  ruleId < fwMaxRules ∧ (firewall.rules ruleId).inUse = true

instance (firewall : Firewall) (ruleId : Nat) : Decidable (firewall.Names ruleId) :=
  inferInstanceAs (Decidable (_ ∧ _))

def fwRemoveRule (firewall : Firewall) (ruleId : Nat) : NtStatus × Firewall :=
  if ¬ firewall.Names ruleId then (statusInvalidParameter, firewall)
  else (statusSuccess, firewall.setRule ruleId FwRule.zero)

def fwEnableRule (firewall : Firewall) (ruleId : Nat) (enabled : Bool) : NtStatus × Firewall :=
  if ¬ firewall.Names ruleId then (statusInvalidParameter, firewall)
  else
    let rule := firewall.rules ruleId
    (statusSuccess, firewall.setRule ruleId { rule with enabled := enabled })

def fwSetEnabled (firewall : Firewall) (enabled : Bool) : NtStatus × Firewall :=
  (statusSuccess, { firewall with enabled := enabled })

/-- The entry of the log that `FwEvaluatePacket` writes. -/
def fwLog (firewall : Firewall) (packet : FwPacket) (action : FwAction) (now : Int) : Firewall :=
  let entry : FwLogEntry :=
    ⟨0, packet.sourceIp, packet.destIp, packet.destPort, packet.protocol, action, now⟩
  let count := if firewall.logCount < fwLogMax then firewall.logCount + 1 else firewall.logCount
  { firewall with
    log := Function.update firewall.log firewall.logHead entry
    logHead := (firewall.logHead + 1) % fwLogMax
    logCount := count }

/-- The rule of a slot decides about a packet. -/
def Firewall.decides (firewall : Firewall) (packet : FwPacket) (slot : Nat) : Bool :=
  (firewall.rules slot).inUse && (firewall.rules slot).enabled &&
    (firewall.rules slot).passes packet

/-- The action of the loop of `FwEvaluatePacket`. -/
def Firewall.action (firewall : Firewall) (packet : FwPacket) : FwAction :=
  match (List.range fwMaxRules).find? (firewall.decides packet) with
  | some slot => (firewall.rules slot).action
  | none => .allow

def fwEvaluatePacket (firewall : Firewall) (packet : FwPacket) (now : Int) :
    FwAction × Firewall :=
  if ¬ firewall.enabled then (.allow, firewall)
  else
    let result := firewall.action packet
    (result, fwLog firewall packet result now)

def loopbackRule : FwRuleArguments :=
  ⟨.allow, .both, 0, 0x7F000000, 0xFF000000, 0, 0x7F000000, 0xFF000000, 0,
    some ("Allow loopback".toList.map fun c => BitVec.ofNat 8 c.toNat)⟩

def inboundHttpRule : FwRuleArguments :=
  ⟨.allow, .inbound, 6, 0, 0, 0, 0, 0, 80,
    some ("Allow inbound HTTP".toList.map fun c => BitVec.ofNat 8 c.toNat)⟩

def blockTelnetRule : FwRuleArguments :=
  ⟨.drop, .both, 6, 0, 0, 0, 0, 0, 23,
    some ("Block telnet".toList.map fun c => BitVec.ofNat 8 c.toNat)⟩

def fwInit (firewall : Firewall) : NtStatus × Firewall :=
  let firewall := { firewall with enabled := true, logHead := 0, logCount := 0 }
  let firewall := (fwAddRule firewall loopbackRule).2
  let firewall := (fwAddRule firewall inboundHttpRule).2
  let firewall := (fwAddRule firewall blockTelnetRule).2
  (statusSuccess, firewall)

/-- A rule that was added and not removed since, with its identifier. -/
structure AddedRule where
  slot : Nat
  rule : FwRule

namespace AddedRules

/-- The rules are listed in the order of their addition. -/
def remove (added : List AddedRule) (slot : Nat) : List AddedRule :=
  added.filter fun entry => entry.slot ≠ slot

def enable (added : List AddedRule) (slot : Nat) (enabled : Bool) : List AddedRule :=
  added.map fun entry =>
    if entry.slot = slot then { entry with rule := { entry.rule with enabled := enabled } }
    else entry

/-- The first rule that is enabled and covers the packet decides. -/
def decision (added : List AddedRule) (packet : FwPacket) : FwAction :=
  match added.find? fun entry => entry.rule.enabled && decide (entry.rule.Matches packet) with
  | some entry => entry.rule.action
  | none => .allow

end AddedRules

/-- The firewall, and the rules in the order of their addition. -/
structure FwState where
  firewall : Firewall
  added : List AddedRule

inductive FwCall where
  | addRule (arguments : FwRuleArguments)
  | removeRule (ruleId : Nat)
  | enableRule (ruleId : Nat) (enabled : Bool)
  | setEnabled (enabled : Bool)
  | evaluatePacket (packet : FwPacket) (now : Int)

def FwState.addRule (state : FwState) (arguments : FwRuleArguments) : FwState where
  firewall := (fwAddRule state.firewall arguments).2
  added :=
    match state.firewall.freeSlot with
    | some slot => state.added ++ [⟨slot, arguments.rule⟩]
    | none => state.added

def fwStep (state : FwState) : FwCall → Option FwState
  | .addRule arguments => some (state.addRule arguments)
  | .removeRule ruleId => some
      { firewall := (fwRemoveRule state.firewall ruleId).2
        added := if state.firewall.Names ruleId then AddedRules.remove state.added ruleId
          else state.added }
  | .enableRule ruleId enabled => some
      { firewall := (fwEnableRule state.firewall ruleId enabled).2
        added := if state.firewall.Names ruleId then AddedRules.enable state.added ruleId enabled
          else state.added }
  | .setEnabled enabled => some { state with firewall := (fwSetEnabled state.firewall enabled).2 }
  | .evaluatePacket packet now =>
      some { state with firewall := (fwEvaluatePacket state.firewall packet now).2 }

/-- The zeroed globals with the firewall enabled. -/
def FwState.begin : FwState := ⟨{ Firewall.zero with enabled := true }, []⟩

/-- Behind `FwInit`. -/
def FwState.init : FwState :=
  ((FwState.begin.addRule loopbackRule).addRule inboundHttpRule).addRule blockTelnetRule

theorem FwState.init_firewall : FwState.init.firewall = (fwInit Firewall.zero).2 := rfl

end MinNT.Net
