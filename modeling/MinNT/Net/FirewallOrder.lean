import Mathlib.Data.List.Find
import MinNT.Net.Firewall

namespace MinNT.Net

open List Firewall AddedRules

/-- No packet is covered by both rules, or they do the same with it. -/
def Agree (first second : FwRule) : Prop :=
  ∀ packet, first.Matches packet → second.Matches packet → first.action = second.action

theorem Agree.enable {first second : FwRule} (agree : Agree first second) (one two : Bool) :
    Agree { first with enabled := one } { second with enabled := two } :=
  fun packet ⟨direction, protocol, sourcePort, destPort, source, dest⟩
      ⟨direction', protocol', sourcePort', destPort', source', dest'⟩ =>
    agree packet ⟨direction, protocol, sourcePort, destPort, source, dest⟩
      ⟨direction', protocol', sourcePort', destPort', source', dest'⟩

/-- A rule is added with its addresses within their masks, and into a slot in front of
no rule that does something else with the same packets. -/
def AddsInOrder (state : FwState) : FwCall → Prop
  | .addRule arguments => ∀ slot, state.firewall.freeSlot = some slot →
      arguments.rule.Masked ∧ ∀ later, slot < later → state.firewall.Names later →
        Agree (state.firewall.rules later) arguments.rule
  | _ => True

/-- The rules in use are those that were added and not removed; where a rule lies in
front of one that was added before it, the two agree. -/
structure Listed (state : FwState) : Prop where
  present : ∀ slot, slot ∈ state.added.map AddedRule.slot ↔ state.firewall.Names slot
  current : ∀ entry ∈ state.added, state.firewall.rules entry.slot = entry.rule
  masked : ∀ entry ∈ state.added, entry.rule.Masked
  agree : state.added.Pairwise fun earlier later =>
    later.slot < earlier.slot → Agree earlier.rule later.rule

variable {state : FwState} {slot : Nat}

theorem Listed.names (listed : Listed state) {entry : AddedRule}
    (member : entry ∈ state.added) : state.firewall.Names entry.slot :=
  (listed.present entry.slot).mp (mem_map_of_mem member)

variable {firewall : Firewall}

theorem freeSlot_spec (free : firewall.freeSlot = some slot) :
    slot < fwMaxRules ∧ (firewall.rules slot).inUse = false := by
  have notUsed := find?_some free
  have member := mem_of_find?_eq_some free
  exact ⟨mem_range.mp member, by simpa using notUsed⟩

theorem names_setRule (rule : FwRule) (inRange : slot < fwMaxRules) (other : Nat) :
    (firewall.setRule slot rule).Names other ↔
      if other = slot then rule.inUse = true else firewall.Names other := by
  by_cases same : other = slot
  · rw [if_pos same, same, Firewall.Names, setRule_same]
    exact and_iff_right inRange
  · rw [if_neg same, Firewall.Names, setRule_other firewall rule same]
    exact Iff.rfl

section Listed

variable (listed : Listed state)
include listed

/-- A rule that is added in order goes last. -/
theorem Listed.addRule {arguments : FwRuleArguments}
    (inOrder : AddsInOrder state (.addRule arguments)) : Listed (state.addRule arguments) := by
  unfold FwState.addRule fwAddRule
  cases free : state.firewall.freeSlot with
  | none => exact listed
  | some slot =>
    obtain ⟨inRange, unused⟩ := freeSlot_spec free
    obtain ⟨masked, agree⟩ := inOrder slot free
    have elsewhere : ∀ entry ∈ state.added, entry.slot ≠ slot := by
      intro entry member same
      have used := (listed.names member).2
      rw [same, unused] at used
      cases used
    constructor
    · intro other
      rw [names_setRule _ inRange, map_append, mem_append, listed.present]
      by_cases same : other = slot
      · simp [same, FwRuleArguments.rule]
      · simp [same]
    · intro entry member
      rcases mem_append.mp member with old | new
      · rw [setRule_other _ _ (elsewhere entry old)]
        exact listed.current entry old
      · rw [mem_singleton.mp new, setRule_same]
    · intro entry member
      rcases mem_append.mp member with old | new
      · exact listed.masked entry old
      · rw [mem_singleton.mp new]
        exact masked
    · rw [pairwise_append]
      refine ⟨listed.agree, pairwise_singleton _ _, ?_⟩
      intro earlier old later new behind
      rw [mem_singleton.mp new] at behind ⊢
      rw [← listed.current earlier old]
      exact agree earlier.slot behind (listed.names old)

/-- A removed rule leaves the order of the others. -/
theorem Listed.removeRule {ruleId : Nat} (named : state.firewall.Names ruleId) :
    Listed ⟨state.firewall.setRule ruleId FwRule.zero,
      remove state.added ruleId⟩ := by
  have kept : ∀ entry ∈ remove state.added ruleId,
      entry ∈ state.added ∧ entry.slot ≠ ruleId := by
    intro entry member
    simpa [remove] using member
  constructor
  · intro other
    rw [names_setRule _ named.1]
    have present := listed.present other
    simp only [List.mem_map] at present
    by_cases same : other = ruleId
    · simp [same, remove, FwRule.zero]
    · rw [if_neg same, ← present]
      simp only [remove, List.mem_map, mem_filter, decide_eq_true_eq]
      constructor
      · rintro ⟨entry, ⟨member, _⟩, at'⟩
        exact ⟨entry, member, at'⟩
      · rintro ⟨entry, member, at'⟩
        exact ⟨entry, ⟨member, by rw [at']; exact same⟩, at'⟩
  · intro entry member
    rw [setRule_other _ _ (kept entry member).2]
    exact listed.current entry (kept entry member).1
  · exact fun entry member => listed.masked entry (kept entry member).1
  · exact listed.agree.filter _

theorem Listed.enableRule {ruleId : Nat} (named : state.firewall.Names ruleId) (enabled : Bool) :
    Listed ⟨state.firewall.setRule ruleId
        { state.firewall.rules ruleId with enabled := enabled },
      enable state.added ruleId enabled⟩ := by
  constructor
  · intro other
    rw [names_setRule _ named.1, enable, map_map]
    have slots : (AddedRule.slot ∘ fun entry => if entry.slot = ruleId then
        { entry with rule := { entry.rule with enabled := enabled } } else entry) =
        AddedRule.slot := by
      funext entry
      dsimp only [Function.comp]
      split <;> rfl
    rw [slots, listed.present]
    by_cases same : other = ruleId
    · simp only [same, if_true, named.2, iff_true]
      exact named
    · rw [if_neg same]
  · intro changed member
    obtain ⟨entry, old, rfl⟩ := List.mem_map.mp member
    have current := listed.current entry old
    by_cases same : entry.slot = ruleId
    · rw [if_pos same]
      dsimp only
      rw [same, setRule_same, ← same, current]
    · rw [if_neg same, setRule_other _ _ same, current]
  · intro changed member
    obtain ⟨entry, old, rfl⟩ := List.mem_map.mp member
    obtain ⟨source, dest⟩ := listed.masked entry old
    split
    · exact ⟨source, dest⟩
    · exact ⟨source, dest⟩
  · rw [enable, pairwise_map]
    refine listed.agree.imp ?_
    intro earlier later agree
    split <;> split <;> exact fun behind => (agree behind).enable _ _

theorem Listed.rulesOnly
    (same : firewall.rules = state.firewall.rules) : Listed ⟨firewall, state.added⟩ := by
  obtain ⟨present, current, masked, agree⟩ := listed
  refine ⟨fun slot => ?_, fun entry member => ?_, masked, agree⟩
  · rw [Firewall.Names, same]
    exact present slot
  · rw [same]
    exact current entry member

end Listed

theorem fwEvaluatePacket_rules (firewall : Firewall) (packet : FwPacket) (now : Int) :
    (fwEvaluatePacket firewall packet now).2.rules = firewall.rules := by
  unfold fwEvaluatePacket
  split <;> rfl

/-- Every call in order keeps the rules listed. -/
theorem Listed.step {state next : FwState} {call : FwCall} (listed : Listed state)
    (inOrder : AddsInOrder state call) (done : fwStep state call = some next) : Listed next := by
  cases call with
  | addRule arguments =>
    cases done
    exact listed.addRule inOrder
  | removeRule ruleId =>
    cases done
    unfold fwRemoveRule
    by_cases named : state.firewall.Names ruleId
    · rw [if_neg (not_not.mpr named), if_pos named]
      exact listed.removeRule named
    · rw [if_pos named, if_neg named]
      exact listed
  | enableRule ruleId enabled =>
    cases done
    unfold fwEnableRule
    by_cases named : state.firewall.Names ruleId
    · rw [if_neg (not_not.mpr named), if_pos named]
      exact listed.enableRule named enabled
    · rw [if_pos named, if_neg named]
      exact listed
  | setEnabled enabled =>
    cases done
    exact listed.rulesOnly rfl
  | evaluatePacket packet now =>
    cases done
    exact listed.rulesOnly (fwEvaluatePacket_rules state.firewall packet now)

section Listed

variable (listed : Listed state)
include listed

theorem Listed.decides_iff {entry : AddedRule} (member : entry ∈ state.added) (packet : FwPacket) :
    state.firewall.decides packet entry.slot =
      (entry.rule.enabled && decide (entry.rule.Matches packet)) := by
  have used := (listed.names member).2
  have passes := FwRule.passes_iff (listed.masked entry member) packet
  rw [Firewall.decides, used, Bool.true_and, listed.current entry member]
  congr 1
  rw [Bool.eq_iff_iff, passes, decide_eq_true_eq]

theorem Listed.slots_agree :
    (state.added.map AddedRule.slot).Pairwise fun earlier later => later < earlier →
      Agree (state.firewall.rules earlier) (state.firewall.rules later) := by
  refine pairwise_map.mpr ((List.Pairwise.and_mem.mp listed.agree).imp ?_)
  rintro earlier later ⟨old, new, agree⟩
  rw [listed.current earlier old, listed.current later new]
  exact agree

theorem Listed.matches {packet : FwPacket}
    (named : state.firewall.Names slot) (decides : state.firewall.decides packet slot = true) :
    (state.firewall.rules slot).Matches packet := by
  obtain ⟨entry, member, rfl⟩ := List.mem_map.mp ((listed.present slot).mpr named)
  rw [listed.decides_iff member, Bool.and_eq_true, decide_eq_true_eq] at decides
  rw [listed.current entry member]
  exact decides.2

/-- The first rule that matches decides. -/
theorem Listed.action_eq (packet : FwPacket) :
    state.firewall.action packet = decision state.added packet := by
  have used : ∀ slot, state.firewall.decides packet slot = true →
      (state.firewall.rules slot).inUse = true := by
    intro slot decides
    simp only [Firewall.decides, Bool.and_eq_true] at decides
    exact decides.1.1
  have byOrder : ((range fwMaxRules).find? (state.firewall.decides packet)).map
        (fun slot => (state.firewall.rules slot).action) =
      ((state.added.map AddedRule.slot).find? (state.firewall.decides packet)).map
        (fun slot => (state.firewall.rules slot).action) := by
    refine FirstMatch.find?_value_eq
      (List.Pairwise.and_mem.mp pairwise_lt_range) listed.slots_agree ?_ ?_
    · intro slot decides
      rw [mem_range, listed.present]
      exact (and_iff_left (used slot decides)).symm
    · rintro lower higher decidesLower decidesHigher ⟨lowIn, highIn, less⟩ agree
      have lowNamed : state.firewall.Names lower :=
        ⟨mem_range.mp lowIn, used lower decidesLower⟩
      have highNamed : state.firewall.Names higher :=
        ⟨mem_range.mp highIn, used higher decidesHigher⟩
      exact ((agree less) packet (listed.matches highNamed decidesHigher)
        (listed.matches lowNamed decidesLower)).symm
  have first : state.added.find? (state.firewall.decides packet ∘ AddedRule.slot) =
      state.added.find? fun entry => entry.rule.enabled && decide (entry.rule.Matches packet) :=
    find?_congr fun entry member => listed.decides_iff member packet
  rw [find?_map, Option.map_map, first] at byOrder
  unfold Firewall.action decision
  cases inTable : (range fwMaxRules).find? (state.firewall.decides packet) with
  | none =>
    rw [inTable, Option.map_none, eq_comm, Option.map_eq_none_iff] at byOrder
    rw [byOrder]
  | some slot =>
    rw [inTable, Option.map_some, eq_comm, Option.map_eq_some_iff] at byOrder
    obtain ⟨entry, earliest, same⟩ := byOrder
    rw [earliest]
    dsimp only [Function.comp] at same ⊢
    rw [← same, listed.current entry (mem_of_find?_eq_some earliest)]

end Listed

theorem Listed.begin : Listed FwState.begin where
  present := by
    intro slot
    simp [FwState.begin, Firewall.Names, zero, FwRule.zero]
  current := fun _ member => absurd member not_mem_nil
  masked := fun _ member => absurd member not_mem_nil
  agree := List.Pairwise.nil

theorem Listed.addRule_behind (listed : Listed state) {arguments : FwRuleArguments}
    (masked : arguments.rule.Masked) (free : state.firewall.freeSlot = some slot)
    (behind : ∀ entry ∈ state.added, entry.slot < slot) : Listed (state.addRule arguments) := by
  refine listed.addRule fun other found => ⟨masked, fun later less named => ?_⟩
  cases free.symm.trans found
  obtain ⟨entry, member, rfl⟩ := List.mem_map.mp ((listed.present later).mpr named)
  exact absurd less (Nat.lt_asymm (behind entry member))

theorem Listed.init : Listed FwState.init := by
  have first : Listed (FwState.begin.addRule loopbackRule) :=
    Listed.begin.addRule_behind ⟨by decide, by decide⟩ rfl (by decide)
  have second : Listed ((FwState.begin.addRule loopbackRule).addRule inboundHttpRule) :=
    first.addRule_behind ⟨by decide, by decide⟩ rfl (by decide)
  exact second.addRule_behind ⟨by decide, by decide⟩ rfl (by decide)

/-- As long as rules are added in order, the earliest added rule that is present,
enabled and covers the packet decides. -/
theorem fwEvaluatePacket_first_added {state : FwState}
    (run : Transition.Reaches fwStep AddsInOrder FwState.init state)
    (on : state.firewall.enabled = true) (packet : FwPacket) (now : Int) :
    (fwEvaluatePacket state.firewall packet now).1 =
      decision state.added packet := by
  have listed : Listed state :=
    run.invariant Listed.init fun _ _ _ listed inOrder done => listed.step inOrder done
  unfold fwEvaluatePacket
  rw [if_neg (not_not.mpr on)]
  exact listed.action_eq packet

/-- Inbound connections to one TCP port. -/
def inboundPortRule (action : FwAction) (port : BitVec 16) : FwRuleArguments :=
  ⟨action, .inbound, 6, 0, 0, 0, 0, 0, port, none⟩

/-- A packet of a connection to the telnet port. -/
def telnetPacket : FwPacket := ⟨6, 0x0A000002, 40000, 0x0A000001, 23, .inbound⟩

/-- The default rules without the one for port 80. -/
def withoutHttp : FwState :=
  ⟨FwState.init.firewall.setRule 1 FwRule.zero, remove FwState.init.added 1⟩

/-- A rule for port 443 takes the place of the one for port 80, in front of the one
for port 23; packets to port 23 are still dropped. -/
theorem fwEvaluatePacket_first_added_behind_removal :
    decision (withoutHttp.addRule (inboundPortRule .allow 443)).added telnetPacket =
      .drop ∧
    (fwEvaluatePacket (withoutHttp.addRule (inboundPortRule .allow 443)).firewall
        telnetPacket 0).1 =
      decision (withoutHttp.addRule (inboundPortRule .allow 443)).added
        telnetPacket := by
  refine ⟨by decide, fwEvaluatePacket_first_added ?_ rfl telnetPacket 0⟩
  have removed : Transition.Reaches fwStep AddsInOrder FwState.init withoutHttp :=
    .step .start (show AddsInOrder FwState.init (.removeRule 1) from trivial) rfl
  have inOrder : AddsInOrder withoutHttp (.addRule (inboundPortRule .allow 443)) := by
    intro slot free
    have first : withoutHttp.firewall.freeSlot = some 1 := rfl
    cases free.symm.trans first
    refine ⟨⟨by decide, by decide⟩, fun later behind named => ?_⟩
    have listed : Listed withoutHttp := Listed.init.removeRule ⟨by decide, rfl⟩
    have slots : withoutHttp.added.map AddedRule.slot = [0, 2] := rfl
    have telnet := (listed.present later).mpr named
    rw [slots] at telnet
    have second : later = 2 := by
      simp at telnet
      omega
    rw [second]
    intro packet covered other
    have ports : packet.destPort = 23 := by
      rcases covered.destPort with any | same
      · exact absurd any (by decide)
      · exact same.symm
    have otherPorts : packet.destPort = 443 := by
      rcases other.destPort with any | same
      · exact absurd any (by decide)
      · exact same.symm
    exact absurd (ports.symm.trans otherPorts) (by decide)
  exact .step removed inOrder rfl

/-- A rule that takes a slot in front of an older one decides instead of it: behind the
removal of the first default rule, a rule that lets telnet in overrides the one that
blocks it. -/
theorem not_fwEvaluatePacket_first_added : ∃ state,
    Transition.runFrom fwStep FwState.init
      [.removeRule 0, .addRule (inboundPortRule .allow 23)] = some state ∧
    state.firewall.enabled = true ∧
    (fwEvaluatePacket state.firewall telnetPacket 0).1 ≠ decision state.added telnetPacket := by
  exact ⟨_, rfl, rfl, by decide⟩

end MinNT.Net
