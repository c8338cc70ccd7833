import MinNT.Ob.ObjectAccounting

namespace MinNT.Ob

open List HandleTable Transition

variable {system : ObjectSystem} {body : Address}

namespace ObjectSystem

/-- Nobody has a reference or a handle yet. -/
def init (memory : Address → ObjectHeader) (deleteProcedures : Nat → Bool) : ObjectSystem :=
  ⟨obInitSystem memory deleteProcedures, [], []⟩

/-- The bodies that creators and holders refer to. -/
def held (system : ObjectSystem) : List Address :=
  system.creators ++ system.references.map Prod.snd

/-- The accounts are right for references that creators and holders have. -/
structure Sound (system : ObjectSystem) : Prop where
  accounts : Accounts system.manager system.held
  once : system.creators.Nodup
  holders : system.holders.Nodup

theorem Sound.room (sound : system.Sound) : Room system.manager system.held := by
  intro body
  have slots := length_handles_le system.manager
  have handles : system.manager.handles.count body ≤ _ := count_le_length
  have creator := nodup_iff_count_le_one.mp sound.once body
  have holders := length_words_le sound.holders
  have taken : (system.references.map Prod.snd).count body ≤ _ := count_le_length
  rw [ObjectSystem.holders, length_map] at holders
  rw [length_map] at taken
  rw [held, count_append]
  omega

theorem init_sound (memory : Address → ObjectHeader) (deleteProcedures : Nat → Bool) :
    (init memory deleteProcedures).Sound where
  accounts := .init memory deleteProcedures
  once := nodup_nil
  holders := nodup_nil

theorem Sound.withManager (sound : system.Sound) {manager : ObjectManager}
    (accounts : Accounts manager system.held) :
    ({ system with manager := manager } : ObjectSystem).Sound :=
  ⟨accounts, sound.once, sound.holders⟩

theorem Sound.note (sound : system.Sound) {holder : Holder} (unused : holder ∉ system.holders)
    {manager : ObjectManager} (found : Option Address)
    (accounts : Accounts manager (found.toList ++ system.held)) :
    ({ system with
        manager := manager
        references := system.note holder found } : ObjectSystem).Sound := by
  cases found with
  | none => exact sound.withManager accounts
  | some body =>
    refine ⟨accounts.perm ?_, sound.once, nodup_cons.mpr ⟨unused, sound.holders⟩⟩
    show (body :: (system.creators ++ system.references.map Prod.snd)).Perm
      (system.creators ++ body :: system.references.map Prod.snd)
    exact perm_middle.symm

end ObjectSystem

open ObjectSystem

theorem Disciplined.reference {holder : Holder}
    (disciplined : Disciplined system (.dereference holder)) :
    ∃ body, system.references.lookup holder = some body ∧ (holder, body) ∈ system.references := by
  obtain ⟨⟨_, body⟩, member, rfl⟩ := List.mem_map.mp disciplined
  cases found : system.references.lookup _ with
  | none =>
    have absent := lookup_eq_none_iff.mp found _ member
    simp at absent
  | some body =>
    obtain ⟨front, back, whole, _⟩ := lookup_eq_some_iff.mp found
    refine ⟨body, rfl, ?_⟩
    rw [whole]
    exact mem_append_right _ mem_cons_self

/-- A disciplined call returns and keeps the accounts. -/
theorem ObjectSystem.Sound.call (sound : system.Sound) {call : ObjectCall}
    (disciplined : Disciplined system call) :
    ∃ next, objectCall system call = .ok next ∧ next.Sound := by
  have room := sound.room
  cases call with
  | create type name memory =>
    have created := sound.accounts.createObject type name disciplined
    rw [held, ← append_assoc] at created
    refine ⟨_, rfl, created, ?_, sound.holders⟩
    cases memory with
    | none => exact sound.once
    | some body =>
      obtain ⟨_, fresh⟩ := disciplined body rfl
      refine nodup_cons.mpr ⟨fun member => fresh ?_, sound.once⟩
      exact sound.accounts.heldLive body (mem_append_left _ member)
  | reference holder body =>
    obtain ⟨live, unused⟩ := disciplined
    exact ⟨_, rfl, sound.note unused (some body) (sound.accounts.reference live (room body))⟩
  | dereferenceCreated body =>
    have split := perm_cons_erase disciplined
    have accounts := sound.accounts.perm (split.append_right _)
    obtain ⟨after, dropped, kept⟩ := accounts.dereference
    refine ⟨{ system with manager := after, creators := system.creators.erase body }, ?_,
      kept, sound.once.erase body, sound.holders⟩
    rw [objectCall, dropped]
    rfl
  | dereference holder =>
    obtain ⟨body, kept, member⟩ := disciplined.reference
    have split := perm_cons_erase member
    have accounts := sound.accounts.perm
      (((split.map Prod.snd).append_left system.creators).trans perm_middle)
    obtain ⟨after, dropped, left⟩ := accounts.dereference
    refine ⟨{ system with
      manager := after
      references := system.references.erase (holder, body) }, ?_, left, sound.once, ?_⟩
    · rw [objectCall, kept]
      dsimp only
      rw [dropped]
      rfl
    · exact sound.holders.sublist (erase_sublist.map Prod.fst)
  | insertHandle body =>
    exact ⟨_, rfl, sound.withManager (sound.accounts.insertHandle room disciplined)⟩
  | referenceByHandle holder handle expectedType =>
    obtain ⟨status, found, after, done, accounts⟩ :=
      sound.accounts.referenceByHandle room handle expectedType
    refine ⟨_, ?_, sound.note disciplined found accounts⟩
    rw [objectCall, done]
    rfl
  | lookup holder name =>
    have answered := sound.accounts.lookup room name
    refine ⟨_, ?_, sound.note disciplined _ answered⟩
    rw [objectCall]
  | close handle =>
    obtain ⟨status, after, done, accounts⟩ := sound.accounts.closeHandle handle
    refine ⟨_, ?_, sound.withManager accounts⟩
    rw [objectCall, done]
    rfl

/-- A run of calls ends where `ASSERT` fails. -/
def objectStep (system : ObjectSystem) (call : ObjectCall) : Option ObjectSystem :=
  (objectCall system call).toOption

theorem count_handles (manager : ObjectManager) (body : Address) :
    manager.handles.count body = manager.slotsHolding body := by
  rw [ObjectManager.handles, occupants, count_filterMap, countP_eq_length_filter,
    ObjectManager.slotsHolding]
  apply congrArg List.length
  apply filter_congr
  exact fun slot _ => beq_eq_decide _ _

theorem count_references (system : ObjectSystem) (body : Address) :
    (system.references.map Prod.snd).count body = system.outstanding body := by
  rw [count_eq_countP, countP_map, countP_eq_length_filter]
  rfl

theorem countP_handles (manager : ObjectManager) (type : Nat) :
    manager.handles.countP (manager.typed type) =
      ((range obpHandleTableSize).filter fun slot =>
        (manager.handleTable slot).any fun body =>
          (manager.headers body).type = some type).length := by
  rw [ObjectManager.handles, occupants, countP_filterMap, countP_eq_length_filter]
  congr 2
  funext slot
  cases manager.handleTable slot <;> rfl

/-- Sound objects are accounted for. -/
theorem ObjectSystem.Sound.accounted (sound : system.Sound) : Accounted system := by
  have accounts := sound.accounts
  have references : ∀ body, system.held.count body =
      (if body ∈ system.creators then 1 else 0) + system.outstanding body := by
    intro body
    rw [held, count_append, count_references, sound.once.count]
  constructor
  · intro body live
    rw [accounts.handleCount body live, count_handles]
  · intro body live
    rw [accounts.pointerCount body live, count_handles, references]
    split
    · push_cast
      omega
    · push_cast
      omega
  · intro body live
    have positive := accounts.alive body live
    rw [accounts.pointerCount body live]
    omega
  · intro body some
    rw [← count_handles] at some
    exact accounts.slotsLive body (count_pos_iff.mp some)
  · exact fun body member => accounts.heldLive body (mem_append_left _ member)
  · intro body some
    rw [← count_references] at some
    exact accounts.heldLive body (mem_append_right _ (count_pos_iff.mp some))
  · exact accounts.deletedAtZero
  · exact accounts.deletedOnce
  · intro type
    rw [accounts.totalObjects, countP_eq_length_filter]
    rfl
  · intro type
    rw [accounts.totalHandles, countP_handles]

/-- The counts are right after every sequence of calls in which holders drop what
they took, and no such call runs into `ASSERT`. -/
theorem objects_accounted (memory : Address → ObjectHeader) (deleteProcedures : Nat → Bool)
    (system : ObjectSystem)
    (run : Reaches objectStep Disciplined (init memory deleteProcedures) system) :
    Accounted system ∧
      ∀ call, Disciplined system call → ∃ next, objectCall system call = .ok next := by
  have sound : system.Sound := run.invariant (init_sound memory deleteProcedures)
    (fun before call after sound disciplined done => by
      obtain ⟨next, ok, kept⟩ := sound.call disciplined
      rw [objectStep, ok] at done
      cases done
      exact kept)
  refine ⟨sound.accounted, fun call disciplined => ?_⟩
  obtain ⟨next, ok, _⟩ := sound.call disciplined
  exact ⟨next, ok⟩

/-- Memory of zeros. -/
def zeroed : Address → ObjectHeader := fun _ => ⟨0, 0, none, [], 0⟩

/-- A holder's reference outlasts the creator's and is the last one. -/
theorem objects_accounted_oneObject : ∃ system,
    system.manager.deletions = [⟨0, 0, true⟩] ∧ Accounted system := by
  have initial : Reaches objectStep Disciplined (init zeroed fun _ => true) _ := .start
  have fresh : Disciplined (init zeroed fun _ => true) (.create (some 0) [0x61#16] (some 8#64)) :=
    fun body same => by
      cases same
      exact ⟨by decide, not_mem_nil⟩
  have created := initial.step fresh rfl
  have referenced := created.step (show Disciplined _ (.reference 5#61 8#64) from
    ⟨mem_cons_self, not_mem_nil⟩) rfl
  have left := referenced.step (show Disciplined _ (.dereferenceCreated 8#64) from
    mem_cons_self) rfl
  have deleted := left.step (show Disciplined _ (.dereference 5#61) from
    mem_cons_self) rfl
  exact ⟨_, rfl, (objects_accounted zeroed _ _ deleted).1⟩

end MinNT.Ob
