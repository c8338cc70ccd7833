import MinNT.Se.ScmService

namespace MinNT.Scm

/-- A start that is about to create a thread, or to give up, for a service. -/
def Phase.Owns : Phase → Nat → Prop
  | .startCreate svc, other => other = svc
  | .startFailed svc _, other => other = svc
  | _, _ => False

/-- A thread that is to go into the `StartRoutine` of a service, or is inside. -/
def HostThread.Owns : HostThread → Nat → Prop
  | .created svc, other => other = svc
  | .inside svc, other => other = svc
  | _, _ => False

/-- A call in front of the release of the lock. -/
def Phase.Holds : Phase → Prop
  | .startTested _ => True
  | .stopTested _ => True
  | _ => False

inductive Owner where
  | call (id : Nat)
  | thread (id : Nat)
deriving DecidableEq

def State.Owns (s : State) (svc : Nat) : Owner → Prop
  | .call id => (s.callers id).phase.Owns svc
  | .thread id => (s.threads id).Owns svc

def State.Hosted (s : State) (svc : Nat) : Prop := ∃ owner, s.Owns svc owner

theorem State.owns_store (s : State) (svc : Nat) (value : ServiceState) :
    (s.store svc value).Owns = s.Owns := rfl

theorem State.currentState_store (s : State) (svc : Nat) (value : ServiceState) (other : Nat) :
    (s.store svc value).currentState other =
      if other = svc then value else s.currentState other := by
  by_cases same : other = svc
  · simp [State.currentState, State.store, same]
  · simp [State.currentState, State.store, same]

@[simp] theorem State.currentState_setCaller (s : State) (id : Nat) (caller : Caller) :
    (s.setCaller id caller).currentState = s.currentState := rfl

theorem State.callers_setCaller (s : State) (id : Nat) (caller : Caller) (other : Nat) :
    (s.setCaller id caller).callers other = if other = id then caller else s.callers other := by
  simp only [State.setCaller, Function.update_apply]

theorem State.threads_setThread (s : State) (id : Nat) (thread : HostThread) (other : Nat) :
    (s.setThread id thread).threads other = if other = id then thread else s.threads other := by
  simp only [State.setThread, Function.update_apply]

theorem State.owns_setCaller (s : State) (id : Nat) (caller : Caller) (svc : Nat)
    (owner : Owner) : (s.setCaller id caller).Owns svc owner ↔
      if owner = .call id then caller.phase.Owns svc else s.Owns svc owner := by
  cases owner with
  | call other =>
    simp only [State.Owns, State.callers_setCaller, Owner.call.injEq]
    split <;> exact Iff.rfl
  | thread other =>
    rw [if_neg Owner.noConfusion]
    exact Iff.rfl

theorem State.owns_setThread (s : State) (id : Nat) (thread : HostThread) (svc : Nat)
    (owner : Owner) : (s.setThread id thread).Owns svc owner ↔
      if owner = .thread id then thread.Owns svc else s.Owns svc owner := by
  cases owner with
  | thread other =>
    simp only [State.Owns, State.threads_setThread, Owner.thread.injEq]
    split <;> exact Iff.rfl
  | call other =>
    rw [if_neg Owner.noConfusion]
    exact Iff.rfl

section Tenancy

variable {owns owns' : Nat → Owner → Prop} {state state' : Nat → ServiceState}
  {svc : Nat} {owner : Owner} {value : ServiceState}

/-- A service has one host at most, none while it is stopped, and one while it runs. -/
structure Tenancy (owns : Nat → Owner → Prop) (state : Nat → ServiceState) : Prop where
  single : ∀ svc first second, owns svc first → owns svc second → first = second
  stopped : ∀ svc, state svc = .stopped → ¬ ∃ owner, owns svc owner
  running : ∀ svc, state svc = .running → ∃ owner, owns svc owner

theorem Tenancy.store (tenancy : Tenancy owns state)
    (states : ∀ other, state' other = if other = svc then value else state other)
    (stopped : value = .stopped → ¬ ∃ owner, owns svc owner)
    (running : value = .running → ∃ owner, owns svc owner) : Tenancy owns state' where
  single := tenancy.single
  stopped := by
    intro other
    rw [states]
    by_cases same : other = svc
    · rw [if_pos same, same]
      exact stopped
    · rw [if_neg same]
      exact tenancy.stopped other
  running := by
    intro other
    rw [states]
    by_cases same : other = svc
    · rw [if_pos same, same]
      exact running
    · rw [if_neg same]
      exact tenancy.running other

theorem Tenancy.gain (svc : Nat) (owner : Owner) (tenancy : Tenancy owns state)
    (free : ¬ ∃ owner, owns svc owner) (pending : state svc ≠ .stopped)
    (owners : ∀ other who, owns' other who ↔ other = svc ∧ who = owner ∨ owns other who) :
    Tenancy owns' state where
  single := by
    intro other first second
    rw [owners, owners]
    rintro (⟨rfl, rfl⟩ | held) (⟨same, rfl⟩ | held')
    · rfl
    · exact absurd ⟨second, held'⟩ free
    · rw [same] at held
      exact absurd ⟨first, held⟩ free
    · exact tenancy.single other first second held held'
  stopped := by
    rintro other stopped ⟨who, hosts⟩
    rcases (owners other who).mp hosts with ⟨same, _⟩ | held
    · rw [same] at stopped
      exact pending stopped
    · exact tenancy.stopped other stopped ⟨who, held⟩
  running := by
    intro other running
    obtain ⟨who, held⟩ := tenancy.running other running
    exact ⟨who, (owners other who).mpr (.inr held)⟩

theorem Tenancy.lose (tenancy : Tenancy owns state) (hosts : owns svc owner)
    (only : ∀ other, owns other owner → other = svc)
    (owners : ∀ other who, owns' other who ↔ who ≠ owner ∧ owns other who)
    (states : ∀ other, state' other = if other = svc then .stopped else state other) :
    Tenancy owns' state' where
  single := by
    intro other first second
    rw [owners, owners]
    exact fun held held' => tenancy.single other first second held.2 held'.2
  stopped := by
    rintro other stopped ⟨who, held⟩
    rw [owners] at held
    by_cases same : other = svc
    · rw [same] at held
      exact held.1 (tenancy.single svc who owner held.2 hosts)
    · rw [states, if_neg same] at stopped
      exact tenancy.stopped other stopped ⟨who, held.2⟩
  running := by
    intro other running
    by_cases same : other = svc
    · rw [states, if_pos same] at running
      cases running
    · rw [states, if_neg same] at running
      obtain ⟨who, held⟩ := tenancy.running other running
      refine ⟨who, (owners other who).mpr ⟨?_, held⟩⟩
      intro leaves
      rw [leaves] at held
      exact same (only other held)

theorem Tenancy.transfer {heir : Owner} (tenancy : Tenancy owns state) (hosts : owns svc owner)
    (only : ∀ other, owns other owner → other = svc) (fresh : ∀ other, ¬ owns other heir)
    (owners : ∀ other who, owns' other who ↔
      other = svc ∧ who = heir ∨ who ≠ owner ∧ owns other who) : Tenancy owns' state where
  single := by
    intro other first second
    rw [owners, owners]
    rintro (⟨rfl, rfl⟩ | ⟨stays, held⟩) (⟨same, rfl⟩ | ⟨stays', held'⟩)
    · rfl
    · exact absurd (tenancy.single other second owner held' hosts) stays'
    · rw [same] at held
      exact absurd (tenancy.single svc first owner held hosts) stays
    · exact tenancy.single other first second held held'
  stopped := by
    rintro other stopped ⟨who, held⟩
    rcases (owners other who).mp held with ⟨same, _⟩ | ⟨_, old⟩
    · rw [same] at stopped
      exact tenancy.stopped svc stopped ⟨owner, hosts⟩
    · exact tenancy.stopped other stopped ⟨who, old⟩
  running := by
    intro other running
    obtain ⟨who, held⟩ := tenancy.running other running
    by_cases leaves : who = owner
    · rw [leaves] at held
      exact ⟨heir, (owners other heir).mpr (.inl ⟨only other held, rfl⟩)⟩
    · exact ⟨who, (owners other who).mpr (.inr ⟨leaves, held⟩)⟩

end Tenancy

/-- The lock is with the call that tested a state, and what that call found holds until
it stores the next state. -/
structure Hosting (s : State) : Prop where
  holder : ∀ id, (s.callers id).phase.Holds → s.lock = some id
  tested : ∀ id svc, (s.callers id).phase = .startTested svc → ¬ s.Hosted svc
  tenancy : Tenancy s.Owns s.currentState
  fresh : ∀ id, s.threadCount ≤ id → s.threads id = .absent

/-- The late stores are made in time: `SERVICE_RUNNING` while the service has a host,
`SERVICE_STOPPED` behind the grace period while it has none. -/
def InTime (s : State) : Action → Prop
  | .advance id =>
      match (s.callers id).phase with
      | .startSet svc => s.Hosted svc
      | .stopSet svc => ¬ s.Hosted svc
      | _ => True
  | _ => True

variable {s : State} {id : Nat} {caller : Caller} {phase : Phase}

theorem Hosting.store (hosting : Hosting s) {svc : Nat} {value : ServiceState}
    (stopped : value = .stopped → ¬ s.Hosted svc) (running : value = .running → s.Hosted svc) :
    Hosting (s.store svc value) :=
  ⟨hosting.holder, hosting.tested,
    hosting.tenancy.store (s.currentState_store svc value) stopped running, hosting.fresh⟩

/-- What a caller hosts at a phase, it hosts at the next one. -/
def SameOwner (s : State) (id : Nat) (phase : Phase) : Prop :=
  ∀ svc, phase.Owns svc ↔ (s.callers id).phase.Owns svc

theorem owns_setCaller_same
    (same : SameOwner s id caller.phase) : (s.setCaller id caller).Owns = s.Owns := by
  funext svc owner
  refine propext ((s.owns_setCaller id caller svc owner).trans ?_)
  by_cases mine : owner = .call id
  · rw [if_pos mine, mine]
    exact same svc
  · rw [if_neg mine]

theorem Hosting.move (hosting : Hosting s) (lock : Option Nat) (same : SameOwner s id caller.phase)
    (mine : caller.phase.Holds → lock = some id)
    (others : ∀ other, other ≠ id → (s.callers other).phase.Holds → lock = some other)
    (tested : ∀ svc, caller.phase = .startTested svc → ¬ s.Hosted svc) :
    Hosting ({ s with lock := lock }.setCaller id caller) := by
  have sameOwners : ({ s with lock := lock }.setCaller id caller).Owns = s.Owns :=
    owns_setCaller_same same
  constructor
  · intro other
    rw [State.callers_setCaller]
    by_cases here : other = id
    · rw [if_pos here, here]
      exact mine
    · rw [if_neg here]
      exact others other here
  · intro other svc
    rw [State.callers_setCaller, State.Hosted, sameOwners]
    by_cases here : other = id
    · rw [if_pos here]
      exact tested svc
    · rw [if_neg here]
      exact hosting.tested other svc
  · rw [sameOwners]
    exact hosting.tenancy
  · exact hosting.fresh

theorem not_tested (unlocked : ¬ phase.Holds) (svc : Nat) : phase ≠ .startTested svc := by
  intro tested
  rw [tested] at unlocked
  exact unlocked trivial

theorem holds_of_tested {svc : Nat} (tested : phase = .startTested svc) : phase.Holds := by
  rw [tested]
  exact trivial

theorem callers_of_holds {id other : Nat} (unlocked : ¬ caller.phase.Holds)
    (holds : ((s.setCaller id caller).callers other).phase.Holds) :
    (s.setCaller id caller).callers other = s.callers other := by
  rw [State.callers_setCaller] at holds ⊢
  by_cases same : other = id
  · rw [if_pos same] at holds
    exact absurd holds unlocked
  · rw [if_neg same]

section Hosting

variable (hosting : Hosting s)
include hosting

theorem Hosting.setCaller (same : SameOwner s id caller.phase) (unlocked : ¬ caller.phase.Holds) :
    Hosting (s.setCaller id caller) :=
  hosting.move s.lock same (absurd · unlocked) (fun other _ => hosting.holder other)
    (fun svc tested => absurd tested (not_tested unlocked svc))

theorem Hosting.acquire (free : s.lock = none) (same : SameOwner s id caller.phase)
    (tested : ∀ svc, caller.phase = .startTested svc → ¬ s.Hosted svc) :
    Hosting ({ s with lock := some id }.setCaller id caller) := by
  refine hosting.move (some id) same (fun _ => rfl) ?_ tested
  intro other _ holds
  have held := hosting.holder other holds
  rw [free] at held
  cases held

theorem Hosting.unlocked {id other : Nat} (held : (s.callers id).phase.Holds)
    (different : other ≠ id) : ¬ (s.callers other).phase.Holds := by
  intro holds
  have mine := hosting.holder id held
  rw [hosting.holder other holds] at mine
  exact different (Option.some.inj mine)

theorem Hosting.release (held : (s.callers id).phase.Holds) (same : SameOwner s id caller.phase)
    (unlocked : ¬ caller.phase.Holds) : Hosting ({ s with lock := none }.setCaller id caller) :=
  hosting.move none same (absurd · unlocked)
    (fun _ different holds => absurd holds (hosting.unlocked held different))
    (fun svc tested => absurd tested (not_tested unlocked svc))

theorem Hosting.gain {id svc : Nat} {auto : Option (Nat × NtStatus)}
    (found : (s.callers id).phase = .startTested svc) :
    Hosting (({ s with lock := none }.store svc .startPending).setCaller id
      ⟨.startCreate svc, auto⟩) := by
  have held : (s.callers id).phase.Holds := by rw [found]; exact trivial
  have free := hosting.tested id svc found
  have released : ∀ other, ¬ (if other = id then (⟨.startCreate svc, auto⟩ : Caller)
      else s.callers other).phase.Holds := by
    intro other
    by_cases same : other = id
    · rw [if_pos same]
      exact fun holds => holds
    · rw [if_neg same]
      exact hosting.unlocked held same
  constructor
  · intro other holds
    rw [State.callers_setCaller] at holds
    exact absurd holds (released other)
  · intro other later tested
    rw [State.callers_setCaller] at tested
    exact absurd tested (not_tested (released other) later)
  · have pending : Tenancy s.Owns ({ s with lock := none }.store svc .startPending).currentState :=
      hosting.tenancy.store (State.currentState_store _ svc _) (fun stops => by cases stops)
        (fun runs => by cases runs)
    refine pending.gain svc (.call id) free ?_ ?_
    · rw [State.currentState_setCaller, State.currentState_store, if_pos rfl]
      exact ServiceState.noConfusion
    · intro other who
      rw [State.owns_setCaller]
      by_cases mine : who = .call id
      · rw [if_pos mine]
        have none : ¬ s.Owns other who := by
          rw [mine, State.Owns, found]
          exact fun owns => owns
        constructor
        · exact fun same => .inl ⟨same, mine⟩
        · rintro (⟨same, _⟩ | held)
          · exact same
          · exact absurd held none
      · rw [if_neg mine]
        constructor
        · exact .inr
        · rintro (⟨_, same⟩ | held)
          · exact absurd same mine
          · exact held
  · exact hosting.fresh

end Hosting

/-- The host of a service is one start that is about to create a thread or to give up,
or one thread. -/
theorem phase_owns_unique {first second : Nat} (one : phase.Owns first)
    (two : phase.Owns second) : second = first := by
  cases phase with
  | startCreate svc => exact two.trans one.symm
  | startFailed svc status => exact two.trans one.symm
  | _ => exact absurd one (fun owns => owns)

theorem thread_owns_unique {thread : HostThread} {first second : Nat} (one : thread.Owns first)
    (two : thread.Owns second) : second = first := by
  cases thread with
  | created svc => exact two.trans one.symm
  | inside svc => exact two.trans one.symm
  | _ => exact absurd one (fun owns => owns)

/-- The thread of a new host comes with its service. -/
theorem Hosting.create (hosting : Hosting s) {id svc : Nat}
    (creates : (s.callers id).phase = .startCreate svc) (quiet : ∀ svc, ¬ caller.phase.Owns svc)
    (unlocked : ¬ caller.phase.Holds) :
    Hosting (({ s with threadCount := s.threadCount + 1 }.setThread s.threadCount
      (.created svc)).setCaller id caller) := by
  have hosts : s.Owns svc (.call id) := by
    rw [State.Owns, creates]
    exact rfl
  have absent : s.threads s.threadCount = .absent := hosting.fresh _ (Nat.le_refl _)
  have owners : ∀ other who, (({ s with threadCount := s.threadCount + 1 }.setThread s.threadCount
      (.created svc)).setCaller id caller).Owns other who ↔
      other = svc ∧ who = .thread s.threadCount ∨ who ≠ .call id ∧ s.Owns other who := by
    intro other who
    rw [State.owns_setCaller]
    by_cases mine : who = .call id
    · rw [if_pos mine, mine]
      simp [quiet other]
    rw [if_neg mine, State.owns_setThread]
    by_cases new : who = .thread s.threadCount
    · have none : ¬ s.Owns other (.thread s.threadCount) := by
        rw [State.Owns, absent]
        exact fun owns => owns
      rw [if_pos new, new]
      simp only [HostThread.Owns, and_true, none, and_false, or_false]
    · rw [if_neg new]
      simp only [new, and_false, false_or, ne_eq, mine, not_false_eq_true, true_and]
      exact Iff.rfl
  constructor
  · intro other holds
    rw [callers_of_holds unlocked holds] at holds
    exact hosting.holder other holds
  · intro other later tested
    rw [callers_of_holds unlocked (holds_of_tested tested)] at tested
    rintro ⟨who, held⟩
    rw [owners] at held
    rcases held with ⟨here, _⟩ | ⟨_, old⟩
    · rw [here] at tested
      exact hosting.tested other svc tested ⟨.call id, hosts⟩
    · exact hosting.tested other later tested ⟨who, old⟩
  · refine hosting.tenancy.transfer hosts (fun other => phase_owns_unique hosts) ?_ owners
    intro other owns
    rw [State.Owns, absent] at owns
    exact owns
  · intro other beyond
    have behind : s.threadCount + 1 ≤ other := beyond
    show (State.setThread _ _ _).threads other = _
    rw [State.threads_setThread, if_neg (by omega)]
    exact hosting.fresh other (by omega)

theorem Hosting.giveUp (hosting : Hosting s) {id svc : Nat} {status : NtStatus}
    (failed : (s.callers id).phase = .startFailed svc status)
    (quiet : ∀ svc, ¬ caller.phase.Owns svc) (unlocked : ¬ caller.phase.Holds) :
    Hosting ((s.store svc .stopped).setCaller id caller) := by
  have hosts : s.Owns svc (.call id) := by
    rw [State.Owns, failed]
    exact rfl
  have owners : ∀ other who, ((s.store svc .stopped).setCaller id caller).Owns other who ↔
      who ≠ .call id ∧ s.Owns other who := by
    intro other who
    rw [State.owns_setCaller]
    by_cases mine : who = .call id
    · simp [mine, quiet other]
    · rw [if_neg mine, State.owns_store]
      exact (and_iff_right mine).symm
  constructor
  · intro other holds
    rw [callers_of_holds unlocked holds] at holds
    exact hosting.holder other holds
  · intro other later tested
    rw [callers_of_holds unlocked (holds_of_tested tested)] at tested
    rintro ⟨who, held⟩
    exact hosting.tested other later tested ⟨who, ((owners later who).mp held).2⟩
  · exact hosting.tenancy.lose hosts (fun other => phase_owns_unique hosts) owners
      (s.currentState_store svc .stopped)
  · exact hosting.fresh

/-- A created thread enters its service. -/
theorem Hosting.enter (hosting : Hosting s) {thread svc : Nat}
    (created : s.threads thread = .created svc) :
    Hosting ((s.store svc .startPending).setThread thread (.inside svc)) := by
  have same : ((s.store svc .startPending).setThread thread (.inside svc)).Owns = s.Owns := by
    funext other who
    refine propext ((State.owns_setThread _ _ _ other who).trans ?_)
    by_cases mine : who = .thread thread
    · rw [if_pos mine, mine, State.Owns, created]
      exact Iff.rfl
    · rw [if_neg mine, State.owns_store]
  have stored : Hosting (s.store svc .startPending) :=
    hosting.store (fun stops => by cases stops) (fun runs => by cases runs)
  refine ⟨stored.holder, fun other later tested => ?_, ?_, fun other beyond => ?_⟩
  · rw [State.Hosted, same]
    exact hosting.tested other later tested
  · rw [same]
    exact stored.tenancy
  · rw [State.threads_setThread]
    have absent := hosting.fresh other beyond
    by_cases here : other = thread
    · rw [here, created] at absent
      cases absent
    · rw [if_neg here]
      exact absent

/-- A thread leaves its service and ends. -/
theorem Hosting.leave (hosting : Hosting s) {thread svc : Nat}
    (inside : s.threads thread = .inside svc) :
    Hosting ((s.store svc .stopped).setThread thread (.exited svc)) := by
  have hosts : s.Owns svc (.thread thread) := by
    rw [State.Owns, inside]
    exact rfl
  have owners : ∀ other who, ((s.store svc .stopped).setThread thread (.exited svc)).Owns other
      who ↔ who ≠ .thread thread ∧ s.Owns other who := by
    intro other who
    rw [State.owns_setThread]
    by_cases mine : who = .thread thread
    · simp [mine, HostThread.Owns]
    · rw [if_neg mine, State.owns_store]
      exact (and_iff_right mine).symm
  constructor
  · exact hosting.holder
  · rintro other later tested ⟨who, held⟩
    exact hosting.tested other later tested ⟨who, ((owners later who).mp held).2⟩
  · exact hosting.tenancy.lose hosts (fun other => thread_owns_unique hosts) owners
      (s.currentState_store svc .stopped)
  · intro other beyond
    rw [State.threads_setThread]
    have absent := hosting.fresh other beyond
    by_cases here : other = thread
    · rw [here, inside] at absent
      cases absent
    · rw [if_neg here]
      exact absent

theorem finish_quiet (caller : Caller) (status : NtStatus) :
    (∀ svc, ¬ (caller.finish status).phase.Owns svc) ∧ ¬ (caller.finish status).phase.Holds := by
  unfold Caller.finish
  split
  · exact ⟨fun _ owns => owns, fun holds => holds⟩
  · exact ⟨fun _ owns => owns, fun holds => holds⟩

theorem Hosting.finish (hosting : Hosting s) (status : NtStatus)
    (before : ∀ svc, ¬ (s.callers id).phase.Owns svc) : Hosting (s.finish id status) := by
  obtain ⟨quiet, unlocked⟩ := finish_quiet (s.callers id) status
  exact hosting.setCaller (fun svc => iff_of_false (quiet svc) (before svc)) unlocked

theorem Hosting.beginStart {s next : State} (hosting : Hosting s) {name : List UInt8}
    (before : ∀ svc, ¬ (s.callers id).phase.Owns svc) (done : s.beginStart id name = some next) :
    Hosting next := by
  unfold State.beginStart at done
  split at done
  · cases done
  rename_i free
  cases found : s.find name with
  | none =>
    rw [found] at done
    cases done
    exact hosting.finish _ before
  | some svc =>
    rw [found] at done
    dsimp only at done
    split at done
    · cases done
      exact hosting.finish _ before
    · rename_i stopped
      cases done
      refine hosting.acquire (not_not.mp free)
        (fun other => iff_of_false (fun owns => owns) (before other)) ?_
      intro other same
      cases same
      exact hosting.tenancy.stopped svc (not_not.mp stopped)

theorem Hosting.beginStop {s next : State} (hosting : Hosting s) {name : List UInt8}
    (before : ∀ svc, ¬ (s.callers id).phase.Owns svc) (done : s.beginStop id name = some next) :
    Hosting next := by
  unfold State.beginStop at done
  split at done
  · cases done
  rename_i free
  cases found : s.find name with
  | none =>
    rw [found] at done
    cases done
    exact hosting.finish _ before
  | some svc =>
    rw [found] at done
    dsimp only at done
    split at done
    · cases done
      exact hosting.finish _ before
    · cases done
      refine hosting.acquire (not_not.mp free)
        (fun other => iff_of_false (fun owns => owns) (before other)) ?_
      intro other same
      cases same

theorem Hosting.goto (hosting : Hosting s) (before : ∀ svc, ¬ (s.callers id).phase.Owns svc)
    (after : ∀ svc, ¬ phase.Owns svc) (unlocked : ¬ phase.Holds) : Hosting (s.goto id phase) :=
  hosting.setCaller (fun svc => iff_of_false (after svc) (before svc)) unlocked

/-- A step of a caller in time keeps one host for each service. -/
theorem Hosting.advance {s next : State} (hosting : Hosting s)
    (inTime : InTime s (.advance id)) (done : s.advance id = some next) : Hosting next := by
  unfold State.advance at done
  dsimp only [InTime] at inTime
  have quiet : ∀ phase : Phase, (s.callers id).phase = phase → (∀ svc, ¬ phase.Owns svc) →
      ∀ svc, ¬ (s.callers id).phase.Owns svc := by
    intro phase here after svc
    rw [here]
    exact after svc
  cases here : (s.callers id).phase with
  | idle status =>
    rw [here] at done
    cases done
  | autoTest slot overall =>
    have before := quiet _ here (fun _ owns => owns)
    rw [here] at done
    simp only [State.testSlot] at done
    split at done
    · split at done
      · cases done
      split at done
      · cases done
        exact hosting.goto before (fun _ owns => owns) (fun holds => holds)
      · cases done
        exact hosting.goto before (fun _ owns => owns) (fun holds => holds)
    · cases done
      exact hosting.goto before (fun _ owns => owns) (fun holds => holds)
  | autoStart slot overall =>
    have before := quiet _ here (fun _ owns => owns)
    rw [here] at done
    have marked : Hosting (s.setCaller id ⟨.autoStart slot overall, some (slot, overall)⟩) :=
      hosting.setCaller (fun svc => iff_of_false (fun owns => owns) (before svc))
        (fun holds => holds)
    refine marked.beginStart ?_ done
    rw [State.callers_setCaller, if_pos rfl]
    exact fun _ owns => owns
  | startTested svc =>
    rw [here] at done
    cases done
    exact hosting.gain here
  | startCreate svc =>
    rw [here] at done
    cases done
  | startFailed svc status =>
    rw [here] at done
    cases done
    obtain ⟨after, unlocked⟩ := finish_quiet (s.callers id) status
    exact hosting.giveUp here after unlocked
  | startPoll svc ticks | stopPoll svc ticks =>
    have before := quiet _ here (fun _ owns => owns)
    rw [here] at done
    dsimp only at done
    split at done
    · cases done
      exact hosting.goto before (fun _ owns => owns) (fun holds => holds)
    · cases done
      exact hosting.goto before (fun _ owns => owns) (fun holds => holds)
  | startCheck svc | stopCheck svc =>
    have before := quiet _ here (fun _ owns => owns)
    rw [here] at done
    dsimp only at done
    split at done
    · cases done
      exact hosting.goto before (fun _ owns => owns) (fun holds => holds)
    · cases done
      exact hosting.finish _ before
  | startSet svc =>
    have before := quiet _ here (fun _ owns => owns)
    rw [here] at done inTime
    cases done
    exact (hosting.store (fun stops => by cases stops) (fun _ => inTime)).finish _ before
  | stopTested svc =>
    have before := quiet _ here (fun _ owns => owns)
    have held : (s.callers id).phase.Holds := by
      rw [here]
      exact trivial
    rw [here] at done
    cases done
    have stored : Hosting (s.store svc .stopPending) :=
      hosting.store (fun stops => by cases stops) (fun runs => by cases runs)
    exact stored.release held (fun other => iff_of_false (fun owns => owns) (before other))
      (fun holds => holds)
  | stopSet svc =>
    have before := quiet _ here (fun _ owns => owns)
    rw [here] at done inTime
    cases done
    exact (hosting.store (fun _ => inTime) (fun runs => by cases runs)).finish _ before

theorem State.idle_quiet (idle : s.isIdle id = true) : ∀ svc, ¬ (s.callers id).phase.Owns svc := by
  intro svc owns
  unfold State.isIdle at idle
  cases here : (s.callers id).phase with
  | idle status =>
    rw [here] at owns
    exact owns
  | _ =>
    rw [here] at idle
    cases idle

/-- One step in time keeps one host for each service. -/
theorem Hosting.step {s next : State} {action : Action} (hosting : Hosting s)
    (inTime : InTime s action) (done : step s action = some next) : Hosting next := by
  cases action with
  | start id name =>
    simp only [Scm.step] at done
    split at done
    · rename_i idle
      exact hosting.beginStart (State.idle_quiet idle) done
    · cases done
  | stop id name =>
    simp only [Scm.step] at done
    split at done
    · rename_i idle
      exact hosting.beginStop (State.idle_quiet idle) done
    · cases done
  | autoStart id =>
    simp only [Scm.step] at done
    split at done
    · rename_i idle
      cases done
      exact hosting.goto (State.idle_quiet idle) (fun _ owns => owns) (fun holds => holds)
    · cases done
  | advance id => exact hosting.advance inTime done
  | create id status =>
    simp only [Scm.step, State.create] at done
    cases here : (s.callers id).phase with
    | startCreate svc =>
      rw [here] at done
      dsimp only at done
      split at done
      · cases done
        exact hosting.create here (fun _ owns => owns) (fun holds => holds)
      · cases done
        refine hosting.setCaller (fun other => ?_) (fun holds => holds)
        rw [here]
        exact Iff.rfl
    | _ =>
      rw [here] at done
      cases done
  | enter thread =>
    simp only [Scm.step, State.enter] at done
    cases here : s.threads thread with
    | created svc =>
      rw [here] at done
      cases done
      exact hosting.enter here
    | _ =>
      rw [here] at done
      cases done
  | leave thread =>
    simp only [Scm.step, State.leave] at done
    cases here : s.threads thread with
    | inside svc =>
      rw [here] at done
      cases done
      exact hosting.leave here
    | _ =>
      rw [here] at done
      cases done

theorem Hosting.registered (services : Nat → Service) : Hosting (State.registered services) where
  holder := fun _ holds => absurd holds (fun holds => holds)
  tested := fun _ _ tested => by cases tested
  tenancy := by
    have none : ∀ svc, ¬ ∃ owner, (State.registered services).Owns svc owner := by
      rintro svc ⟨who, owns⟩
      cases who with
      | call id => exact owns
      | thread id => exact owns
    refine ⟨fun svc first _ held => absurd ⟨first, held⟩ (none svc), fun svc _ => none svc, ?_⟩
    intro svc running
    cases running
  fresh := fun _ _ => rfl

end MinNT.Scm
