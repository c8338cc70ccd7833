import MinNT.Se.ScmInvariant

namespace MinNT.Scm

open State

/-- The service that a start or stop call in progress is about. -/
def Phase.service : Phase → Option Nat
  | .startTested svc | .startCreate svc | .startFailed svc _ | .startPoll svc _
  | .startCheck svc | .startSet svc | .stopTested svc | .stopPoll svc _
  | .stopCheck svc | .stopSet svc => some svc
  | .idle _ | .autoTest _ _ | .autoStart _ _ => none

/-- No two threads are inside a `StartRoutine`, none is while the service is stopped, and a
service whose threads have all returned does not run once the calls about it are over. -/
structure OneHost (s : State) (svc : Nat) : Prop where
  inside : ∀ first second, s.threads first = .inside svc → s.threads second = .inside svc →
    first = second
  stopped : s.currentState svc = .stopped → ∀ thread, s.threads thread ≠ .inside svc
  returned : (∀ thread, s.threads thread ≠ .created svc ∧ s.threads thread ≠ .inside svc) →
    (∀ id, (s.callers id).phase.service ≠ some svc) → s.currentState svc ≠ .running

/-- The invariant gives one host. -/
theorem Hosting.oneHost {s : State} (hosting : Hosting s) (svc : Nat) : OneHost s svc where
  inside := by
    intro first second one two
    have firstOwns : s.Owns svc (.thread first) := by
      rw [State.Owns, one]
      exact rfl
    have secondOwns : s.Owns svc (.thread second) := by
      rw [State.Owns, two]
      exact rfl
    exact Owner.thread.inj (hosting.tenancy.single svc _ _ firstOwns secondOwns)
  stopped := by
    intro stopped thread inside
    refine hosting.tenancy.stopped svc stopped ⟨.thread thread, ?_⟩
    rw [State.Owns, inside]
    exact rfl
  returned := by
    intro threads calls running
    obtain ⟨owner, owns⟩ := hosting.tenancy.running svc running
    cases owner with
    | call id =>
      have ended := calls id
      rw [State.Owns] at owns
      cases here : (s.callers id).phase with
      | startCreate other | startFailed other status =>
        rw [here] at owns ended
        exact ended (congrArg some owns.symm)
      | _ =>
        rw [here] at owns
        exact owns
    | thread id =>
      obtain ⟨notCreated, notInside⟩ := threads id
      rw [State.Owns] at owns
      cases here : s.threads id with
      | created other =>
        rw [here] at owns notCreated
        exact notCreated (congrArg HostThread.created owns.symm)
      | inside other =>
        rw [here] at owns notInside
        exact notInside (congrArg HostThread.inside owns.symm)
      | _ =>
        rw [here] at owns
        exact owns

/-- As long as no start stores `SERVICE_RUNNING` for a service without a host and no stop
stores `SERVICE_STOPPED` for one with a host, a service has one host at most. -/
theorem oneHost_of_inTime {services : Nat → Service} {s : State}
    (run : Transition.Reaches step InTime (registered services) s) (svc : Nat) : OneHost s svc := by
  have hosting : Hosting s :=
    run.invariant (Hosting.registered services) fun _ _ _ hosting inTime done =>
      hosting.step inTime done
  exact hosting.oneHost svc

/-- One service with a name of one letter. -/
def spooler : Nat → Service := fun svc => ⟨[0x41], serviceAutoStart, .stopped, svc == 0⟩

/-- `ScmAutoStart` starts a service; its thread goes into the `StartRoutine` and returns. -/
theorem oneHost_of_inTime_spooler : ∃ s,
    Transition.runFrom step (registered spooler) [.autoStart 0, .advance 0, .advance 0,
      .advance 0, .create 0 statusSuccess, .enter 0, .leave 0] = some s ∧
    s.threads 0 = .exited 0 ∧ OneHost s 0 := by
  refine ⟨_, rfl, rfl, @oneHost_of_inTime spooler _ ?_ 0⟩
  have started : Transition.Reaches step InTime (registered spooler) (registered spooler) := .start
  have called := started.step (show InTime _ (.autoStart 0) from trivial) rfl
  have tested := called.step (show InTime _ (.advance 0) from trivial) rfl
  have found := tested.step (show InTime _ (.advance 0) from trivial) rfl
  have pending := found.step (show InTime _ (.advance 0) from trivial) rfl
  have created := pending.step (show InTime _ (.create 0 statusSuccess) from trivial) rfl
  have inside := created.step (show InTime _ (.enter 0) from trivial) rfl
  exact inside.step (show InTime _ (.leave 0) from trivial) rfl

theorem State.goto_goto (s : State) (id : Nat) (first second : Phase) :
    (s.goto id first).goto id second = s.goto id second := by
  simp [goto, setCaller]

theorem State.goto_phase (s : State) (id : Nat) (phase : Phase) :
    ((s.goto id phase).callers id).phase = phase := by
  simp [goto, setCaller]

theorem polls {s : State} {id limit : Nat} {phase : Nat → Phase}
    (poll : ∀ ticks < limit, (s.goto id (phase ticks)).advance id =
      some (s.goto id (phase (ticks + 1)))) :
    Transition.runFrom step (s.goto id (phase 0)) (List.replicate limit (.advance id)) =
      some (s.goto id (phase limit)) := by
  induction limit with
  | zero => rfl
  | succ limit ih =>
    rw [List.replicate_succ', Transition.runFrom_append,
      ih (fun ticks less => poll ticks (Nat.lt_succ_of_lt less))]
    simp only [Option.bind_some, Transition.runFrom_cons, step, poll limit (Nat.lt_succ_self _)]
    rfl

theorem stop_polls {s : State} {id svc : Nat} (alive : s.currentState svc ≠ .stopped) :
    Transition.runFrom step (s.goto id (.stopPoll svc 0)) (List.replicate 1000 (.advance id)) =
      some (s.goto id (.stopPoll svc 1000)) := by
  refine @polls s id 1000 (.stopPoll svc) fun ticks less => ?_
  rw [advance, goto_phase]
  dsimp only
  rw [if_pos ⟨less, alive⟩, goto_goto]

theorem start_polls {s : State} {id svc : Nat} (pending : s.currentState svc ≠ .running) :
    Transition.runFrom step (s.goto id (.startPoll svc 0)) (List.replicate 100 (.advance id)) =
      some (s.goto id (.startPoll svc 100)) := by
  refine @polls s id 100 (.startPoll svc) fun ticks less => ?_
  rw [advance, goto_phase]
  dsimp only
  rw [if_pos ⟨less, pending⟩, goto_goto]

/-- A thread of the service is inside the `StartRoutine`, and a stop finds the service not
stopped. -/
def stopBegun : List Action :=
  [.start 0 [0x41], .advance 0, .create 0 statusSuccess, .enter 0, .stop 1 [0x41]]

/-- The state behind the first store of that stop. -/
def stopPolls : State :=
  let found := (Transition.runFrom step (registered spooler) stopBegun).getD
    (registered spooler)
  { found with lock := none }.store 0 .stopPending

/-- A start of the service that has just stored `SERVICE_START_PENDING`. -/
def startPolls : State :=
  let pending := (Transition.runFrom step (registered spooler)
    [.start 0 [0x41], .advance 0]).getD (registered spooler)
  { pending with threadCount := 1 }.setThread 0 (.created 0)

/-- A `StartRoutine` outlives the grace period of a stop: the service is stopped with a thread
inside, and the next start brings in a second one. A `StartRoutine` returns between the last
test and the last store of its start: the service runs without a thread. -/
theorem not_oneHost : (∃ s,
    Transition.runFrom step (registered spooler)
      (stopBegun ++ [.advance 1] ++ List.replicate 1000 (.advance 1) ++
        [.advance 1, .advance 1, .advance 1, .start 2 [0x41], .advance 2,
          .create 2 statusSuccess, .enter 1]) = some s ∧
    s.threads 0 = .inside 0 ∧ s.threads 1 = .inside 0 ∧ ¬ OneHost s 0) ∧
    ∃ s, Transition.runFrom step (registered spooler)
      ([.start 0 [0x41], .advance 0, .create 0 statusSuccess] ++
        List.replicate 100 (.advance 0) ++
        [.enter 0, .advance 0, .advance 0, .leave 0, .advance 0]) = some s ∧
    s.threads 0 = .exited 0 ∧ (s.callers 0).phase = .idle statusSuccess ∧
    s.currentState 0 = .running := by
  have started : Transition.runFrom step (registered spooler)
      [.start 0 [0x41], .advance 0, .create 0 statusSuccess] =
      some (startPolls.goto 0 (.startPoll 0 0)) := rfl
  have pending : startPolls.currentState 0 ≠ .running := by decide
  have begun : Transition.runFrom step (registered spooler) (stopBegun ++ [.advance 1]) =
      some (stopPolls.goto 1 (.stopPoll 0 0)) := rfl
  have alive : stopPolls.currentState 0 ≠ .stopped := by decide
  rw [Transition.runFrom_append, Transition.runFrom_append, begun, Option.bind_some,
    stop_polls alive, Option.bind_some, Transition.runFrom_append, Transition.runFrom_append,
    started, Option.bind_some, start_polls pending, Option.bind_some]
  have two : (Transition.runFrom step (stopPolls.goto 1 (.stopPoll 0 1000))
      [.advance 1, .advance 1, .advance 1, .start 2 [0x41], .advance 2, .create 2 statusSuccess,
        .enter 1]).map (fun s => (s.threads 0, s.threads 1)) = some (.inside 0, .inside 0) := by
    decide +kernel
  have none : (Transition.runFrom step (startPolls.goto 0 (.startPoll 0 100))
      [.enter 0, .advance 0, .advance 0, .leave 0, .advance 0]).map (fun s =>
        (s.threads 0, (s.callers 0).phase, s.currentState 0)) =
      some (.exited 0, .idle statusSuccess, .running) := by
    decide +kernel
  obtain ⟨both, run, inside⟩ := Option.map_eq_some_iff.mp two
  obtain ⟨gone, run', left⟩ := Option.map_eq_some_iff.mp none
  simp only [Prod.mk.injEq] at inside left
  refine ⟨⟨both, run, inside.1, inside.2, fun host => ?_⟩, ⟨gone, run', left⟩⟩
  exact absurd (host.inside 0 1 inside.1 inside.2) (by decide)

end MinNT.Scm
