import MinNT.Ke.DispatcherRun

namespace MinNT.Ke

open List Function ListEntry

/-- The units of one semaphore by the history: what it started with, what was
released, what waits have taken, and what is left below the limit. -/
structure Account where
  initial : Int
  released : Int
  taken : Int
  left : Int
  limit : Int
deriving DecidableEq, Repr

def Account.take (account : Account) : Account :=
  { account with taken := account.taken + 1, left := account.left - 1 }

/-- A wait takes a unit when it finds the semaphore signaled, and when a release
wakes it. -/
def accountAfter (semaphore : Nat) (account : Account) : Event → Account
  | .semaphoreInitialized object count limit =>
      if object = semaphore then ⟨count, 0, 0, count, limit⟩ else account
  | .semaphoreReleased object adjustment =>
      if object = semaphore then
        { account with
          released := account.released + adjustment
          left := min (account.left + adjustment) account.limit }
      else account
  | .waitCalled _ object signaled =>
      if object = semaphore ∧ signaled = true then account.take else account
  | .woken object _ => if object = semaphore then account.take else account
  | _ => account

def accountOf (semaphore : Nat) (history : List Event) : Account :=
  history.foldl (accountAfter semaphore) ⟨0, 0, 0, 0, 0⟩

/-- No more units have been taken than there were, and `CurrentCount` is what is
left. -/
def UnitsConserved (dispatcher : Dispatcher) (history : List Event) (semaphore : Nat) : Prop :=
  (accountOf semaphore history).taken ≤
      (accountOf semaphore history).initial + (accountOf semaphore history).released ∧
    (dispatcher.objects semaphore).currentCount = (accountOf semaphore history).left

def Dispatcher.isSemaphore (dispatcher : Dispatcher) (object : Nat) : Prop :=
  object < dispatcher.objectCount ∧ (dispatcher.objects object).type = .semaphoreObject

/-- Calls that take no unit of the semaphore: no wait finds it signaled and no
release finds a waiter. Counts and adjustments are not negative and do not
overflow a `LONG`. -/
def TakesNothing (semaphore : Nat) (dispatcher : Dispatcher) : Call → Prop
  | .initializeSemaphore count _ => 0 ≤ count.toInt
  | .waitForSingleObject object _ =>
      object = semaphore → (dispatcher.objects object).signalState = 0
  | .releaseSemaphore object adjustment => object = semaphore → 0 ≤ adjustment.toInt ∧
      (dispatcher.objects object).currentCount + adjustment.toInt < 2 ^ 31 ∧
      (adjustment.toInt = 0 ∨ isListEmpty dispatcher.links (.object object) = true)
  | _ => True

instance (semaphore : Nat) (dispatcher : Dispatcher) (call : Call) :
    Decidable (TakesNothing semaphore dispatcher call) :=
  match call with
  | .initializeSemaphore count _ => inferInstanceAs (Decidable (0 ≤ count.toInt))
  | .waitForSingleObject object _ => inferInstanceAs (Decidable (object = semaphore → _))
  | .releaseSemaphore object _ => inferInstanceAs (Decidable (object = semaphore → _ ∧ _ ∧ _))
  | .createThread | .exitThread | .dispatchNext | .initializeEvent _ _ | .initializeMutex
  | .setEvent _ | .resetEvent _ | .releaseMutex _ | .waitThread _ | .wakeThread _ _ =>
      .isTrue trivial

structure SemaphoreInv (dispatcher : Dispatcher) (history : List Event) (semaphore : Nat) : Prop
    where
  taken : (accountOf semaphore history).taken = 0
  initial : 0 ≤ (accountOf semaphore history).initial
  released : 0 ≤ (accountOf semaphore history).released
  count : (dispatcher.objects semaphore).currentCount = (accountOf semaphore history).left
  limit : (dispatcher.objects semaphore).limit = (accountOf semaphore history).limit
  lower : -2 ^ 31 ≤ (accountOf semaphore history).left ∧
    -2 ^ 31 ≤ (accountOf semaphore history).limit

theorem accountOf_append (semaphore : Nat) (history events : List Event) :
    accountOf semaphore (history ++ events) =
      events.foldl (accountAfter semaphore) (accountOf semaphore history) :=
  foldl_append

theorem foldl_account_same {semaphore : Nat} (events : List Event) (account : Account)
    (same : ∀ event ∈ events, ∀ account, accountAfter semaphore account event = account) :
    events.foldl (accountAfter semaphore) account = account := by
  induction events with
  | nil => rfl
  | cons event events ih =>
    rw [foldl_cons, same event mem_cons_self]
    exact ih (fun other member => same other (mem_cons_of_mem _ member))

theorem SemaphoreInv.same {dispatcher after : Dispatcher} {history events : List Event}
    {semaphore : Nat} (inv : SemaphoreInv dispatcher history semaphore)
    (count : (after.objects semaphore).currentCount = (dispatcher.objects semaphore).currentCount)
    (limit : (after.objects semaphore).limit = (dispatcher.objects semaphore).limit)
    (quiet : ∀ event ∈ events, ∀ account, accountAfter semaphore account event = account) :
    SemaphoreInv after (history ++ events) semaphore := by
  have account : accountOf semaphore (history ++ events) = accountOf semaphore history := by
    rw [accountOf_append, foldl_account_same events _ quiet]
  constructor
  · rw [account, inv.taken]
  · rw [account]
    exact inv.initial
  · rw [account]
    exact inv.released
  · rw [account, count, inv.count]
  · rw [account, limit, inv.limit]
  · rw [account]
    exact inv.lower

theorem addLong_of_range {left right : Int} (lower : -2 ^ 31 ≤ left + right)
    (upper : left + right < 2 ^ 31) : addLong left right = left + right := by
  unfold addLong
  apply Int.bmod_eq_of_le <;> omega

theorem woken_other {semaphore object : Nat} (different : object ≠ semaphore) (threads : List Nat) :
    ∀ event ∈ threads.map (Event.woken object), ∀ account,
      accountAfter semaphore account event = account := by
  intro event member account
  obtain ⟨thread, _, rfl⟩ := List.mem_map.mp member
  simp [accountAfter, different]

section Steps

variable {dispatcher : Dispatcher} {history : List Event} {semaphore : Nat}

theorem setObject_other {object : Nat} (different : semaphore ≠ object)
    (contents : DispatcherObject) :
    (dispatcher.setObject object contents).objects semaphore = dispatcher.objects semaphore :=
  update_of_ne different _ _

theorem setObject_same (object : Nat) (contents : DispatcherObject) :
    (dispatcher.setObject object contents).objects object = contents :=
  update_self _ _ _

variable {after : Dispatcher}

theorem SemaphoreInv.created {count limit : Int32}
    (isCount : (after.objects semaphore).currentCount = count.toInt)
    (isLimit : (after.objects semaphore).limit = limit.toInt) (positive : 0 ≤ count.toInt) :
    SemaphoreInv after (history ++ initialEvents semaphore (.initializeSemaphore count limit))
      semaphore := by
  have lower := Int32.le_toInt limit
  have account : accountOf semaphore
      (history ++ initialEvents semaphore (.initializeSemaphore count limit)) =
      ⟨count.toInt, 0, 0, count.toInt, limit.toInt⟩ := by
    rw [accountOf_append]
    simp [initialEvents, accountAfter]
  constructor
  · rw [account]
  · rw [account]
    exact positive
  · exact Int.le_of_eq (by rw [account])
  · rw [account, isCount]
  · rw [account, isLimit]
  · rw [account]
    dsimp only
    omega

/-- A release that fits adds its adjustment. -/
theorem SemaphoreInv.release (inv : SemaphoreInv dispatcher history semaphore) {adjustment : Int}
    (positive : 0 ≤ adjustment)
    (fits : (dispatcher.objects semaphore).currentCount + adjustment < 2 ^ 31)
    (count : (after.objects semaphore).currentCount =
      countAfterRelease (dispatcher.objects semaphore) adjustment)
    (limit : (after.objects semaphore).limit = (dispatcher.objects semaphore).limit) :
    SemaphoreInv after (history ++ [.semaphoreReleased semaphore adjustment]) semaphore := by
  have lower := inv.lower
  have sum : addLong (dispatcher.objects semaphore).currentCount adjustment =
      (accountOf semaphore history).left + adjustment := by
    rw [addLong_of_range, inv.count]
    · rw [inv.count]
      omega
    · exact fits
  have newCount : countAfterRelease (dispatcher.objects semaphore) adjustment =
      min ((accountOf semaphore history).left + adjustment)
        (accountOf semaphore history).limit := by
    rw [countAfterRelease, sum, inv.limit]
    split <;> omega
  have account : accountOf semaphore (history ++ [.semaphoreReleased semaphore adjustment]) =
      { accountOf semaphore history with
        released := (accountOf semaphore history).released + adjustment
        left := min ((accountOf semaphore history).left + adjustment)
          (accountOf semaphore history).limit } := by
    rw [accountOf_append]
    simp [accountAfter]
  have released := inv.released
  constructor
  · rw [account]
    exact inv.taken
  · rw [account]
    exact inv.initial
  · rw [account]
    dsimp only
    omega
  · rw [account, count, newCount]
  · rw [account, limit, inv.limit]
  · rw [account]
    dsimp only
    omega

theorem departure_quiet {call : Call} {leave : Departure}
    (leaves : departure dispatcher call = some leave) :
    ∀ event ∈ leave.events, ∀ account, accountAfter semaphore account event = account := by
  intro event member account
  cases departs leaves with
  | waitForSingleObject =>
    rw [mem_singleton.mp member]
    simp [accountAfter]
  | dispatchNext | exitThread | waitThread => cases member

theorem returnEvents_quiet (thread : Nat) (status : NtStatus) (point : Resume) :
    ∀ event ∈ returnEvents thread status point, ∀ account,
      accountAfter semaphore account event = account := by
  intro event member account
  cases point with
  | waitForSingleObject object =>
    rw [mem_singleton.mp member]
    rfl
  | routine => cases member
  | waitThread => cases member

theorem SemaphoreInv.setOther
    (old : dispatcher.isSemaphore semaphore → SemaphoreInv dispatcher history semaphore)
    {events : List Event} {object : Nat} {contents : DispatcherObject}
    (isSemaphore : after.isSemaphore semaphore) (different : semaphore ≠ object)
    (objects : after.objects = (dispatcher.setObject object contents).objects)
    (counted : after.objectCount = dispatcher.objectCount)
    (quiet : ∀ event ∈ events, ∀ account, accountAfter semaphore account event = account) :
    SemaphoreInv after (history ++ events) semaphore := by
  obtain ⟨bound, type⟩ := isSemaphore
  rw [counted] at bound
  rw [objects, setObject_other different] at type
  apply (old ⟨bound, type⟩).same
  · rw [objects, setObject_other different]
  · rw [objects, setObject_other different]
  · exact quiet

theorem switch_quiet {call : Call} {leave : Departure}
    (leaves : departure dispatcher call = some leave) (thread : Nat) (status : NtStatus)
    (point : Resume) : ∀ event ∈ leave.events ++ returnEvents thread status point, ∀ account,
      accountAfter semaphore account event = account := by
  intro event member
  rcases mem_append.mp member with left | right
  · exact departure_quiet leaves event left
  · exact returnEvents_quiet _ _ _ event right

/-- One call keeps the account of the semaphore. -/
theorem SemaphoreInv.step {cells : Node → List Nat} (settled : Settled dispatcher cells)
    (old : dispatcher.isSemaphore semaphore → SemaphoreInv dispatcher history semaphore)
    {call : Call} (meets : TakesNothing semaphore dispatcher call) {after : Dispatcher}
    {events : List Event} (effect : Effect dispatcher call after events)
    (isSemaphore : after.isSemaphore semaphore) :
    SemaphoreInv after (history ++ events) semaphore := by
  cases effect with
  | create | foreignRelease foreign | wakeThread waiting
  | idle leaves plain nobody => exact (old isSemaphore).same rfl rfl (by simp)
  | @addObject call contents links new =>
    by_cases here : semaphore = dispatcher.objectCount
    · subst semaphore
      cases call with
      | initializeSemaphore count limit =>
        cases new
        exact SemaphoreInv.created (by simp) (by simp) meets
      | initializeEvent notification state =>
        cases new
        have type := isSemaphore.2
        simp only [update_self] at type
        split at type <;> cases type
      | initializeMutex =>
        cases new
        have type := isSemaphore.2
        simp only [update_self] at type
        cases type
      | _ => cases new
    · have known : dispatcher.isSemaphore semaphore := by
        have bound : semaphore < dispatcher.objectCount + 1 := isSemaphore.1
        have type := isSemaphore.2
        simp only [update_of_ne here] at type
        exact ⟨by omega, type⟩
      apply (old known).same
      · simp only [update_of_ne here]
      · simp only [update_of_ne here]
      · intro event member account
        cases call <;> simp [initialEvents] at member
        subst event
        simp [accountAfter, Ne.symm here]
  | @reset object isEvent =>
    have isOther : (dispatcher.objects object).type ≠ .semaphoreObject := by
      rcases isEvent with event | event <;> simp [event]
    have here := (setObject_type_ne isSemaphore.2 isOther).1
    exact .setOther old isSemaphore here rfl rfl (by simp)
  | @setEvent object links threads signal known isEvent waiting =>
    have isOther : (dispatcher.objects object).type ≠ .semaphoreObject := by
      rcases isEvent with event | event <;> simp [event]
    have here := (setObject_type_ne isSemaphore.2 isOther).1
    exact .setOther old isSemaphore here rfl rfl (woken_other (Ne.symm here) threads)
  | @releaseSemaphore object adjustment links threads known isSemaphoreObject waiting none =>
    generalize shape : ({ dispatcher.objects object with
      currentCount := countAfterRelease (dispatcher.objects object) adjustment.toInt
      signalState := if countAfterRelease (dispatcher.objects object) adjustment.toInt > 0
        then 1 else 0 } : DispatcherObject) = contents at *
    by_cases here : semaphore = object
    · subst semaphore
      obtain ⟨positive, fits, nobody⟩ := meets rfl
      have empty : threads = [] := by
        rcases nobody with zero | noWaiter
        · exact none (by omega)
        have ring := settled.listed.ring (.object object) known
        have cellsEmpty : (cells (.object object)).map Node.thread = [] :=
          ring.isListEmpty_iff.mp noWaiter
        rw [eq_nil_iff_forall_not_mem]
        intro thread member
        have inside := (settled.waits_iff known thread).mpr (waiting thread member)
        rw [map_eq_nil_iff.mp cellsEmpty] at inside
        cases inside
      rw [empty]
      apply (old ⟨known, isSemaphoreObject⟩).release positive fits
      · rw [woken_objects, setObject_same, ← shape]
      · rw [woken_objects, setObject_same, ← shape]
    · refine .setOther old isSemaphore here rfl rfl ?_
      intro event member account
      rcases mem_cons.mp member with first | rest
      · rw [first]
        simp [accountAfter, Ne.symm here]
      · exact woken_other (Ne.symm here) threads event rest account
  | @releaseMutex object links known isMutex own nobody =>
    have isOther : (dispatcher.objects object).type ≠ .semaphoreObject := by simp [isMutex]
    have here := (setObject_type_ne isSemaphore.2 isOther).1
    exact .setOther old isSemaphore here rfl rfl (by simp [accountAfter])
  | @handMutex object thread links known isMutex own waiting =>
    have isOther : (dispatcher.objects object).type ≠ .semaphoreObject := by simp [isMutex]
    have here := (setObject_type_ne isSemaphore.2 isOther).1
    exact .setOther old isSemaphore here rfl rfl (by simp [accountAfter, Ne.symm here])
  | @waitSignaled object poll known signaled =>
    have here : semaphore ≠ object := by
      intro same
      exact signaled (meets same.symm)
    exact .setOther old isSemaphore here rfl rfl (by simp [accountAfter, Ne.symm here])
  | waitPolled notSignaled => exact (old isSemaphore).same rfl rfl (by simp [accountAfter])
  | switch leaves different ready | recover leaves blocking nobody =>
    exact SemaphoreInv.same (old isSemaphore) rfl rfl (switch_quiet leaves _ _ _)

end Steps

/-- The units of a semaphore over every run that takes none of them. -/
theorem semaphoreUnits_conserved (semaphore : Nat) (dispatcher : Dispatcher)
    (history : List Event) (run : DispatcherRun (TakesNothing semaphore) dispatcher history)
    (isSemaphore : dispatcher.isSemaphore semaphore) :
    UnitsConserved dispatcher history semaphore := by
  have inv : dispatcher.isSemaphore semaphore → SemaphoreInv dispatcher history semaphore := by
    clear isSemaphore
    induction run with
    | boot =>
      intro isSemaphore
      exact absurd isSemaphore.1 (Nat.not_lt_zero _)
    | call run meets done ih =>
      obtain ⟨cells, settled, ok⟩ := settled_run run
      exact SemaphoreInv.step settled ih meets (step_effect settled ok done).1
  have facts := inv isSemaphore
  refine ⟨?_, facts.count⟩
  have taken := facts.taken
  have initial := facts.initial
  have released := facts.released
  omega

/-- Two releases of a semaphore nobody has waited for. -/
theorem twoReleases_conserved : ∃ dispatcher history,
    DispatcherRun (TakesNothing 0) dispatcher history ∧ dispatcher.isSemaphore 0 ∧
      (dispatcher.objects 0).currentCount = 4 ∧ UnitsConserved dispatcher history 0 := by
  obtain ⟨dispatcher, history, run, seen⟩ := exists_run (TakesNothing 0)
    [.initializeSemaphore 1 4, .releaseSemaphore 0 2, .releaseSemaphore 0 2]
    (fun dispatcher _ => (dispatcher.objectCount, (dispatcher.objects 0).type,
      (dispatcher.objects 0).currentCount)) (1, .semaphoreObject, 4) (by decide +kernel)
  obtain ⟨count, type, current⟩ : _ ∧ _ ∧ _ := by simpa using seen
  have isSemaphore : dispatcher.isSemaphore 0 := ⟨by omega, type⟩
  exact ⟨dispatcher, history, run, isSemaphore, current,
    semaphoreUnits_conserved 0 dispatcher history run isSemaphore⟩

/-- Two waits succeed on a semaphore that was initialised with one unit. -/
theorem oneUnit_takenTwice : ∃ dispatcher history,
    DispatcherRun (fun _ _ => True) dispatcher history ∧ dispatcher.isSemaphore 0 ∧
      ¬ UnitsConserved dispatcher history 0 := by
  obtain ⟨dispatcher, history, run, seen⟩ := exists_run (fun _ _ => True)
    [.initializeSemaphore 1 1, .waitForSingleObject 0 false, .waitForSingleObject 0 false]
    (fun dispatcher history => (dispatcher.objectCount, (dispatcher.objects 0).type,
      accountOf 0 history)) (1, .semaphoreObject, ⟨1, 0, 2, -1, 1⟩) (by decide +kernel)
  obtain ⟨count, type, account⟩ : _ ∧ _ ∧ _ := by simpa using seen
  refine ⟨dispatcher, history, run, ⟨by omega, type⟩, ?_⟩
  intro conserved
  have bound := conserved.1
  rw [account] at bound
  exact absurd bound (by decide)

/-- The count is between 0 and the limit, and the semaphore is signaled exactly if it
is above 0. -/
def InRange (semaphore : DispatcherObject) : Prop :=
  0 ≤ semaphore.currentCount ∧ semaphore.currentCount ≤ semaphore.limit ∧
    (semaphore.signalState = 1 ↔ 0 < semaphore.currentCount)

/-- Each of the releases returns and leaves the count in range. -/
def StaysInRange (object : Nat) : Dispatcher → List Int32 → Prop
  | _, [] => True
  | dispatcher, adjustment :: adjustments =>
      ∃ previous after events,
        keReleaseSemaphore dispatcher object adjustment.toInt = some (previous, after, events) ∧
          InRange (after.objects object) ∧ StaysInRange object after adjustments

/-- No release overflows the sum that is capped at the limit afterwards. -/
def SumsFit (limit : Int) : Int → List Int32 → Prop
  | _, [] => True
  | count, adjustment :: adjustments =>
      count + adjustment.toInt < 2 ^ 31 ∧
        SumsFit limit (min (count + adjustment.toInt) limit) adjustments

variable {dispatcher : Dispatcher}

theorem keReleaseSemaphore_eq {cells : Node → List Nat} (settled : Settled dispatcher cells)
    {object : Nat} (known : object < dispatcher.objectCount) (adjustment : Int) :
    ∃ after events cells', keReleaseSemaphore dispatcher object adjustment =
        some ((dispatcher.objects object).currentCount, after, events) ∧
      Settled after cells' ∧ after.objectCount = dispatcher.objectCount ∧
      after.objects object = { dispatcher.objects object with
        currentCount := countAfterRelease (dispatcher.objects object) adjustment
        signalState := if countAfterRelease (dispatcher.objects object) adjustment > 0 then 1
          else 0 } := by
  have stored : Settled (dispatcher.setObject object { dispatcher.objects object with
      currentCount := countAfterRelease (dispatcher.objects object) adjustment
      signalState := if countAfterRelease (dispatcher.objects object) adjustment > 0 then 1
        else 0 }) cells := settled.setObject _ _
  obtain ⟨links, result, kept⟩ := wakeWaiters_spec adjustment.toNat _ _ stored known
  refine ⟨_, .semaphoreReleased object adjustment ::
    ((cells (.object object)).take adjustment.toNat).map (.woken object), _, ?_, kept, rfl, ?_⟩
  · unfold keReleaseSemaphore
    dsimp only at result ⊢
    rw [result]
    rfl
  · rw [woken_objects]
    exact update_self _ _ _

theorem inRange_release_iff {semaphore : DispatcherObject} (lower : 0 ≤ semaphore.currentCount)
    (upper : semaphore.currentCount ≤ semaphore.limit) (long : semaphore.limit < 2 ^ 31)
    {adjustment : Int} (positive : 1 ≤ adjustment) (isLong : adjustment < 2 ^ 31) :
    InRange { semaphore with
        currentCount := countAfterRelease semaphore adjustment
        signalState := if countAfterRelease semaphore adjustment > 0 then 1 else 0 } ↔
      semaphore.currentCount + adjustment < 2 ^ 31 := by
  constructor
  · rintro ⟨notNegative, _⟩
    by_contra overflows
    -- the sum wraps to a negative number, which the limit does not cap
    have wrapped : addLong semaphore.currentCount adjustment =
        semaphore.currentCount + adjustment - 2 ^ 32 := by
      unfold addLong
      rw [← Int.sub_bmod_right]
      apply Int.bmod_eq_of_le <;> omega
    simp only [countAfterRelease, wrapped] at notNegative
    split at notNegative <;> omega
  · intro fits
    have sum := addLong_of_range (show -2 ^ 31 ≤ semaphore.currentCount + adjustment by omega) fits
    have count : 0 < countAfterRelease semaphore adjustment ∧
        countAfterRelease semaphore adjustment ≤ semaphore.limit ∨ semaphore.limit = 0 ∧
          countAfterRelease semaphore adjustment = 0 := by
      unfold countAfterRelease
      rw [sum]
      split <;> omega
    unfold InRange
    dsimp only
    rcases count with ⟨above, capped⟩ | ⟨zero, same⟩
    · exact ⟨by omega, capped, by simp [above]⟩
    · rw [same]
      exact ⟨by omega, by omega, by simp⟩

theorem int32_lt (value : Int32) : value.toInt < 2 ^ 31 := by
  have bound := Int32.toInt_lt value
  omega

/-- Releases alone stay in range exactly if their sums fit. -/
theorem staysInRange_settled {object : Nat} {adjustments : List Int32}
    (positive : ∀ adjustment ∈ adjustments, 1 ≤ adjustment.toInt) {cells : Node → List Nat}
    (settled : Settled dispatcher cells) (known : object < dispatcher.objectCount)
    (lower : 0 ≤ (dispatcher.objects object).currentCount)
    (upper : (dispatcher.objects object).currentCount ≤ (dispatcher.objects object).limit)
    (long : (dispatcher.objects object).limit < 2 ^ 31) :
    StaysInRange object dispatcher adjustments ↔
      SumsFit (dispatcher.objects object).limit (dispatcher.objects object).currentCount
        adjustments := by
  induction adjustments generalizing dispatcher cells with
  | nil => exact Iff.rfl
  | cons adjustment adjustments ih =>
    obtain ⟨after, events, cells', result, kept, count, semaphore⟩ :=
      keReleaseSemaphore_eq settled known adjustment.toInt
    have inRange := inRange_release_iff lower upper long (positive adjustment mem_cons_self)
      (int32_lt adjustment)
    rw [← semaphore] at inRange
    have rest : InRange (after.objects object) →
        (StaysInRange object after adjustments ↔
          SumsFit (dispatcher.objects object).limit
            (min ((dispatcher.objects object).currentCount + adjustment.toInt)
              (dispatcher.objects object).limit) adjustments) := by
      intro good
      have fits := inRange.mp good
      have sum := addLong_of_range
        (show -2 ^ 31 ≤ (dispatcher.objects object).currentCount + adjustment.toInt by
          have := positive adjustment mem_cons_self
          omega) fits
      have capped : (after.objects object).currentCount =
          min ((dispatcher.objects object).currentCount + adjustment.toInt)
            (dispatcher.objects object).limit := by
        rw [semaphore]
        dsimp only
        unfold countAfterRelease
        rw [sum]
        split <;> omega
      have limit : (after.objects object).limit = (dispatcher.objects object).limit := by
        rw [semaphore]
      have later := ih (fun other member => positive other (mem_cons_of_mem _ member)) kept
        (by rw [count]; exact known) good.1 good.2.1 (by rw [limit]; exact long)
      rw [capped, limit] at later
      exact later
    constructor
    · rintro ⟨previous, after', events', result', good, stays⟩
      rw [result] at result'
      cases result'
      exact ⟨inRange.mp good, (rest good).mp stays⟩
    · rintro ⟨fits, later⟩
      have good := inRange.mpr fits
      exact ⟨_, after, events, result, good, (rest good).mpr later⟩

theorem Effect.limit {dispatcher after : Dispatcher} {call : Call} {events : List Event}
    (effect : Effect dispatcher call after events)
    (long : ∀ object, (dispatcher.objects object).limit < 2 ^ 31) (object : Nat) :
    (after.objects object).limit < 2 ^ 31 := by
  have stored : ∀ {other : Nat} {contents : DispatcherObject}, contents.limit < 2 ^ 31 →
      (update dispatcher.objects other contents object).limit < 2 ^ 31 := by
    intro other contents bound
    by_cases same : object = other
    · rw [same, update_self]
      exact bound
    · rw [update_of_ne same]
      exact long object
  cases effect with
  | @addObject call contents links new =>
    apply stored
    cases call with
    | initializeEvent notification state | initializeMutex =>
      cases new
      exact (by decide : (0 : Int) < 2 ^ 31)
    | initializeSemaphore count limit =>
      cases new
      exact int32_lt limit
    | _ => cases new
  | @reset other isEvent | @setEvent other | @releaseSemaphore other | @releaseMutex other
  | @handMutex other => exact stored (long other)
  | @waitSignaled other poll known signaled =>
    apply stored
    have same : (consumeSignal (dispatcher.objects other) dispatcher.current).limit =
        (dispatcher.objects other).limit := by
      unfold consumeSignal
      split <;> rfl
    rw [same]
    exact long other
  | create | foreignRelease foreign | waitPolled notSignaled | wakeThread waiting
  | switch leaves different ready | idle leaves plain nobody
  | recover leaves blocks nobody => exact long object

theorem limit_run {allowed : Dispatcher → Call → Prop}
    {history : List Event} (run : DispatcherRun allowed dispatcher history) (object : Nat) :
    (dispatcher.objects object).limit < 2 ^ 31 := by
  induction run generalizing object with
  | boot => exact (by decide : (0 : Int) < 2 ^ 31)
  | call run meets done ih =>
    obtain ⟨cells, settled, ok⟩ := settled_run run
    exact (step_effect settled ok done).1.limit ih object

/-- Any releases of any semaphore that starts in range, with any waiters: the count
stays in range exactly if no sum of the count and an adjustment overflows. -/
theorem semaphoreRange_iff (dispatcher : Dispatcher) (history : List Event)
    (run : DispatcherRun (fun _ _ => True) dispatcher history) {object : Nat}
    (isSemaphore : dispatcher.isSemaphore object)
    (lower : 0 ≤ (dispatcher.objects object).currentCount)
    (upper : (dispatcher.objects object).currentCount ≤ (dispatcher.objects object).limit)
    (adjustments : List Int32) (positive : ∀ adjustment ∈ adjustments, 1 ≤ adjustment.toInt) :
    StaysInRange object dispatcher adjustments ↔
      SumsFit (dispatcher.objects object).limit (dispatcher.objects object).currentCount
        adjustments := by
  obtain ⟨cells, settled, _⟩ := settled_run run
  exact staysInRange_settled positive settled isSemaphore.1 lower upper (limit_run run object)

/-- Two releases, the second of which the limit caps. -/
theorem cappedRelease_inRange : ∃ dispatcher history,
    DispatcherRun (fun _ _ => True) dispatcher history ∧ StaysInRange 0 dispatcher [3, 4] := by
  obtain ⟨dispatcher, history, run, seen⟩ := exists_run (fun _ _ => True) [.initializeSemaphore 0 5]
    (fun dispatcher _ => (dispatcher.objectCount, dispatcher.objects 0))
    (1, ⟨.semaphoreObject, 0, 5, 0, none⟩) (by decide +kernel)
  obtain ⟨count, semaphore⟩ := Prod.mk.inj seen
  have isSemaphore : dispatcher.isSemaphore 0 := ⟨by omega, by rw [semaphore]⟩
  refine ⟨dispatcher, history, run, ?_⟩
  have lower : 0 ≤ (dispatcher.objects 0).currentCount := by simp [semaphore]
  have upper : (dispatcher.objects 0).currentCount ≤ (dispatcher.objects 0).limit := by
    rw [semaphore]
    exact Int.le_of_lt (by decide)
  rw [semaphoreRange_iff dispatcher history run isSemaphore lower upper [3, 4] (by simp), semaphore]
  exact ⟨by decide, by decide, trivial⟩

/-- One unit and a release of `0x7FFFFFFF` more. -/
theorem fullRelease_notInRange : ∃ dispatcher history,
    DispatcherRun (fun _ _ => True) dispatcher history ∧ InRange (dispatcher.objects 0) ∧
      ¬ StaysInRange 0 dispatcher [0x7FFFFFFF] := by
  obtain ⟨dispatcher, history, run, seen⟩ := exists_run (fun _ _ => True)
    [.initializeSemaphore 1 0x7FFFFFFF]
    (fun dispatcher _ => (dispatcher.objectCount, dispatcher.objects 0))
    (1, ⟨.semaphoreObject, 1, 0x7FFFFFFF, 1, none⟩) (by decide +kernel)
  obtain ⟨count, semaphore⟩ := Prod.mk.inj seen
  obtain ⟨cells, settled, _⟩ := settled_run run
  refine ⟨dispatcher, history, run, ?_, ?_⟩
  · rw [semaphore]
    exact ⟨by decide, by decide, by decide⟩
  · rw [staysInRange_settled (by simp) settled (show 0 < dispatcher.objectCount by omega)
      (by rw [semaphore]; decide) (by rw [semaphore]; decide) (by rw [semaphore]; decide),
      semaphore]
    rintro ⟨fits, _⟩
    exact absurd fits (by decide)

end MinNT.Ke
