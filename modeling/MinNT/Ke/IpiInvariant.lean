import Mathlib.Data.List.Count
import Mathlib.Tactic.Common
import MinNT.Ke.Ipi

namespace MinNT.Ipi

open List Handler Transition

section Count

variable {p q : Nat → Bool} {n : Nat}

theorem countP_congr (same : ∀ t < n, p t = q t) : (range n).countP p = (range n).countP q := by
  apply List.countP_congr
  intro t member
  rw [same t (mem_range.mp member)]

theorem countP_flip {t : Nat} (inside : t < n) (before : p t = false) (after : q t = true)
    (others : ∀ u, u ≠ t → p u = q u) : (range n).countP q = (range n).countP p + 1 := by
  induction n with
  | zero => exact absurd inside (Nat.not_lt_zero t)
  | succ n ih =>
    rw [range_succ, countP_append, countP_append, countP_singleton, countP_singleton]
    by_cases last : t = n
    · subst last
      have front := @countP_congr p q t (fun u below => others u (Nat.ne_of_lt below))
      rw [before, after, front]
      rfl
    · rw [ih (by omega), others n (fun same => last same.symm)]
      omega

theorem countP_all (stronger : ∀ t < n, q t = true → p t = true)
    (enough : (range n).countP p ≤ (range n).countP q) : ∀ t < n, p t = true → q t = true := by
  induction n with
  | zero => exact fun t inside => absurd inside (Nat.not_lt_zero t)
  | succ n ih =>
    have fewer : (range n).countP q ≤ (range n).countP p := by
      apply countP_mono_left
      exact fun t member => stronger t (Nat.lt_succ_of_lt (mem_range.mp member))
    have lastStronger := stronger n (Nat.lt_succ_self n)
    rw [range_succ, countP_append, countP_append, countP_singleton, countP_singleton] at enough
    intro t inside holds
    rcases Nat.lt_succ_iff_lt_or_eq.mp inside with below | rfl
    · refine ih (fun u within => stronger u (Nat.lt_succ_of_lt within)) ?_ t below holds
      split at enough
      · split at enough
        · omega
        · omega
      · rename_i notLast
        rw [if_neg (fun also => notLast (lastStronger also))] at enough
        omega
    · by_contra misses
      rw [if_pos holds, if_neg misses] at enough
      omega

end Count

/-- The processors that a call is for. -/
def isTarget (n : Nat) (call : Call) (t : Nat) : Bool :=
  decide (t < n) && call.targetProcessors.getLsbD t && decide (t ≠ call.processor)

/-- The call has queued its request for a processor. -/
def Phase.inserted : Phase → Nat → Bool
  | .test i, t | .acquire i, t | .insert i, t => t < i
  | .increment i, t | .release i, t | .send i, t | .count i, t => t ≤ i
  | .own, _ | .wait, _ | .returned, _ => true

/-- The call has counted its request for a processor. -/
def Phase.counted : Phase → Nat → Bool
  | .test i, t | .acquire i, t | .insert i, t | .increment i, t | .release i, t | .send i, t
  | .count i, t => t < i
  | .own, _ | .wait, _ | .returned, _ => true

/-- The processor that the body of the loop is at. -/
def Phase.at? : Phase → Option Nat
  | .acquire i | .insert i | .increment i | .release i | .send i | .count i => some i
  | .test _ | .own | .wait | .returned => none

/-- The handler has taken a request and not yet run it. -/
def Handler.holds : Handler → Request → Bool
  | .taken request, other | .run request, other => request = other
  | _, _ => false

/-- The handler has taken a request and not yet signalled it. -/
def Handler.owes : Handler → Request → Bool
  | .taken request, other | .run request, other | .signal request, other => request = other
  | _, _ => false

def inserted (n : Nat) (s : State) (r : Request) : Bool :=
  decide (r.call < s.started) && isTarget n (s.calls r.call) r.target &&
    (s.calls r.call).phase.inserted r.target

def counted (n : Nat) (s : State) (c t : Nat) : Bool :=
  isTarget n (s.calls c) t && (s.calls c).phase.counted t

/-- The handler is through with a request. -/
def signalled (n : Nat) (s : State) (r : Request) : Bool :=
  inserted n s r && !decide (r ∈ (s.processors r.target).ipiQueue) &&
    !(s.processors r.target).handler.owes r

/-- In how many places a request is: queued, taken, or run. -/
def places (s : State) (r : Request) : Nat :=
  (s.processors r.target).ipiQueue.count r +
    (if (s.processors r.target).handler.holds r then 1 else 0) + s.ran.count (r, r.target)

/-- A request is in one place from its insertion on, and only at its own processor; the
completion count is the number of requests counted and not signalled. -/
structure Lives (n : Nat) (s : State) : Prop where
  place : ∀ c < s.started, ∀ i, (s.calls c).phase.at? = some i → isTarget n (s.calls c) i = true
  queued : ∀ t, ∀ r ∈ (s.processors t).ipiQueue, r.target = t
  owed : ∀ t r, (s.processors t).handler.owes r = true → r.target = t
  ranAt : ∀ entry ∈ s.ran, entry.2 = entry.1.target
  finished : ∀ t r, (s.processors t).handler = .signal r → (r, t) ∈ s.ran
  once : ∀ r, places s r = if inserted n s r then 1 else 0
  completion : ∀ c < s.started,
    (s.calls c).completionCount + ((range n).countP fun t => signalled n s ⟨c, t⟩) =
      ((range n).countP fun t => counted n s c t : Nat)

/-- Of what the invariant reads, only places in code change, and none that matter. -/
structure Silent (n : Nat) (s s' : State) : Prop where
  started : s'.started = s.started
  ran : s'.ran = s.ran
  queue : ∀ t, (s'.processors t).ipiQueue = (s.processors t).ipiQueue
  holds : ∀ t r, (s'.processors t).handler.holds r = (s.processors t).handler.holds r
  owes : ∀ t r, (s'.processors t).handler.owes r = (s.processors t).handler.owes r
  signal : ∀ t r, (s'.processors t).handler = .signal r → (s.processors t).handler = .signal r
  target : ∀ c t, isTarget n (s'.calls c) t = isTarget n (s.calls c) t
  insert : ∀ c < s.started, ∀ t, isTarget n (s.calls c) t = true →
    (s'.calls c).phase.inserted t = (s.calls c).phase.inserted t
  count : ∀ c < s.started, ∀ t, isTarget n (s.calls c) t = true →
    (s'.calls c).phase.counted t = (s.calls c).phase.counted t
  place : ∀ c < s.started, ∀ i, (s'.calls c).phase.at? = some i →
    isTarget n (s.calls c) i = true
  completion : ∀ c, (s'.calls c).completionCount = (s.calls c).completionCount

section Silent

variable {n : Nat} {s s' : State}

theorem Silent.inserted (silent : Silent n s s') (r : Request) :
    inserted n s' r = inserted n s r := by
  unfold Ipi.inserted
  rw [silent.started, silent.target]
  by_cases begun : r.call < s.started
  · cases target : isTarget n (s.calls r.call) r.target with
    | false => simp
    | true => rw [silent.insert _ begun _ target]
  · simp [begun]

theorem Silent.signalled (silent : Silent n s s') (r : Request) :
    signalled n s' r = signalled n s r := by
  unfold Ipi.signalled
  rw [silent.inserted, silent.queue, silent.owes]

theorem Silent.counted (silent : Silent n s s') {c : Nat} (begun : c < s.started) (t : Nat) :
    counted n s' c t = counted n s c t := by
  unfold Ipi.counted
  rw [silent.target]
  cases target : isTarget n (s.calls c) t with
  | false => rfl
  | true => rw [silent.count _ begun _ target]

theorem Lives.silent (lives : Lives n s) (silent : Silent n s s') : Lives n s' where
  place := by
    intro c begun i at'
    rw [silent.started] at begun
    rw [silent.target]
    exact silent.place c begun i at'
  queued := by
    intro t r member
    rw [silent.queue] at member
    exact lives.queued t r member
  owed := by
    intro t r owes
    rw [silent.owes] at owes
    exact lives.owed t r owes
  ranAt := by
    rw [silent.ran]
    exact lives.ranAt
  finished := by
    intro t r signal
    rw [silent.ran]
    exact lives.finished t r (silent.signal t r signal)
  once := by
    intro r
    have same : places s' r = places s r := by
      unfold places
      rw [silent.queue, silent.holds, silent.ran]
    rw [same, silent.inserted]
    exact lives.once r
  completion := by
    intro c begun
    rw [silent.started] at begun
    rw [silent.completion, countP_congr (fun t _ => silent.signalled ⟨c, t⟩),
      countP_congr (fun t _ => silent.counted begun t)]
    exact lives.completion c begun

theorem setProcessor_field {β : Type} (field : Processor → β) {cpu : Nat} {processor : Processor}
    (same : field processor = field (s.processors cpu)) (t : Nat) :
    field ((s.setProcessor cpu processor).processors t) = field (s.processors t) := by
  by_cases here : t = cpu
  · subst here
    rw [setProcessor_self, same]
  · rw [setProcessor_other _ _ here]

theorem silent_handler {cpu : Nat} {processor : Processor} (lives : Lives n s)
    (queue : processor.ipiQueue = (s.processors cpu).ipiQueue)
    (holds : processor.handler.holds = (s.processors cpu).handler.holds)
    (owes : processor.handler.owes = (s.processors cpu).handler.owes)
    (signal : ∀ r, processor.handler = .signal r → (s.processors cpu).handler = .signal r) :
    Silent n s (s.setProcessor cpu processor) where
  started := rfl
  ran := rfl
  queue := setProcessor_field Processor.ipiQueue queue
  holds := fun t => congrFun (setProcessor_field (fun p => p.handler.holds) holds t)
  owes := fun t => congrFun (setProcessor_field (fun p => p.handler.owes) owes t)
  signal := by
    intro t r at'
    by_cases here : t = cpu
    · subst here
      rw [setProcessor_self] at at'
      exact signal r at'
    · rwa [setProcessor_other _ _ here] at at'
  target := fun _ _ => rfl
  insert := fun _ _ _ _ => rfl
  count := fun _ _ _ _ => rfl
  place := fun c begun i at' => lives.place c begun i at'
  completion := fun _ => rfl

/-- A step of a call between two places, with no more than a lock, a count or a flag
of a processor. -/
theorem silent_call {cpu c : Nat} {processor : Processor} {phase : Phase} (lives : Lives n s)
    (queue : processor.ipiQueue = (s.processors cpu).ipiQueue)
    (handler : processor.handler = (s.processors cpu).handler)
    (insert : ∀ t, isTarget n (s.calls c) t = true →
      phase.inserted t = (s.calls c).phase.inserted t)
    (count : ∀ t, isTarget n (s.calls c) t = true → phase.counted t = (s.calls c).phase.counted t)
    (place : ∀ i, phase.at? = some i → isTarget n (s.calls c) i = true) :
    Silent n s ((s.setProcessor cpu processor).goto c phase) := by
  have other : ∀ d, d ≠ c →
      ((s.setProcessor cpu processor).goto c phase).calls d = s.calls d :=
    fun d different => setCall_other _ _ different
  have here : ((s.setProcessor cpu processor).goto c phase).calls c =
      { s.calls c with phase := phase } := setCall_self _ _
  have handlers := setProcessor_field (fun p => p.handler) handler
  refine ⟨rfl, rfl, setProcessor_field Processor.ipiQueue queue, ?_, ?_, ?_, ?_, ?_, ?_, ?_, ?_⟩
  · intro t r
    exact congrArg (holds · r) (handlers t)
  · intro t r
    exact congrArg (Handler.owes · r) (handlers t)
  · intro t r signal
    exact (handlers t).symm.trans signal
  · intro d t
    by_cases same : d = c
    · subst same
      rw [here]
      rfl
    · rw [other d same]
  · intro d _ t target
    by_cases same : d = c
    · subst same
      rw [here]
      exact insert t target
    · rw [other d same]
  · intro d _ t target
    by_cases same : d = c
    · subst same
      rw [here]
      exact count t target
    · rw [other d same]
  · intro d begun i at'
    by_cases same : d = c
    · subst same
      rw [here] at at'
      exact place i at'
    · rw [other d same] at at'
      exact lives.place d begun i at'
  · intro d
    by_cases same : d = c
    · subst same
      rw [here]
    · rw [other d same]

end Silent

section Moves

variable {n : Nat} {s s' : State}

theorem inserted_congr {r : Request} (started : s'.started = s.started)
    (target : isTarget n (s'.calls r.call) r.target = isTarget n (s.calls r.call) r.target)
    (phase : (s'.calls r.call).phase.inserted r.target = (s.calls r.call).phase.inserted r.target) :
    inserted n s' r = inserted n s r := by
  unfold inserted
  rw [started, target, phase]

/-- A new call has queued and counted nothing. -/
theorem lives_new (lives : Lives n s) (cpu : Nat) (targets : BitVec 64) :
    Lives n (s.newCall ⟨cpu, targets, 0, .test 0⟩) := by
  have started : (s.newCall ⟨cpu, targets, 0, .test 0⟩).started = s.started + 1 := rfl
  have new := newCall_new s ⟨cpu, targets, 0, .test 0⟩
  have old : ∀ c, c ≠ s.started → (s.newCall ⟨cpu, targets, 0, .test 0⟩).calls c = s.calls c :=
    fun c other => newCall_old s _ other
  have insert : ∀ r, inserted n (s.newCall ⟨cpu, targets, 0, .test 0⟩) r = inserted n s r := by
    intro r
    unfold inserted
    by_cases here : r.call = s.started
    · rw [here, new]
      simp [Phase.inserted]
    · have begun : decide (r.call < s.started + 1) = decide (r.call < s.started) := by
        rw [decide_eq_decide]
        omega
      rw [old r.call here, started, begun]
  have signal : ∀ r, signalled n (s.newCall ⟨cpu, targets, 0, .test 0⟩) r = signalled n s r := by
    intro r
    unfold signalled
    rw [insert]
    rfl
  constructor
  · intro c begun i at'
    by_cases here : c = s.started
    · rw [here, new] at at'
      cases at'
    · rw [old c here] at at' ⊢
      exact lives.place c (by omega) i at'
  · exact lives.queued
  · exact lives.owed
  · exact lives.ranAt
  · exact lives.finished
  · intro r
    rw [insert]
    exact lives.once r
  · intro c begun
    rw [countP_congr (fun t _ => signal ⟨c, t⟩)]
    by_cases here : c = s.started
    · have noSignal : ((range n).countP fun t => signalled n s ⟨c, t⟩) = 0 := by
        rw [countP_eq_zero]
        intro t _
        simp [signalled, inserted, here]
      have noCount : ((range n).countP fun t =>
          counted n (s.newCall ⟨cpu, targets, 0, .test 0⟩) c t) = 0 := by
        rw [countP_eq_zero]
        intro t _
        rw [counted, here, new]
        simp [Phase.counted]
      rw [noSignal, noCount, here, new]
      rfl
    · have same : ∀ t, counted n (s.newCall ⟨cpu, targets, 0, .test 0⟩) c t = counted n s c t := by
        intro t
        unfold counted
        rw [old c here]
      rw [countP_congr (fun t _ => same t), old c here]
      exact lives.completion c (by omega)

/-- Queueing a request keeps the account of the requests. -/
theorem lives_insert (lives : Lives n s) {c i : Nat} (begun : c < s.started)
    (phase : (s.calls c).phase = .insert i) :
    Lives n ((s.setProcessor i
      { s.processors i with ipiQueue := (s.processors i).ipiQueue ++ [⟨c, i⟩] }).goto c
        (.increment i)) := by
  generalize shape : (s.setProcessor i
    { s.processors i with ipiQueue := (s.processors i).ipiQueue ++ [⟨c, i⟩] }).goto c
      (.increment i) = s'
  have target : isTarget n (s.calls c) i = true :=
    lives.place c begun i (by rw [phase]; rfl)
  have started : s'.started = s.started := by rw [← shape]; rfl
  have ran : s'.ran = s.ran := by rw [← shape]; rfl
  have handlers : ∀ t, (s'.processors t).handler = (s.processors t).handler := by
    rw [← shape]
    exact setProcessor_field Processor.handler rfl
  have here : (s'.processors i).ipiQueue = (s.processors i).ipiQueue ++ [⟨c, i⟩] := by
    rw [← shape]
    exact congrArg Processor.ipiQueue (setProcessor_self s _)
  have elsewhere : ∀ t, t ≠ i → (s'.processors t).ipiQueue = (s.processors t).ipiQueue := by
    intro t other
    rw [← shape]
    exact congrArg Processor.ipiQueue (setProcessor_other s _ other)
  have call : s'.calls c = { s.calls c with phase := .increment i } := by
    rw [← shape]
    exact setCall_self _ _
  have others : ∀ d, d ≠ c → s'.calls d = s.calls d := by
    intro d other
    rw [← shape]
    exact setCall_other _ _ other
  have before : inserted n s ⟨c, i⟩ = false := by
    unfold inserted
    rw [phase]
    simp [Phase.inserted]
  have after : inserted n s' ⟨c, i⟩ = true := by
    have same : isTarget n { s.calls c with phase := .increment i } i = true := target
    unfold inserted
    rw [started, call, same]
    simp [begun, Phase.inserted]
  have insert : ∀ r, r ≠ ⟨c, i⟩ → inserted n s' r = inserted n s r := by
    intro r different
    by_cases own : r.call = c
    · have place : r.target ≠ i := fun same => different (by cases r; simp_all)
      apply inserted_congr started
      · rw [own, call]
        rfl
      · rw [own, call, phase]
        simp only [Phase.inserted, decide_eq_decide]
        omega
    · apply inserted_congr started
      · rw [others _ own]
      · rw [others _ own]
  have count : ∀ r, r ≠ ⟨c, i⟩ → (s'.processors r.target).ipiQueue.count r =
      (s.processors r.target).ipiQueue.count r := by
    intro r different
    by_cases own : r.target = i
    · have single : List.count r [(⟨c, i⟩ : Request)] = 0 :=
        count_eq_zero_of_not_mem (by simpa using different)
      rw [own, here, count_append, single, Nat.add_zero]
    · rw [elsewhere _ own]
  have signal : ∀ r, signalled n s' r = signalled n s r := by
    intro r
    unfold signalled
    by_cases different : r = ⟨c, i⟩
    · rw [different, before, here]
      simp
    · have member : r ∈ (s'.processors r.target).ipiQueue ↔
          r ∈ (s.processors r.target).ipiQueue := by
        rw [← count_pos_iff, ← count_pos_iff, count r different]
      rw [insert r different, handlers]
      simp only [member]
  constructor
  · intro d begun' i' at'
    rw [started] at begun'
    by_cases own : d = c
    · rw [own, call] at at' ⊢
      cases at'
      exact target
    · rw [others d own] at at' ⊢
      exact lives.place d begun' i' at'
  · intro t r member
    by_cases own : t = i
    · rw [own, here, mem_append, mem_singleton] at member
      rcases member with earlier | new
      · rw [own]
        exact lives.queued i r earlier
      · rw [new, own]
    · rw [elsewhere t own] at member
      exact lives.queued t r member
  · intro t r owes
    rw [handlers] at owes
    exact lives.owed t r owes
  · rw [ran]
    exact lives.ranAt
  · intro t r signals
    rw [handlers] at signals
    rw [ran]
    exact lives.finished t r signals
  · intro r
    have places' := lives.once r
    unfold places at places' ⊢
    rw [handlers, ran]
    by_cases different : r = ⟨c, i⟩
    · rw [different] at places' ⊢
      rw [before] at places'
      rw [after, here, count_append, count_singleton_self]
      simp only [Bool.false_eq_true, if_false, if_true] at places' ⊢
      omega
    · rw [insert r different, count r different]
      exact places'
  · intro d begun'
    rw [started] at begun'
    have counted' : ∀ t, counted n s' d t = counted n s d t := by
      intro t
      unfold counted
      by_cases own : d = c
      · rw [own, call, phase]
        rfl
      · rw [others d own]
    have completion : (s'.calls d).completionCount = (s.calls d).completionCount := by
      by_cases own : d = c
      · rw [own, call]
      · rw [others d own]
    rw [completion, countP_congr (fun t _ => signal ⟨d, t⟩), countP_congr (fun t _ => counted' t)]
    exact lives.completion d begun'

/-- The call counts a request: one on the completion count. -/
theorem lives_count (lives : Lives n s) {c i : Nat} (begun : c < s.started)
    (phase : (s.calls c).phase = .count i) :
    Lives n (s.setCall c
      { s.calls c with
        completionCount := (s.calls c).completionCount + 1
        phase := .test (i + 1) }) := by
  generalize shape : s.setCall c
    { s.calls c with
      completionCount := (s.calls c).completionCount + 1
      phase := .test (i + 1) } = s'
  have target : isTarget n (s.calls c) i = true :=
    lives.place c begun i (by rw [phase]; rfl)
  have inside : i < n := by
    simp only [isTarget, Bool.and_eq_true, decide_eq_true_eq] at target
    exact target.1.1
  have started : s'.started = s.started := by rw [← shape]; rfl
  have ran : s'.ran = s.ran := by rw [← shape]; rfl
  have processors : s'.processors = s.processors := by rw [← shape]; rfl
  have call : s'.calls c =
      { s.calls c with
        completionCount := (s.calls c).completionCount + 1
        phase := .test (i + 1) } := by
    rw [← shape]
    exact setCall_self _ _
  have others : ∀ d, d ≠ c → s'.calls d = s.calls d := by
    intro d other
    rw [← shape]
    exact setCall_other _ _ other
  have insert : ∀ r, inserted n s' r = inserted n s r := by
    intro r
    by_cases own : r.call = c
    · apply inserted_congr started
      · rw [own, call]
        rfl
      · rw [own, call, phase]
        simp only [Phase.inserted, decide_eq_decide]
        omega
    · apply inserted_congr started
      · rw [others _ own]
      · rw [others _ own]
  have signal : ∀ r, signalled n s' r = signalled n s r := by
    intro r
    unfold signalled
    rw [insert, processors]
  constructor
  · intro d begun' i' at'
    rw [started] at begun'
    by_cases own : d = c
    · rw [own, call] at at'
      cases at'
    · rw [others d own] at at' ⊢
      exact lives.place d begun' i' at'
  · rw [processors]
    exact lives.queued
  · rw [processors]
    exact lives.owed
  · rw [ran]
    exact lives.ranAt
  · rw [processors, ran]
    exact lives.finished
  · intro r
    have same : places s' r = places s r := by
      unfold places
      rw [processors, ran]
    rw [same, insert]
    exact lives.once r
  · intro d begun'
    rw [started] at begun'
    rw [countP_congr (fun t _ => signal ⟨d, t⟩)]
    have earlier := lives.completion d begun'
    by_cases own : d = c
    · have target' : ∀ t, isTarget n (s'.calls c) t = isTarget n (s.calls c) t := by
        intro t
        rw [call]
        rfl
      have more : ((range n).countP fun t => counted n s' c t) =
          ((range n).countP fun t => counted n s c t) + 1 := by
        apply countP_flip inside
        · rw [counted, phase]
          simp [Phase.counted]
        · rw [counted, target', target, call]
          simp [Phase.counted]
        · intro t other
          rw [counted, counted, target', call, phase]
          congr 1
          simp only [Phase.counted, decide_eq_decide]
          omega
      rw [own] at earlier ⊢
      rw [more, call]
      simp only
      omega
    · have same : ∀ t, counted n s' d t = counted n s d t := by
        intro t
        unfold counted
        rw [others d own]
      rw [countP_congr (fun t _ => same t), others d own]
      exact earlier

theorem inserted_of_calls (started : s'.started = s.started) (calls : s'.calls = s.calls)
    (r : Request) : inserted n s' r = inserted n s r := by
  apply inserted_congr started
  · rw [calls]
  · rw [calls]

variable {cpu : Nat} {request : Request}

section Lives

variable (lives : Lives n s)
include lives

/-- A step of one handler, with no more of a call than its completion count. -/
theorem Lives.handled (started : s'.started = s.started)
    (target : ∀ c t, isTarget n (s'.calls c) t = isTarget n (s.calls c) t)
    (phase : ∀ c, (s'.calls c).phase = (s.calls c).phase)
    (elsewhere : ∀ t, t ≠ cpu → s'.processors t = s.processors t)
    (queued : ∀ r ∈ (s'.processors cpu).ipiQueue, r.target = cpu)
    (owed : ∀ r, (s'.processors cpu).handler.owes r = true → r.target = cpu)
    (ranMore : ∀ entry ∈ s.ran, entry ∈ s'.ran) (ranAt : ∀ entry ∈ s'.ran, entry.2 = entry.1.target)
    (finished : ∀ r, (s'.processors cpu).handler = .signal r → (r, cpu) ∈ s'.ran)
    (place : ∀ r, places s' r = places s r)
    (completion : ∀ c,
      (s'.calls c).completionCount + ((range n).countP fun t => signalled n s' ⟨c, t⟩) =
        (s.calls c).completionCount + ((range n).countP fun t => signalled n s ⟨c, t⟩)) :
    Lives n s' := by
  constructor
  · intro c begun i at'
    rw [phase] at at'
    rw [target]
    exact lives.place c (started ▸ begun) i at'
  · intro t r member
    by_cases own : t = cpu
    · rw [own] at member ⊢
      exact queued r member
    · rw [elsewhere t own] at member
      exact lives.queued t r member
  · intro t r owes
    by_cases own : t = cpu
    · rw [own] at owes ⊢
      exact owed r owes
    · rw [elsewhere t own] at owes
      exact lives.owed t r owes
  · exact ranAt
  · intro t r signals
    by_cases own : t = cpu
    · rw [own] at signals ⊢
      exact finished r signals
    · rw [elsewhere t own] at signals
      exact ranMore _ (lives.finished t r signals)
  · intro r
    rw [place, inserted_congr started (target _ _) (by rw [phase])]
    exact lives.once r
  · intro c begun
    have same : ∀ t, counted n s' c t = counted n s c t := by
      intro t
      unfold counted
      rw [target, phase]
    rw [completion, countP_congr (fun t _ => same t)]
    exact lives.completion c (started ▸ begun)

/-- So does taking one from the queue. -/
theorem lives_take {rest : List Request} (handler : (s.processors cpu).handler = .check)
    (queue : (s.processors cpu).ipiQueue = request :: rest) :
    Lives n (s.setProcessor cpu
      { s.processors cpu with ipiQueue := rest, handler := .taken request }) := by
  have target : request.target = cpu := lives.queued cpu request (by rw [queue]; simp)
  generalize shape : s.setProcessor cpu
    { s.processors cpu with ipiQueue := rest, handler := .taken request } = s'
  have here : s'.processors cpu =
      { s.processors cpu with ipiQueue := rest, handler := .taken request } := by
    rw [← shape]
    exact setProcessor_self s _
  have elsewhere : ∀ t, t ≠ cpu → s'.processors t = s.processors t := by
    rw [← shape]
    exact fun t other => setProcessor_other s _ other
  have started : s'.started = s.started := by rw [← shape]; rfl
  have calls : s'.calls = s.calls := by rw [← shape]; rfl
  have ran : s'.ran = s.ran := by rw [← shape]; rfl
  have place : ∀ r, places s' r = places s r := by
    intro r
    unfold places
    rw [ran]
    by_cases own : r.target = cpu
    · rw [own, here, queue, handler]
      by_cases same : r = request
      · rw [same, count_cons_self]
        simp [holds]
      · have different : request ≠ r := fun other => same other.symm
        rw [count_cons_of_ne different]
        simp [holds, different]
    · rw [elsewhere _ own]
  have signal : ∀ r, signalled n s' r = signalled n s r := by
    intro r
    unfold signalled
    rw [inserted_of_calls started calls]
    by_cases own : r.target = cpu
    · rw [own, here, queue, handler]
      by_cases same : r = request
      · simp [Handler.owes, same]
      · have different : request ≠ r := fun other => same other.symm
        simp [Handler.owes, same, different]
    · rw [elsewhere _ own]
  apply lives.handled started (fun _ _ => by rw [calls]) (fun _ => by rw [calls]) elsewhere
  · intro r member
    rw [here] at member
    exact lives.queued cpu r (by rw [queue]; exact mem_cons_of_mem _ member)
  · intro r owes
    rw [here] at owes
    simp only [Handler.owes, decide_eq_true_eq] at owes
    rw [← owes, target]
  · rw [ran]
    exact fun _ member => member
  · rw [ran]
    exact lives.ranAt
  · intro r signals
    rw [here] at signals
    cases signals
  · exact place
  · intro c
    rw [calls, countP_congr (fun t _ => signal ⟨c, t⟩)]

/-- A request moves from its handler to the requests that were run. -/
theorem lives_run (handler : (s.processors cpu).handler = .run request) :
    Lives n { s.setHandler cpu (.signal request) with ran := s.ran ++ [(request, cpu)] } := by
  have target : request.target = cpu :=
    lives.owed cpu request (by rw [handler]; simp [Handler.owes])
  generalize shape : ({ s.setHandler cpu (.signal request) with
    ran := s.ran ++ [(request, cpu)] } : State) = s'
  have here : s'.processors cpu = { s.processors cpu with handler := .signal request } := by
    rw [← shape]
    exact setProcessor_self s _
  have elsewhere : ∀ t, t ≠ cpu → s'.processors t = s.processors t := by
    rw [← shape]
    exact fun t other => setProcessor_other s _ other
  have started : s'.started = s.started := by rw [← shape]; rfl
  have calls : s'.calls = s.calls := by rw [← shape]; rfl
  have ran : s'.ran = s.ran ++ [(request, cpu)] := by rw [← shape]
  have place : ∀ r, places s' r = places s r := by
    intro r
    unfold places
    rw [ran, count_append]
    by_cases own : r.target = cpu
    · rw [own, here, handler]
      by_cases same : r = request
      · rw [same, count_singleton_self]
        simp [holds]
        omega
      · have different : request ≠ r := fun other => same other.symm
        have single : List.count (r, cpu) [(request, cpu)] = 0 :=
          count_eq_zero_of_not_mem (by simpa using same)
        rw [single]
        simp [holds, different]
    · have single : List.count (r, r.target) [(request, cpu)] = 0 :=
        count_eq_zero_of_not_mem (by simp [own])
      rw [elsewhere _ own, single, Nat.add_zero]
  have signal : ∀ r, signalled n s' r = signalled n s r := by
    intro r
    unfold signalled
    rw [inserted_of_calls started calls]
    by_cases own : r.target = cpu
    · rw [own, here, handler]
      rfl
    · rw [elsewhere _ own]
  apply lives.handled started (fun _ _ => by rw [calls]) (fun _ => by rw [calls]) elsewhere
  · intro r member
    rw [here] at member
    exact lives.queued cpu r member
  · intro r owes
    rw [here] at owes
    simp only [Handler.owes, decide_eq_true_eq] at owes
    rw [← owes, target]
  · intro entry member
    rw [ran]
    exact mem_append_left _ member
  · intro entry member
    rw [ran, mem_append, mem_singleton] at member
    rcases member with earlier | new
    · exact lives.ranAt entry earlier
    · rw [new]
      exact target.symm
  · intro r signals
    rw [here] at signals
    cases signals
    rw [ran]
    simp
  · exact place
  · intro c
    rw [calls, countP_congr (fun t _ => signal ⟨c, t⟩)]

theorem Lives.signalling (handler : (s.processors cpu).handler = .signal request) :
    request.target = cpu ∧ inserted n s request = true ∧
      request ∉ (s.processors cpu).ipiQueue := by
  have owes : (s.processors cpu).handler.owes request = true := by
    rw [handler]
    simp [Handler.owes]
  have target : request.target = cpu := lives.owed cpu request owes
  have once := lives.once request
  have ranOnce : 0 < s.ran.count (request, request.target) := by
    rw [target]
    exact count_pos_iff.mpr (lives.finished cpu request handler)
  have isInserted : inserted n s request = true := by
    by_contra notInserted
    rw [if_neg notInserted, places] at once
    omega
  refine ⟨target, isInserted, ?_⟩
  intro member
  have queued := count_pos_iff.mpr member
  rw [isInserted, if_pos rfl, places, target] at once
  rw [target] at ranOnce
  omega

/-- The handler signals a request: one off the completion count. -/
theorem lives_signal (handler : (s.processors cpu).handler = .signal request) :
    Lives n ((s.setHandler cpu (.free request)).setCall request.call
      { s.calls request.call with
        completionCount := (s.calls request.call).completionCount - 1 }) := by
  obtain ⟨target, isInserted, notQueued⟩ := lives.signalling handler
  have inside : request.target < n := by
    simp only [inserted, isTarget, Bool.and_eq_true, decide_eq_true_eq] at isInserted
    exact isInserted.1.2.1.1
  generalize shape : (s.setHandler cpu (.free request)).setCall request.call
    { s.calls request.call with
      completionCount := (s.calls request.call).completionCount - 1 } = s'
  have here : s'.processors cpu = { s.processors cpu with handler := .free request } := by
    rw [← shape]
    exact setProcessor_self s _
  have elsewhere : ∀ t, t ≠ cpu → s'.processors t = s.processors t := by
    rw [← shape]
    exact fun t other => setProcessor_other s _ other
  have started : s'.started = s.started := by rw [← shape]; rfl
  have ran : s'.ran = s.ran := by rw [← shape]; rfl
  have call : s'.calls request.call =
      { s.calls request.call with
        completionCount := (s.calls request.call).completionCount - 1 } := by
    rw [← shape]
    exact setCall_self _ _
  have others : ∀ d, d ≠ request.call → s'.calls d = s.calls d := by
    intro d other
    rw [← shape]
    exact setCall_other _ _ other
  have isTarget' : ∀ c t, isTarget n (s'.calls c) t = isTarget n (s.calls c) t := by
    intro c t
    by_cases own : c = request.call
    · rw [own, call]
      rfl
    · rw [others c own]
  have phase : ∀ c, (s'.calls c).phase = (s.calls c).phase := by
    intro c
    by_cases own : c = request.call
    · rw [own, call]
    · rw [others c own]
  have insert : ∀ r, inserted n s' r = inserted n s r := by
    intro r
    apply inserted_congr started (isTarget' _ _)
    rw [phase]
  have place : ∀ r, places s' r = places s r := by
    intro r
    unfold places
    rw [ran]
    by_cases own : r.target = cpu
    · rw [own, here, handler]
      rfl
    · rw [elsewhere _ own]
  have before : signalled n s request = false := by
    rw [signalled, target, handler]
    simp [Handler.owes]
  have after : signalled n s' request = true := by
    rw [signalled, insert, isInserted, target, here]
    simp [notQueued, Handler.owes]
  have signal : ∀ r, r ≠ request → signalled n s' r = signalled n s r := by
    intro r different
    unfold signalled
    rw [insert]
    by_cases own : r.target = cpu
    · have notSame : request ≠ r := fun other => different other.symm
      rw [own, here, handler]
      simp [Handler.owes, notSame]
    · rw [elsewhere _ own]
  apply lives.handled started isTarget' phase elsewhere
  · intro r member
    rw [here] at member
    exact lives.queued cpu r member
  · intro r owes
    rw [here] at owes
    cases owes
  · rw [ran]
    exact fun _ member => member
  · rw [ran]
    exact lives.ranAt
  · intro r signals
    rw [here] at signals
    cases signals
  · exact place
  · intro c
    by_cases own : c = request.call
    · subst own
      have more : ((range n).countP fun t => signalled n s' ⟨request.call, t⟩) =
          ((range n).countP fun t => signalled n s ⟨request.call, t⟩) + 1 := by
        apply countP_flip inside
        · exact before
        · exact after
        · intro t other
          exact (signal ⟨request.call, t⟩ (fun eq => other (congrArg Request.target eq))).symm
      rw [more, call]
      simp only
      omega
    · have rest : ∀ t, signalled n s' ⟨c, t⟩ = signalled n s ⟨c, t⟩ :=
        fun t => signal ⟨c, t⟩ (fun eq => own (congrArg Request.call eq))
      rw [countP_congr (fun t _ => rest t), others c own]

end Lives

end Moves

end MinNT.Ipi
