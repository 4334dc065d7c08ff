import Mathlib.Order.Interval.Finset.Nat
import Runnerd.RecoveryDispatch

/-!
`recoveryTimeoutPerRunner` of `internal/server/server.go` and `Recover` on a clock. The
context is the one of `cmd/runnerd/main.go`, whose deadline is `RecoveryTimeout` after the
start. Only calls of `recoverRunner` take time. The clock moves on when nothing else can
happen, and not past the end of a call.
-/

namespace Runnerd

def maxSingleRecoveryTimeout : Duration := 30 * second

def recoveryTimeoutPerRunner (recoveryTimeout : Duration) (deadline : Option Time) (now : Time)
    (requestCount workerCount : Int) : Option Duration :=
  if requestCount ≤ 0 ∨ workerCount ≤ 0 then none
  else
    let budget := match deadline with
      | none => recoveryTimeout
      | some deadline =>
          let remaining := deadline - now
          if recoveryTimeout ≤ 0 ∨ remaining < recoveryTimeout then remaining else recoveryTimeout
    if budget ≤ 0 then
      if deadline.isNone then some maxSingleRecoveryTimeout else none
    else
      let waves := (requestCount + workerCount - 1) / workerCount
      let timeout := budget / waves
      if timeout ≤ 0 then none
      else if timeout > maxSingleRecoveryTimeout then some maxSingleRecoveryTimeout
      else some timeout

section Waves

/-- How often every worker is given a request until all have been handed out. -/
def waves (requests workerCount : Nat) : Nat := (requests + workerCount - 1) / workerCount

variable {requests workerCount : Nat}

theorem waves_mono {fewer : Nat} (le : fewer ≤ requests) :
    waves fewer workerCount ≤ waves requests workerCount := by
  unfold waves
  apply Nat.div_le_div_right
  omega

theorem waves_add (staffed : 0 < workerCount) :
    waves (requests + workerCount) workerCount = waves requests workerCount + 1 := by
  have more : requests + workerCount + workerCount - 1 =
      (requests + workerCount - 1) + workerCount := by omega
  simp only [waves]
  rw [more, Nat.add_div_right _ staffed]

theorem waves_pos (staffed : 0 < workerCount) (some_ : 0 < requests) :
    0 < waves requests workerCount := by
  unfold waves
  apply Nat.div_pos
  · omega
  · exact staffed

/-- One wave that uses its share leaves enough for the others. -/
theorem share_leaves {left : Int} {count : Nat} (some_ : 0 < count) (enough : (count : Int) ≤ left) :
    (count : Int) ≤ left - left / count + 1 := by
  have positive : (0 : Int) < count := by omega
  have split_ : left / count = (left - count) / count + 1 := by
    have := Int.add_ediv_of_dvd_right (a := left - count) (b := count) (c := count) (dvd_refl _)
    rw [Int.sub_add_cancel, Int.ediv_self (by omega)] at this
    exact this
  have small : (left - count) / count ≤ left - count := Int.ediv_le_self _ (by omega)
  omega

theorem timeout_given {budget now : Int} (started : 0 ≤ now) (some_ : 0 < requests)
    (staffed : 0 < workerCount) (enough : (waves requests workerCount : Int) ≤ budget - now) :
    ∃ timeout, recoveryTimeoutPerRunner budget (some budget) now requests workerCount =
      some timeout ∧ 0 ≤ timeout ∧ timeout ≤ (budget - now) / waves requests workerCount := by
  have count := waves_pos staffed some_
  have same : ((requests : Int) + workerCount - 1) / workerCount = waves requests workerCount := by
    unfold waves
    rw [Int.natCast_ediv, Nat.cast_sub (by omega)]
    simp
  have left : (if budget ≤ 0 ∨ budget - now < budget then budget - now else budget) =
      budget - now := by
    split
    · rfl
    · omega
  have positive : 0 < (budget - now) / waves requests workerCount := by
    have := (Int.le_ediv_iff_mul_le (a := 1) (by omega : (0 : Int) < waves requests workerCount)).mpr
      (by omega : 1 * (waves requests workerCount : Int) ≤ budget - now)
    omega
  simp only [recoveryTimeoutPerRunner, left, same]
  rw [if_neg (by omega), if_neg (by omega), if_neg (by omega)]
  by_cases over_ : (budget - now) / (waves requests workerCount : Int) > maxSingleRecoveryTimeout
  · rw [if_pos over_]
    exact ⟨_, rfl, by decide, le_of_lt over_⟩
  · rw [if_neg over_]
    exact ⟨_, rfl, le_of_lt positive, le_refl _⟩

/-- Of as many different numbers below a bound as there are workers, one is the number of
workers below it. -/
theorem exists_early {bound : Nat} (staffed : 0 < workerCount) (last : Fin workerCount → Nat)
    (apart : Function.Injective last) (below : ∀ k, last k < bound) :
    ∃ k, last k + workerCount ≤ bound := by
  by_contra none_
  simp only [not_exists, not_le] at none_
  have few : (Finset.univ.map ⟨last, apart⟩) ⊆ Finset.Ico (bound + 1 - workerCount) bound := by
    intro place member
    simp only [Finset.mem_map, Finset.mem_univ, true_and, Function.Embedding.coeFn_mk] at member
    obtain ⟨k, rfl⟩ := member
    have late := none_ k
    have own := below k
    simp only [Finset.mem_Ico]
    omega
  have size := Finset.card_le_card few
  have high := below ⟨0, staffed⟩
  rw [Finset.card_map, Finset.card_univ, Fintype.card_fin, Nat.card_Ico] at size
  omega

end Waves

structure TimedRecovery (workerCount : Nat) extends Recovery workerCount where
  now : Time := 0
  /-- When the call of `recoverRunner` ends that a worker is in. -/
  ends : Fin workerCount → Time := fun _ => 0

section Clock

variable {workerCount : Nat} (requests : Nat) (budget : Duration)

/-- A step whose outcome does not hang on the clock. -/
structure Untimed (before after : Recovery workerCount) : Prop where
  canceled : after.canceled = before.canceled
  dispatcher : before.dispatcher = .starting → after.dispatcher = .returned
  workers : ∀ k i, before.workers k = .budgeting i ∨ before.workers k = .recovering i →
    after.workers k = before.workers k

def TimedRecovery.timeout (state : TimedRecovery workerCount) (requestCount : Nat) :
    Option Duration :=
  recoveryTimeoutPerRunner budget (some budget) state.now requestCount workerCount

inductive TimedRecovery.Instant : TimedRecovery workerCount → TimedRecovery workerCount → Prop where
  | untimed {state} (after : Recovery workerCount)
      (step : Recovery.Step requests state.toRecovery after)
      (plain : Untimed state.toRecovery after) : Instant state { state with toRecovery := after }
  | expire {state} (live : state.canceled = false) (past : budget ≤ state.now) :
      Instant state { state with canceled := true }
  | refuse {state} (starting : state.dispatcher = .starting) (some_ : 0 < requests)
      (exhausted : state.timeout budget requests = none) :
      Instant state { state with dispatcher := .refused }
  | start {state} (starting : state.dispatcher = .starting) (some_ : 0 < requests)
      (staffed : 0 < workerCount) (timeout : Duration)
      (given : state.timeout budget requests = some timeout) :
      Instant state { state with dispatcher := .sending 0, workers := fun _ => .idle }
  | exhaust {state} (k : Fin workerCount) (i : Nat) (budgeting : state.workers k = .budgeting i)
      (exhausted : state.timeout budget (requests - i) = none) :
      Instant state { state with toRecovery := state.turn k (.reporting (.exhausted i)) }
  | pass {state} (k : Fin workerCount) (i : Nat) (budgeting : state.workers k = .budgeting i)
      (timeout duration : Duration)
      (given : state.timeout budget (requests - i) = some timeout)
      (forward : 0 ≤ duration) (within_ : duration ≤ timeout) :
      Instant state { state with
        toRecovery := { state.turn k (.recovering i) with passed := state.passed ++ [i] }
        ends := Function.update state.ends k (state.now + duration) }
  | recover {state} (k : Fin workerCount) (i : Nat) (recovering : state.workers k = .recovering i)
      (over_ : state.ends k ≤ state.now) :
      Instant state { state with toRecovery := state.turn k .idle }
  | fail {state} (k : Fin workerCount) (i : Nat) (err : String)
      (recovering : state.workers k = .recovering i) (over_ : state.ends k ≤ state.now) :
      Instant state { state with toRecovery := state.turn k (.reporting (.failed i err)) }

inductive TimedRecovery.Step : TimedRecovery workerCount → TimedRecovery workerCount → Prop where
  | instant {state after} (step : Instant requests budget state after) : Step state after
  | elapse {state} (later : Time) (live : ¬state.Over)
      (quiet : ∀ after, ¬Instant requests budget state after) (forward : state.now < later)
      (within_ : ∀ k i, state.workers k = .recovering i → later ≤ state.ends k) :
      Step state { state with now := later }

def TimedRecovery.Reached (state : TimedRecovery workerCount) : Prop :=
  Relation.ReflTransGen (TimedRecovery.Step requests budget) {} state

variable {requests budget} {state after : TimedRecovery workerCount}

theorem instant_step (step : TimedRecovery.Instant requests budget state after) :
    Recovery.Step requests state.toRecovery after.toRecovery := by
  cases step with
  | untimed after step plain => exact step
  | expire live past => exact .cancel live
  | refuse starting some_ exhausted => exact .refuse starting some_
  | start starting some_ staffed timeout given => exact .start starting some_ staffed
  | exhaust k i budgeting exhausted => exact .exhaust k i budgeting
  | pass k i budgeting timeout duration given forward within_ => exact .pass k i budgeting
  | recover k i recovering over_ => exact .recover k i recovering
  | fail k i err recovering over_ => exact .fail k i err recovering

/-- On the clock `Recover` does what it may do without one. -/
theorem timed_reached (reached : state.Reached requests budget) :
    state.toRecovery.Reached requests := by
  induction reached with
  | refl => exact .refl
  | tail _ step ih =>
      cases step with
      | instant step => exact ih.tail (instant_step step)
      | elapse later live quiet forward within_ => exact ih

end Clock

section Schedule

variable {requests workerCount : Nat} {budget : Int}

/-- What a worker leaves for the requests after its last one. One that had none has not
waited yet. -/
def LeavesWaves (requests workerCount : Nat) (budget now : Int) : Option Nat → Prop
  | none => now = 0
  | some last => (waves (requests - last) workerCount : Int) ≤ budget - now + 1

/-- How a worker whose last request is known stands on the clock. -/
def Worker.OnTime (requests workerCount : Nat) (budget now ends : Int) (last : Option Nat) :
    Worker → Prop
  | .unborn => last = none ∧ now = 0
  | .ended => True
  | .idle => LeavesWaves requests workerCount budget now last
  | .checking i | .budgeting i =>
      last = some i ∧ (waves (requests - i) workerCount : Int) ≤ budget - now
  | .recovering i =>
      last = some i ∧ now ≤ ends ∧ (waves (requests - i) workerCount : Int) ≤ budget - ends + 1
  | .reporting error => error.passed = true ∧ LeavesWaves requests workerCount budget now last

structure Scheduled (requests : Nat) (budget : Int) (state : TimedRecovery workerCount)
    (last : Fin workerCount → Option Nat) : Prop where
  staffed : state.toRecovery.Staffed requests
  onTime : ∀ k, (state.workers k).OnTime requests workerCount budget state.now (state.ends k) (last k)
  handed : ∀ k i, last k = some i → i < state.dispatcher.handed requests
  apart : ∀ one two i, last one = some i → last two = some i → one = two
  errors : ∀ error ∈ state.errors, error.passed = true
  goesOn : state.dispatcher ≠ .refused ∧ ∀ i, state.dispatcher ≠ .skipping i
  started : 0 ≤ state.now
  due : state.now ≤ budget
  expired : state.canceled = true → budget ≤ state.now

variable {state after : TimedRecovery workerCount} {last : Fin workerCount → Option Nat}

/-- A worker that has not ended leaves room after its last request. -/
theorem Worker.OnTime.spares {worker : Worker} {now ends : Int} {own : Option Nat}
    (onTime : worker.OnTime requests workerCount budget now ends own) (open_ : worker ≠ .ended) :
    LeavesWaves requests workerCount budget now own := by
  cases worker with
  | unborn =>
      obtain ⟨rfl, first⟩ := onTime
      exact first
  | idle => exact onTime
  | checking i | budgeting i =>
      obtain ⟨rfl, enough⟩ := onTime
      simp only [LeavesWaves]
      omega
  | recovering i =>
      obtain ⟨rfl, later, enough⟩ := onTime
      simp only [LeavesWaves]
      omega
  | reporting error => exact onTime.2
  | ended => exact absurd rfl open_

theorem Worker.OnTime.finished {i : Nat} {now ends : Int} {own : Option Nat}
    (onTime : (Worker.recovering i).OnTime requests workerCount budget now ends own)
    (over_ : ends ≤ now) : LeavesWaves requests workerCount budget now own := by
  obtain ⟨rfl, _, enough⟩ := onTime
  simp only [LeavesWaves]
  omega

/-- When a request is handed out there is time for it and for all after it: some worker has
had none yet, or none since as many others were handed out as there are workers. -/
theorem Scheduled.reserve (scheduled : Scheduled requests budget state last)
    (enough : (waves requests workerCount : Int) ≤ budget) {i : Nat}
    (sending : state.dispatcher = .sending i) (below : i < requests) :
    (waves (requests - i) workerCount : Int) ≤ budget - state.now := by
  have staffed := scheduled.staffed
  unfold Recovery.Staffed at staffed
  rw [sending] at staffed
  obtain ⟨_, some_, working⟩ := staffed
  have spares (k : Fin workerCount) := (scheduled.onTime k).spares (working k).2
  by_cases fresh : ∃ k, last k = none
  · obtain ⟨k, none_⟩ := fresh
    have first := spares k
    rw [none_] at first
    have fewer : waves (requests - i) workerCount ≤ waves requests workerCount :=
      waves_mono (Nat.sub_le _ _)
    simp only [LeavesWaves] at first
    omega
  · simp only [not_exists] at fresh
    have each (k : Fin workerCount) : ∃ place, last k = some place :=
      Option.ne_none_iff_exists'.mp (fresh k)
    choose place places using each
    have apart : Function.Injective place := by
      intro one two same
      exact scheduled.apart one two _ (places one) (same ▸ places two)
    have early (k : Fin workerCount) : place k < i := by
      have handed := scheduled.handed k _ (places k)
      rwa [sending] at handed
    obtain ⟨k, before⟩ := exists_early some_ place apart early
    have left := spares k
    rw [places k] at left
    have more : waves (requests - i + workerCount) workerCount ≤
        waves (requests - place k) workerCount := waves_mono (by omega)
    rw [waves_add some_] at more
    simp only [LeavesWaves] at left
    omega

theorem Scheduled.unborn (scheduled : Scheduled requests budget state last)
    (starting : state.dispatcher = .starting) (k : Fin workerCount) :
    last k = none ∧ state.now = 0 := by
  have staffed := scheduled.staffed
  unfold Recovery.Staffed at staffed
  rw [starting] at staffed
  have onTime := scheduled.onTime k
  rw [staffed k] at onTime
  exact onTime

/-- The timeout that is computed before the workers are started. -/
theorem Scheduled.first (scheduled : Scheduled requests budget state last) (some_ : 0 < requests)
    (workers : 0 < workerCount) (enough : (waves requests workerCount : Int) ≤ budget)
    (starting : state.dispatcher = .starting) :
    ∃ timeout, state.timeout budget requests = some timeout ∧ 0 ≤ timeout ∧
      timeout ≤ (budget - state.now) / waves requests workerCount := by
  apply timeout_given scheduled.started some_ workers
  rw [(scheduled.unborn starting ⟨0, workers⟩).2, sub_zero]
  exact enough

/-- The timeout of a request that a worker has just taken. -/
theorem Scheduled.given (scheduled : Scheduled requests budget state last) {k : Fin workerCount}
    {i : Nat} (budgeting : state.workers k = .budgeting i) :
    ∃ timeout, state.timeout budget (requests - i) = some timeout ∧ 0 ≤ timeout ∧
      timeout ≤ (budget - state.now) / waves (requests - i) workerCount := by
  have onTime := scheduled.onTime k
  rw [budgeting] at onTime
  have below := scheduled.handed k i onTime.1
  have handed := scheduled.staffed.handed_le
  have within_ : i < requests := lt_of_lt_of_le below handed
  exact timeout_given scheduled.started (by omega) k.pos onTime.2

theorem scheduled_start (enough : (waves requests workerCount : Int) ≤ budget) :
    Scheduled requests budget ({} : TimedRecovery workerCount) fun _ => none := by
  constructor
  · exact fun _ => rfl
  · exact fun _ => ⟨rfl, rfl⟩
  · simp
  · simp
  · simp
  · simp
  · exact le_refl _
  · show (0 : Int) ≤ budget
    omega
  · simp

/-- One worker goes on, the others stand as they did. -/
theorem onTime_turn {workers : Fin workerCount → Worker} {now : Int} {ends : Fin workerCount → Int}
    (all : ∀ k, (workers k).OnTime requests workerCount budget now (ends k) (last k))
    {k : Fin workerCount} {worker : Worker} {later : Int} {own : Option Nat}
    (onTime : worker.OnTime requests workerCount budget now later own) (other : Fin workerCount) :
    (Function.update workers k worker other).OnTime requests workerCount budget now
      (Function.update ends k later other) (Function.update last k own other) := by
  by_cases same : other = k
  · subst same
    simpa using onTime
  · simpa [same] using all other

theorem onTime_kept {workers : Fin workerCount → Worker} {now : Int} {ends : Fin workerCount → Int}
    (all : ∀ k, (workers k).OnTime requests workerCount budget now (ends k) (last k))
    {k : Fin workerCount} {worker : Worker}
    (onTime : worker.OnTime requests workerCount budget now (ends k) (last k))
    (other : Fin workerCount) : (Function.update workers k worker other).OnTime requests
      workerCount budget now (ends other) (last other) := by
  have turned := onTime_turn all (k := k) onTime other
  rwa [Function.update_eq_self, Function.update_eq_self] at turned

/-- A worker that goes on with its request, or without one. -/
theorem Scheduled.turn (scheduled : Scheduled requests budget state last) {k : Fin workerCount}
    {worker : Worker}
    (staffed : ((state.turn k worker).Staffed requests))
    (onTime : worker.OnTime requests workerCount budget state.now (state.ends k) (last k)) :
    Scheduled requests budget { state with toRecovery := state.turn k worker } last where
  staffed := staffed
  onTime := onTime_kept scheduled.onTime onTime
  handed := scheduled.handed
  apart := scheduled.apart
  errors := scheduled.errors
  goesOn := scheduled.goesOn
  started := scheduled.started
  due := scheduled.due
  expired := scheduled.expired

/-- The next request goes to an idle worker. -/
theorem Scheduled.hand (scheduled : Scheduled requests budget state last)
    (enough : (waves requests workerCount : Int) ≤ budget) {i : Nat} {k : Fin workerCount}
    (sending : state.dispatcher = .sending i) (below : i < requests)
    (free : state.workers k = .idle) :
    Scheduled requests budget
      { state with toRecovery :=
          { state.turn k (.checking i) with dispatcher := .sending (i + 1) } }
      (Function.update last k (some i)) := by
  have older (one : Fin workerCount) (place : Nat) (had : last one = some place) : place < i := by
    have handed := scheduled.handed one place had
    rwa [sending] at handed
  have own (one : Fin workerCount) (place : Nat)
      (had : Function.update last k (some i) one = some place) :
      (one = k ∧ place = i) ∨ (one ≠ k ∧ last one = some place) := by
    by_cases same : one = k
    · subst same
      simp only [Function.update_self, Option.some.injEq] at had
      exact .inl ⟨rfl, had.symm⟩
    · rw [Function.update_of_ne same] at had
      exact .inr ⟨same, had⟩
  constructor
  · exact staffed_step scheduled.staffed (.hand i k sending below free)
  · have taken : (Worker.checking i).OnTime requests workerCount budget state.now (state.ends k)
        (some i) := ⟨rfl, scheduled.reserve enough sending below⟩
    have turned := onTime_turn scheduled.onTime (k := k) taken
    rwa [Function.update_eq_self] at turned
  · intro one place had
    show place < i + 1
    rcases own one place had with ⟨_, rfl⟩ | ⟨_, had⟩
    · omega
    · have := older one place had
      omega
  · intro one two place first second
    rcases own one place first with ⟨rfl, rfl⟩ | ⟨_, had⟩
    · rcases own two place second with ⟨rfl, _⟩ | ⟨_, had⟩
      · rfl
      · exact absurd (older two place had) (lt_irrefl _)
    · rcases own two place second with ⟨rfl, rfl⟩ | ⟨_, had'⟩
      · exact absurd (older one place had) (lt_irrefl _)
      · exact scheduled.apart one two place had had'
  · exact scheduled.errors
  · simp
  · exact scheduled.started
  · exact scheduled.due
  · exact scheduled.expired

theorem Scheduled.pass (scheduled : Scheduled requests budget state last) {k : Fin workerCount}
    {i : Nat} (budgeting : state.workers k = .budgeting i) {timeout duration : Int}
    (given : state.timeout budget (requests - i) = some timeout) (forward : 0 ≤ duration)
    (within_ : duration ≤ timeout) :
    Scheduled requests budget
      { state with
        toRecovery := { state.turn k (.recovering i) with passed := state.passed ++ [i] }
        ends := Function.update state.ends k (state.now + duration) } last := by
  have onTime := scheduled.onTime k
  rw [budgeting] at onTime
  obtain ⟨own, enough⟩ := onTime
  have below := lt_of_lt_of_le (scheduled.handed k i own) scheduled.staffed.handed_le
  obtain ⟨share, same, _, least⟩ := scheduled.given budgeting
  rw [given] at same
  cases same
  have leaves := share_leaves (waves_pos k.pos (by omega : 0 < requests - i)) enough
  have taken : (Worker.recovering i).OnTime requests workerCount budget state.now
      (state.now + duration) (last k) := by
    have share : duration ≤ (budget - state.now) / (waves (requests - i) workerCount : Int) :=
      le_trans within_ least
    refine ⟨own, ?_, ?_⟩
    · omega
    · omega
  constructor
  · exact staffed_step scheduled.staffed (.pass k i budgeting)
  · have turned := onTime_turn scheduled.onTime (k := k) taken
    rwa [Function.update_eq_self] at turned
  · exact scheduled.handed
  · exact scheduled.apart
  · exact scheduled.errors
  · exact scheduled.goesOn
  · exact scheduled.started
  · exact scheduled.due
  · exact scheduled.expired

/-- A step that leaves the workers, the errors and the clock alone. -/
theorem Scheduled.dispatch (scheduled : Scheduled requests budget state last)
    {dispatcher : Dispatcher}
    (staffed : Recovery.Staffed requests { state.toRecovery with dispatcher := dispatcher })
    (later : state.dispatcher.handed requests ≤ dispatcher.handed requests)
    (goesOn : dispatcher ≠ .refused ∧ ∀ i, dispatcher ≠ .skipping i) :
    Scheduled requests budget
      { state with toRecovery := { state.toRecovery with dispatcher := dispatcher } } last where
  staffed := staffed
  onTime := scheduled.onTime
  handed := fun k i had => lt_of_lt_of_le (scheduled.handed k i had) later
  apart := scheduled.apart
  errors := scheduled.errors
  goesOn := goesOn
  started := scheduled.started
  due := scheduled.due
  expired := scheduled.expired

theorem scheduled_untimed (scheduled : Scheduled requests budget state last)
    (some_ : 0 < requests) (enough : (waves requests workerCount : Int) ≤ budget)
    {next : Recovery workerCount} (step : Recovery.Step requests state.toRecovery next)
    (plain : Untimed state.toRecovery next) :
    ∃ last, Scheduled requests budget { state with toRecovery := next } last := by
  have staffed := staffed_step scheduled.staffed step
  have onTime := scheduled.onTime
  have moved {k : Fin workerCount} {worker : Worker} {here : Worker}
      (before : state.workers k = here) (other : worker ≠ here)
      (same : (state.turn k worker).workers k = state.workers k) : False := by
    simp only [Recovery.turn, Function.update_self, before] at same
    exact other same
  cases step with
  | cancel live =>
      have same := plain.canceled
      simp [live] at same
  | nothing starting none_ => omega
  | refuse starting some_ => cases plain.dispatcher starting
  | start starting some_ workers => cases plain.dispatcher starting
  | hand i k sending below free => exact ⟨_, scheduled.hand enough sending below free⟩
  | heed i sending below done =>
      -- The deadline has passed, yet there is time for what is to be handed out.
      have expired := scheduled.expired done
      have reserve := scheduled.reserve enough sending below
      have count := waves_pos (by
        have := scheduled.staffed
        unfold Recovery.Staffed at this
        rw [sending] at this
        exact this.2.1 : 0 < workerCount) (by omega : 0 < requests - i)
      omega
  | skip i skipping below room => exact absurd skipping (scheduled.goesOn.2 i)
  | close ends =>
      refine ⟨last, scheduled.dispatch staffed ?_
        ⟨Dispatcher.noConfusion, fun _ => Dispatcher.noConfusion⟩⟩
      exact scheduled.staffed.handed_le
  | end_ k closed free => exact ⟨last, scheduled.turn staffed trivial⟩
  | check k i checking =>
      have own := onTime k
      rw [checking] at own
      have below := lt_of_lt_of_le (scheduled.handed k i own.1) scheduled.staffed.handed_le
      have count := waves_pos k.pos (by omega : 0 < requests - i)
      have live : state.canceled = false := by
        by_contra done
        have expired := scheduled.expired (by simpa using done)
        have left := own.2
        omega
      refine ⟨last, scheduled.turn staffed ?_⟩
      rw [live]
      exact own
  | exhaust k i budgeting =>
      exact (moved budgeting (by simp) (plain.workers k i (.inl budgeting))).elim
  | pass k i budgeting =>
      exact (moved budgeting (by simp) (plain.workers k i (.inl budgeting))).elim
  | recover k i recovering =>
      exact (moved recovering (by simp) (plain.workers k i (.inr recovering))).elim
  | fail k i err recovering =>
      exact (moved recovering (by simp) (plain.workers k i (.inr recovering))).elim
  | report k error reporting room =>
      have own := onTime k
      rw [reporting] at own
      refine ⟨last, staffed, onTime_kept onTime own.2, scheduled.handed, scheduled.apart, ?_,
        scheduled.goesOn, scheduled.started, scheduled.due, scheduled.expired⟩
      intro sent member
      rcases List.mem_append.mp member with older | new
      · exact scheduled.errors sent older
      · rw [List.mem_singleton.mp new]
        exact own.1
  | wait waiting all =>
      refine ⟨last, scheduled.dispatch staffed ?_
        ⟨Dispatcher.noConfusion, fun _ => Dispatcher.noConfusion⟩⟩
      exact scheduled.staffed.handed_le

theorem scheduled_instant (scheduled : Scheduled requests budget state last)
    (some_ : 0 < requests) (workers : 0 < workerCount)
    (enough : (waves requests workerCount : Int) ≤ budget)
    (step : TimedRecovery.Instant requests budget state after) :
    ∃ last, Scheduled requests budget after last := by
  have staffed := staffed_step scheduled.staffed (instant_step step)
  have onTime := scheduled.onTime
  cases step with
  | untimed next step plain => exact scheduled_untimed scheduled some_ enough step plain
  | expire live past =>
      exact ⟨last, scheduled.staffed, onTime, scheduled.handed, scheduled.apart, scheduled.errors,
        scheduled.goesOn, scheduled.started, scheduled.due, fun _ => past⟩
  | refuse starting more exhausted =>
      obtain ⟨timeout, given, _⟩ := scheduled.first some_ workers enough starting
      rw [exhausted] at given
      cases given
  | start starting more manned timeout given =>
      refine ⟨last, staffed, fun k => ?_, fun k i had => ?_, scheduled.apart, scheduled.errors,
        by simp, scheduled.started, scheduled.due, scheduled.expired⟩
      · obtain ⟨none_, first⟩ := scheduled.unborn starting k
        show LeavesWaves requests workerCount budget state.now (last k)
        rw [none_]
        exact first
      · rw [(scheduled.unborn starting k).1] at had
        cases had
  | exhaust k i budgeting exhausted =>
      obtain ⟨timeout, given, _⟩ := scheduled.given budgeting
      rw [exhausted] at given
      cases given
  | pass k i budgeting timeout duration given forward within_ =>
      exact ⟨last, scheduled.pass budgeting given forward within_⟩
  | recover k i recovering over_ =>
      have own := onTime k
      rw [recovering] at own
      exact ⟨last, scheduled.turn staffed (own.finished over_)⟩
  | fail k i err recovering over_ =>
      have own := onTime k
      rw [recovering] at own
      exact ⟨last, scheduled.turn staffed ⟨rfl, own.finished over_⟩⟩

theorem untimed_turn {before next : Recovery workerCount} {k : Fin workerCount} {worker : Worker}
    (canceled : next.canceled = before.canceled) (begun : before.dispatcher ≠ .starting)
    (turned : next.workers = Function.update before.workers k worker)
    (free : ∀ i, before.workers k ≠ .budgeting i ∧ before.workers k ≠ .recovering i) :
    Untimed before next := by
  refine ⟨canceled, fun starting => absurd starting begun, fun other i busy => ?_⟩
  rw [turned]
  apply Function.update_of_ne
  rintro rfl
  rcases busy with budgeting | recovering
  · exact (free i).1 budgeting
  · exact (free i).2 recovering

/-- While time passes every worker waits for `recoverRunner` or has ended. -/
theorem quiet_workers (reached : state.Reached requests budget)
    (scheduled : Scheduled requests budget state last) (some_ : 0 < requests)
    (workers : 0 < workerCount) (enough : (waves requests workerCount : Int) ≤ budget)
    (live : ¬state.Over) (quiet : ∀ after, ¬TimedRecovery.Instant requests budget state after)
    (k : Fin workerCount) :
    state.workers k = .ended ∨
      ∃ i, state.workers k = .recovering i ∧ state.now < state.ends k := by
  have begun : state.dispatcher ≠ .starting := by
    intro starting
    obtain ⟨timeout, given, _⟩ := scheduled.first some_ workers enough starting
    exact quiet _ (.start starting some_ workers timeout given)
  have staffed := scheduled.staffed
  unfold Recovery.Staffed at staffed
  -- any other worker has something to do at once
  cases here : state.workers k with
  | ended => exact .inl rfl
  | unborn =>
      cases place : state.dispatcher with
      | starting => exact absurd place begun
      | refused => exact absurd place scheduled.goesOn.1
      | skipping i => exact absurd place (scheduled.goesOn.2 i)
      | returned => exact absurd (.inl place) live
      | sending i =>
          rw [place] at staffed
          exact absurd here (staffed.2.2 k).1
      | waiting =>
          rw [place] at staffed
          exact absurd here (staffed k)
  | idle =>
      have free (i : Nat) : state.workers k ≠ .budgeting i ∧ state.workers k ≠ .recovering i := by
        simp [here]
      cases place : state.dispatcher with
      | starting => exact absurd place begun
      | refused => exact absurd place scheduled.goesOn.1
      | skipping i => exact absurd place (scheduled.goesOn.2 i)
      | returned => exact absurd (.inl place) live
      | sending i =>
          rw [place] at staffed
          by_cases below : i < requests
          · exact absurd (.untimed _ (.hand i k place below here)
              (untimed_turn rfl begun rfl free)) (quiet _)
          · have all : i = requests := le_antisymm staffed.1 (not_lt.mp below)
            exact absurd (.untimed _ (.close (.inl (all ▸ place)))
              ⟨rfl, fun starting => absurd starting begun, fun _ _ _ => rfl⟩) (quiet _)
      | waiting =>
          exact absurd (.untimed _ (.end_ k place here) (untimed_turn rfl begun rfl free)) (quiet _)
  | checking i =>
      exact absurd (.untimed _ (.check k i here) (untimed_turn rfl begun rfl (by simp [here])))
        (quiet _)
  | budgeting i =>
      obtain ⟨timeout, given, forward, _⟩ := scheduled.given here
      exact absurd (.pass k i here timeout 0 given (le_refl _) forward) (quiet _)
  | reporting error =>
      have room := room_to_report (timed_reached reached) here
      exact absurd (.untimed _ (.report k error here room)
        (untimed_turn rfl begun rfl (by simp [here]))) (quiet _)
  | recovering i =>
      refine .inr ⟨i, rfl, ?_⟩
      by_contra over_
      exact quiet _ (.recover k i here (not_lt.mp over_))

/-- A call of `recoverRunner` ends before the deadline. -/
theorem Scheduled.ends_due (scheduled : Scheduled requests budget state last) {k : Fin workerCount}
    {i : Nat} (recovering : state.workers k = .recovering i) : state.ends k ≤ budget := by
  have onTime := scheduled.onTime k
  rw [recovering] at onTime
  obtain ⟨own, _, enough⟩ := onTime
  have below := lt_of_lt_of_le (scheduled.handed k i own) scheduled.staffed.handed_le
  have count := waves_pos k.pos (by omega : 0 < requests - i)
  have due {ends : Int} (left : (waves (requests - i) workerCount : Int) ≤ budget - ends + 1) :
      ends ≤ budget := by omega
  exact due enough

/-- Time passes only while some call goes on. -/
theorem quiet_recovering (reached : state.Reached requests budget)
    (scheduled : Scheduled requests budget state last) (some_ : 0 < requests)
    (workers : 0 < workerCount) (enough : (waves requests workerCount : Int) ≤ budget)
    (live : ¬state.Over) (quiet : ∀ after, ¬TimedRecovery.Instant requests budget state after) :
    ∃ k i, state.workers k = .recovering i := by
  by_contra none_
  simp only [not_exists] at none_
  have ended (k : Fin workerCount) : state.workers k = .ended := by
    rcases quiet_workers reached scheduled some_ workers enough live quiet k with here | ⟨i, here, _⟩
    · exact here
    · exact absurd here (none_ k i)
  have first := ended ⟨0, workers⟩
  have staffed := scheduled.staffed
  unfold Recovery.Staffed at staffed
  cases place : state.dispatcher with
  | starting =>
      rw [place] at staffed
      rw [staffed] at first
      cases first
  | refused => exact absurd place scheduled.goesOn.1
  | skipping i => exact absurd place (scheduled.goesOn.2 i)
  | returned => exact absurd (.inl place) live
  | sending i =>
      rw [place] at staffed
      exact (staffed.2.2 _).2 first
  | waiting =>
      refine quiet _ (.untimed _ (.wait place ended) ⟨rfl, fun starting => ?_, fun _ _ _ => rfl⟩)
      cases place.symm.trans starting

theorem scheduled_elapse (reached : state.Reached requests budget)
    (scheduled : Scheduled requests budget state last) (some_ : 0 < requests)
    (workers : 0 < workerCount) (enough : (waves requests workerCount : Int) ≤ budget)
    {later : Time} (live : ¬state.Over)
    (quiet : ∀ after, ¬TimedRecovery.Instant requests budget state after)
    (forward : state.now < later)
    (within_ : ∀ k i, state.workers k = .recovering i → later ≤ state.ends k) :
    Scheduled requests budget { state with now := later } last := by
  obtain ⟨k, i, recovering⟩ :=
    quiet_recovering reached scheduled some_ workers enough live quiet
  have due : later ≤ budget := le_trans (within_ k i recovering) (scheduled.ends_due recovering)
  refine ⟨scheduled.staffed, fun other => ?_, scheduled.handed, scheduled.apart, scheduled.errors,
    scheduled.goesOn, le_trans scheduled.started forward.le, due,
    fun done => le_trans (scheduled.expired done) forward.le⟩
  have onTime := scheduled.onTime other
  show (state.workers other).OnTime requests workerCount budget later _ _
  rcases quiet_workers reached scheduled some_ workers enough live quiet other with
    ended | ⟨place, busy, _⟩
  · rw [ended]
    trivial
  · rw [busy] at onTime ⊢
    exact ⟨onTime.1, within_ other place busy, onTime.2.2⟩

theorem scheduled_reached (some_ : 0 < requests) (workers : 0 < workerCount)
    (enough : (waves requests workerCount : Int) ≤ budget)
    (reached : state.Reached requests budget) : ∃ last, Scheduled requests budget state last := by
  induction reached with
  | refl => exact ⟨_, scheduled_start enough⟩
  | tail before step ih =>
      obtain ⟨last, scheduled⟩ := ih
      cases step with
      | instant step => exact scheduled_instant scheduled some_ workers enough step
      | elapse later live quiet forward within_ =>
          exact ⟨last, scheduled_elapse before scheduled some_ workers enough live quiet forward
            within_⟩

/-- While `Recover` has not returned there is a next step, at the same moment or later. -/
theorem timed_progress (reached : state.Reached requests budget)
    (scheduled : Scheduled requests budget state last) (some_ : 0 < requests)
    (workers : 0 < workerCount) (enough : (waves requests workerCount : Int) ≤ budget)
    (live : ¬state.Over) : ∃ after, TimedRecovery.Step requests budget state after := by
  by_cases quiet : ∀ after, ¬TimedRecovery.Instant requests budget state after
  · refine ⟨_, .elapse (state.now + 1) live quiet (Int.lt_succ _) fun k i recovering => ?_⟩
    rcases quiet_workers reached scheduled some_ workers enough live quiet k with
      ended | ⟨_, _, later⟩
    · rw [ended] at recovering
      cases recovering
    · exact later
  · simp only [not_forall, not_not] at quiet
    obtain ⟨after, step⟩ := quiet
    exact ⟨after, .instant step⟩

/-- What is left of the budget and of the steps. -/
def TimedRecovery.remaining (requests : Nat) (budget : Int) (state : TimedRecovery workerCount) :
    Nat :=
  (budget - state.now).toNat + state.toRecovery.left requests

theorem instant_now (step : TimedRecovery.Instant requests budget state after) :
    after.now = state.now := by
  cases step <;> rfl

theorem remaining_elapse {now later : Int} (forward : now < later) (due : later ≤ budget) :
    (budget - later).toNat < (budget - now).toNat := by
  omega

theorem remaining_step (staffed : state.toRecovery.Staffed requests) (due : after.now ≤ budget)
    (step : TimedRecovery.Step requests budget state after) :
    after.remaining requests budget < state.remaining requests budget := by
  cases step with
  | instant step =>
      have nearer := left_step staffed (instant_step step)
      have same := instant_now step
      unfold TimedRecovery.remaining
      rw [same]
      omega
  | elapse later live quiet forward within_ =>
      exact Nat.add_lt_add_right (remaining_elapse forward due) _

structure BudgetReaches (requests : Nat) (budget : Int) (state : TimedRecovery workerCount) :
    Prop where
  first : state.dispatcher = .starting → ∃ timeout, state.timeout budget requests = some timeout
  taken : ∀ k i, state.workers k = .budgeting i →
    ∃ timeout, state.timeout budget (requests - i) = some timeout
  dispatched : state.dispatcher ≠ .refused ∧ ∀ i, state.dispatcher ≠ .skipping i
  unskipped : ∀ error ∈ state.errors, error.passed = true
  ends : ∀ k i, state.workers k = .recovering i → state.ends k ≤ budget
  due : state.now ≤ budget
  onward : ¬state.Over → ∃ after, TimedRecovery.Step requests budget state after
  nearer : ∀ after, TimedRecovery.Step requests budget state after →
    after.remaining requests budget < state.remaining requests budget
  all : state.dispatcher = .returned → ∀ i < requests, i ∈ state.passed

theorem timed_settled (some_ : 0 < requests) (workers : 0 < workerCount)
    (enough : (waves requests workerCount : Int) ≤ budget)
    (reached : state.Reached requests budget) : BudgetReaches requests budget state := by
  obtain ⟨last, scheduled⟩ := scheduled_reached some_ workers enough reached
  obtain ⟨staffed, balanced⟩ := reached_kept (timed_reached reached)
  constructor
  · intro starting
    obtain ⟨timeout, given, _⟩ := scheduled.first some_ workers enough starting
    exact ⟨timeout, given⟩
  · intro k i budgeting
    obtain ⟨timeout, given, _⟩ := scheduled.given budgeting
    exact ⟨timeout, given⟩
  · exact scheduled.goesOn
  · exact scheduled.errors
  · exact fun k i => scheduled.ends_due
  · exact scheduled.due
  · exact timed_progress reached scheduled some_ workers enough
  · intro after step
    obtain ⟨_, next⟩ := scheduled_reached some_ workers enough (reached.tail step)
    exact remaining_step staffed next.due step
  · intro place i below
    rcases settles_returned staffed balanced place below with ⟨passed, _⟩ | ⟨_, skipped, _⟩
    · exact passed
    · obtain ⟨error, member, _, unpassed⟩ := skipped
      have passed := scheduled.errors error member
      simp [unpassed] at passed

theorem timed_returns (some_ : 0 < requests) (workers : 0 < workerCount)
    (enough : (waves requests workerCount : Int) ≤ budget)
    (reached : state.Reached requests budget) :
    ∃ after, Relation.ReflTransGen (TimedRecovery.Step requests budget) state after ∧
      after.dispatcher = .returned := by
  induction size : state.remaining requests budget using Nat.strong_induction_on
    generalizing state with
  | _ size_ ih =>
      have settled := timed_settled some_ workers enough reached
      by_cases over_ : state.Over
      · exact ⟨state, .refl, over_.resolve_right settled.dispatched.1⟩
      · obtain ⟨next, step⟩ := settled.onward over_
        obtain ⟨after, run, ended⟩ :=
          ih _ (size ▸ settled.nearer next step) (reached.tail step) rfl
        exact ⟨after, .head step run, ended⟩

end Schedule

theorem budget_reaches_every_request (requests workerCount : Nat) (budget : Int)
    (some_ : 0 < requests) (workers : 0 < workerCount)
    (enough : (waves requests workerCount : Int) ≤ budget) (state : TimedRecovery workerCount)
    (reached : state.Reached requests budget) : BudgetReaches requests budget state ∧
      ∃ after, Relation.ReflTransGen (TimedRecovery.Step requests budget) state after ∧
        after.dispatcher = .returned :=
  ⟨timed_settled some_ workers enough reached, timed_returns some_ workers enough reached⟩

/-- Three requests, two workers and a budget of two nanoseconds. -/
theorem budget_reaches_every_request_tight : BudgetReaches 3 2 ({} : TimedRecovery 2) ∧
    ∃ after, Relation.ReflTransGen (TimedRecovery.Step 3 2) ({} : TimedRecovery 2) after ∧
      after.dispatcher = .returned :=
  budget_reaches_every_request 3 2 2 (by decide) (by decide) (by decide) {} .refl

end Runnerd
