import Mathlib.Algebra.BigOperators.Fin
import Mathlib.Algebra.Order.BigOperators.Group.Finset
import Mathlib.Logic.Relation
import Runnerd.RecoveryLedger
import Runnerd.RunnerState

/-!
`Recover` of `internal/server/server.go`: a loop that hands the active requests to
workers over an unbuffered channel, and workers that report what they could not recover
on a channel with room for one error a request. Requests are told apart by their place
in the list. The context may be cancelled at any moment, and the budget may be found
exhausted whenever it is looked at.
-/

namespace Runnerd

inductive RecoveryError where
  | canceled (index : Nat)
  | exhausted (index : Nat)
  | failed (index : Nat) (err : String)
  deriving DecidableEq

namespace RecoveryError

def index : RecoveryError → Nat
  | canceled index | exhausted index | failed index _ => index

/-- The request was passed to `recoverRunner`. -/
def passed : RecoveryError → Bool
  | failed _ _ => true
  | _ => false

end RecoveryError

/-- Where the body of `Recover` stands. -/
inductive Dispatcher where
  | starting
  | sending (next : Nat)
  | skipping (next : Nat)
  | waiting
  | returned
  /-- The budget was exhausted before the workers were started. -/
  | refused
  deriving DecidableEq

inductive Worker where
  | unborn
  | idle
  | checking (index : Nat)
  | budgeting (index : Nat)
  | recovering (index : Nat)
  | reporting (error : RecoveryError)
  | ended
  deriving DecidableEq

structure Recovery (workerCount : Nat) where
  dispatcher : Dispatcher := .starting
  workers : Fin workerCount → Worker := fun _ => .unborn
  canceled : Bool := false
  /-- What the channel `recoveryErrors` holds. It is read after the workers have ended. -/
  errors : List RecoveryError := []
  /-- The requests that `recoverRunner` was called for, in the order of the calls. -/
  passed : List Nat := []

section Steps

variable (requests : Nat) {workerCount : Nat}

def Recovery.turn (state : Recovery workerCount) (k : Fin workerCount) (worker : Worker) :
    Recovery workerCount :=
  { state with workers := Function.update state.workers k worker }

inductive Recovery.Step : Recovery workerCount → Recovery workerCount → Prop where
  | cancel {state} (live : state.canceled = false) : Step state { state with canceled := true }
  | nothing {state} (starting : state.dispatcher = .starting) (none_ : requests = 0) :
      Step state { state with dispatcher := .returned }
  | refuse {state} (starting : state.dispatcher = .starting) (some_ : 0 < requests) :
      Step state { state with dispatcher := .refused }
  | start {state} (starting : state.dispatcher = .starting) (some_ : 0 < requests)
      (staffed : 0 < workerCount) :
      Step state { state with dispatcher := .sending 0, workers := fun _ => .idle }
  | hand {state} (i : Nat) (k : Fin workerCount) (sending : state.dispatcher = .sending i)
      (below : i < requests) (free : state.workers k = .idle) :
      Step state { state.turn k (.checking i) with dispatcher := .sending (i + 1) }
  | heed {state} (i : Nat) (sending : state.dispatcher = .sending i) (below : i < requests)
      (done : state.canceled = true) : Step state { state with dispatcher := .skipping i }
  | skip {state} (i : Nat) (skipping : state.dispatcher = .skipping i) (below : i < requests)
      (room : state.errors.length < requests) :
      Step state { state with
        dispatcher := .skipping (i + 1)
        errors := state.errors ++ [.canceled i] }
  | close {state} (ends : state.dispatcher = .sending requests ∨
      state.dispatcher = .skipping requests) : Step state { state with dispatcher := .waiting }
  | end_ {state} (k : Fin workerCount) (closed : state.dispatcher = .waiting)
      (free : state.workers k = .idle) : Step state (state.turn k .ended)
  | check {state} (k : Fin workerCount) (i : Nat) (checking : state.workers k = .checking i) :
      Step state (state.turn k
        (if state.canceled then .reporting (.canceled i) else .budgeting i))
  | exhaust {state} (k : Fin workerCount) (i : Nat) (budgeting : state.workers k = .budgeting i) :
      Step state (state.turn k (.reporting (.exhausted i)))
  | pass {state} (k : Fin workerCount) (i : Nat) (budgeting : state.workers k = .budgeting i) :
      Step state { state.turn k (.recovering i) with passed := state.passed ++ [i] }
  | recover {state} (k : Fin workerCount) (i : Nat) (recovering : state.workers k = .recovering i) :
      Step state (state.turn k .idle)
  | fail {state} (k : Fin workerCount) (i : Nat) (err : String)
      (recovering : state.workers k = .recovering i) :
      Step state (state.turn k (.reporting (.failed i err)))
  | report {state} (k : Fin workerCount) (error : RecoveryError)
      (reporting : state.workers k = .reporting error) (room : state.errors.length < requests) :
      Step state { state.turn k .idle with errors := state.errors ++ [error] }
  | wait {state} (waiting : state.dispatcher = .waiting) (all : ∀ k, state.workers k = .ended) :
      Step state { state with dispatcher := .returned }

def Recovery.Reached (state : Recovery workerCount) : Prop :=
  Relation.ReflTransGen (Recovery.Step requests) {} state

end Steps

section Accounts

variable {requests workerCount : Nat} {state after : Recovery workerCount}

def Dispatcher.handed (requests : Nat) : Dispatcher → Nat
  | .starting | .refused => 0
  | .sending next | .skipping next => next
  | .waiting | .returned => requests

def Worker.held : Worker → Option Held
  | .checking index | .budgeting index => some ⟨index, false⟩
  | .recovering index => some ⟨index, true⟩
  | .reporting error => some ⟨error.index, error.passed⟩
  | .unborn | .idle | .ended => none

def Recovery.ledger (requests : Nat) (state : Recovery workerCount) : ItemLedger (Fin workerCount) where
  handed := state.dispatcher.handed requests
  holds k := (state.workers k).held
  reports := state.errors.map fun error => ⟨error.index, error.passed⟩
  passed := state.passed

theorem held_turn (workers : Fin workerCount → Worker) (k : Fin workerCount) (worker : Worker) :
    (fun other => (Function.update workers k worker other).held) =
      Function.update (fun other => (workers other).held) k worker.held := by
  funext other
  by_cases same : other = k
  · rw [same, Function.update_self, Function.update_self]
  · rw [Function.update_of_ne same, Function.update_of_ne same]

/-- A worker that goes on with what it has in hand. -/
theorem held_same (workers : Fin workerCount → Worker) (k : Fin workerCount) (worker : Worker)
    (same : worker.held = (workers k).held) :
    (fun other => (Function.update workers k worker other).held) =
      fun other => (workers other).held := by
  rw [held_turn, same, Function.update_eq_self]

/-- The worker has been started and has not ended. -/
def Worker.Working (worker : Worker) : Prop := worker ≠ .unborn ∧ worker ≠ .ended

/-- Which workers there are while the body of `Recover` stands where it does. -/
def Recovery.Staffed (requests : Nat) (state : Recovery workerCount) : Prop :=
  match state.dispatcher with
  | .starting | .refused => ∀ k, state.workers k = .unborn
  | .sending next | .skipping next => next ≤ requests ∧ 0 < workerCount ∧
      ∀ k, (state.workers k).Working
  | .waiting => ∀ k, state.workers k ≠ .unborn
  | .returned => (requests = 0 ∧ ∀ k, state.workers k = .unborn) ∨ ∀ k, state.workers k = .ended

theorem turn_all (holds : Worker → Prop) {workers : Fin workerCount → Worker} {k : Fin workerCount}
    {worker : Worker} (all : ∀ k, holds (workers k)) (own : holds worker) :
    ∀ other, holds (Function.update workers k worker other) := by
  intro other
  by_cases same : other = k
  · rw [same, Function.update_self]
    exact own
  · rw [Function.update_of_ne same]
    exact all other

/-- A worker that is neither unborn nor ended goes on. -/
theorem Recovery.Staffed.turn (staffed : state.Staffed requests) {k : Fin workerCount}
    {worker : Worker} (busy : (state.workers k).Working) (goes : worker.Working) :
    (state.turn k worker).Staffed requests := by
  unfold Recovery.Staffed Recovery.turn at *
  dsimp only
  cases place : state.dispatcher with
  | starting =>
      rw [place] at staffed
      exact absurd (staffed k) busy.1
  | refused =>
      rw [place] at staffed
      exact absurd (staffed k) busy.1
  | sending next =>
      rw [place] at staffed
      exact ⟨staffed.1, staffed.2.1, turn_all Worker.Working staffed.2.2 goes⟩
  | skipping next =>
      rw [place] at staffed
      exact ⟨staffed.1, staffed.2.1, turn_all Worker.Working staffed.2.2 goes⟩
  | waiting =>
      rw [place] at staffed
      exact turn_all (· ≠ .unborn) staffed goes.1
  | returned =>
      rw [place] at staffed
      rcases staffed with ⟨_, unborn⟩ | ended
      · exact absurd (unborn k) busy.1
      · exact absurd (ended k) busy.2

theorem staffed_step (staffed : state.Staffed requests)
    (step : Recovery.Step requests state after) : after.Staffed requests := by
  have busy {k : Fin workerCount} {worker : Worker} (here : state.workers k = worker)
      (other : worker.Working) : (state.workers k).Working := here ▸ other
  cases step with
  | cancel live => exact staffed
  | nothing starting none_ =>
      unfold Recovery.Staffed at staffed
      rw [starting] at staffed
      exact .inl ⟨none_, staffed⟩
  | refuse starting some_ =>
      unfold Recovery.Staffed at staffed
      rw [starting] at staffed
      exact staffed
  | start starting some_ workers =>
      exact ⟨Nat.zero_le _, workers, fun _ => ⟨Worker.noConfusion, Worker.noConfusion⟩⟩
  | hand i k sending below free =>
      unfold Recovery.Staffed at staffed
      rw [sending] at staffed
      exact ⟨below, staffed.2.1,
        turn_all Worker.Working staffed.2.2 ⟨Worker.noConfusion, Worker.noConfusion⟩⟩
  | heed i sending below done =>
      unfold Recovery.Staffed at staffed
      rw [sending] at staffed
      exact staffed
  | skip i skipping below room =>
      unfold Recovery.Staffed at staffed
      rw [skipping] at staffed
      exact ⟨below, staffed.2⟩
  | close ends =>
      unfold Recovery.Staffed at staffed
      rcases ends with place | place
      · rw [place] at staffed
        exact fun k => (staffed.2.2 k).1
      · rw [place] at staffed
        exact fun k => (staffed.2.2 k).1
  | end_ k closed free =>
      unfold Recovery.Staffed at staffed ⊢
      simp only [Recovery.turn, closed] at staffed ⊢
      exact turn_all (· ≠ .unborn) staffed Worker.noConfusion
  | check k i checking =>
      refine staffed.turn (busy checking ⟨Worker.noConfusion, Worker.noConfusion⟩) ?_
      split
      · exact ⟨Worker.noConfusion, Worker.noConfusion⟩
      · exact ⟨Worker.noConfusion, Worker.noConfusion⟩
  | exhaust k i budgeting =>
      exact staffed.turn (busy budgeting ⟨Worker.noConfusion, Worker.noConfusion⟩)
        ⟨Worker.noConfusion, Worker.noConfusion⟩
  | pass k i budgeting =>
      exact staffed.turn (busy budgeting ⟨Worker.noConfusion, Worker.noConfusion⟩)
        ⟨Worker.noConfusion, Worker.noConfusion⟩
  | recover k i recovering =>
      exact staffed.turn (busy recovering ⟨Worker.noConfusion, Worker.noConfusion⟩)
        ⟨Worker.noConfusion, Worker.noConfusion⟩
  | fail k i err recovering =>
      exact staffed.turn (busy recovering ⟨Worker.noConfusion, Worker.noConfusion⟩)
        ⟨Worker.noConfusion, Worker.noConfusion⟩
  | report k error reporting room =>
      exact staffed.turn (busy reporting ⟨Worker.noConfusion, Worker.noConfusion⟩)
        ⟨Worker.noConfusion, Worker.noConfusion⟩
  | wait waiting all => exact .inr all

/-- Each step moves one item in the ledger, or none. -/
theorem step_ledger (staffed : state.Staffed requests)
    (step : Recovery.Step requests state after) :
    after.ledger requests = state.ledger requests ∨
      (state.ledger requests).Move (after.ledger requests) := by
  -- a worker that holds what it held before is none of the ledger's moves
  have kept {k : Fin workerCount} {worker : Worker} (same : worker.held = (state.workers k).held) :
      (state.turn k worker).ledger requests = state.ledger requests := by
    unfold Recovery.ledger Recovery.turn
    dsimp only
    rw [held_same state.workers k worker same]
  cases step with
  | cancel live => exact .inl rfl
  | nothing starting none_ => exact .inl (by simp [Recovery.ledger, Dispatcher.handed, starting, none_])
  | refuse starting some_ => exact .inl (by simp [Recovery.ledger, Dispatcher.handed, starting])
  | start starting some_ workers =>
      unfold Recovery.Staffed at staffed
      rw [starting] at staffed
      exact .inl (by simp [Recovery.ledger, Dispatcher.handed, starting, staffed, Worker.held])
  | hand i k sending below free =>
      have moved : (state.ledger requests).Move _ := .hand k (show (state.workers k).held = none by
        rw [free]
        rfl)
      refine .inr (Eq.subst (motive := (state.ledger requests).Move) ?_ moved)
      simp only [Recovery.ledger, Recovery.turn, Dispatcher.handed, sending, held_turn]
      rfl
  | heed i sending below done => exact .inl (by simp [Recovery.ledger, Dispatcher.handed, sending])
  | skip i skipping below room =>
      have moved : (state.ledger requests).Move _ := .skip
      refine .inr (Eq.subst (motive := (state.ledger requests).Move) ?_ moved)
      simp [Recovery.ledger, Dispatcher.handed, skipping, RecoveryError.index, RecoveryError.passed]
  | close ends =>
      refine .inl ?_
      rcases ends with place | place
      · simp [Recovery.ledger, Dispatcher.handed, place]
      · simp [Recovery.ledger, Dispatcher.handed, place]
  | end_ k closed free => exact .inl (kept (by rw [free]; rfl))
  | check k i checking =>
      refine .inl (kept ?_)
      rw [checking]
      split
      · rfl
      · rfl
  | exhaust k i budgeting => exact .inl (kept (by rw [budgeting]; rfl))
  | pass k i budgeting =>
      have moved : (state.ledger requests).Move _ :=
        .pass k i (show (state.workers k).held = some ⟨i, false⟩ by
          rw [budgeting]
          rfl)
      refine .inr (Eq.subst (motive := (state.ledger requests).Move) ?_ moved)
      simp only [Recovery.ledger, Recovery.turn, held_turn]
      rfl
  | recover k i recovering =>
      have moved : (state.ledger requests).Move _ :=
        .release k i (show (state.workers k).held = some ⟨i, true⟩ by
          rw [recovering]
          rfl)
      refine .inr (Eq.subst (motive := (state.ledger requests).Move) ?_ moved)
      simp only [Recovery.ledger, Recovery.turn, held_turn]
      rfl
  | fail k i err recovering => exact .inl (kept (by rw [recovering]; rfl))
  | report k error reporting room =>
      have moved : (state.ledger requests).Move _ :=
        .report k ⟨error.index, error.passed⟩
          (show (state.workers k).held = some ⟨error.index, error.passed⟩ by
            rw [reporting]
            rfl)
      refine .inr (Eq.subst (motive := (state.ledger requests).Move) ?_ moved)
      simp only [Recovery.ledger, Recovery.turn, held_turn, List.map_append, List.map_cons,
        List.map_nil]
      rfl
  | wait waiting all => exact .inl (by simp [Recovery.ledger, Dispatcher.handed, waiting])

theorem reached_kept (reached : state.Reached requests) :
    state.Staffed requests ∧ (state.ledger requests).Balanced := by
  induction reached with
  | refl => exact ⟨fun _ => rfl, ItemLedger.balanced_start _ fun _ => rfl⟩
  | tail _ step ih =>
      refine ⟨staffed_step ih.1 step, ?_⟩
      rcases step_ledger ih.1 step with same | moved
      · exact same ▸ ih.2
      · exact ih.2.move moved

theorem Recovery.Staffed.handed_le (staffed : state.Staffed requests) :
    (state.ledger requests).handed ≤ requests := by
  unfold Recovery.Staffed at staffed
  show state.dispatcher.handed requests ≤ requests
  cases place : state.dispatcher with
  | starting | refused => exact Nat.zero_le _
  | sending next | skipping next =>
      rw [place] at staffed
      exact staffed.1
  | waiting | returned => exact le_rfl

/-- A worker that reports, and the loop that skips a request, find room. -/
theorem room_to_report (reached : state.Reached requests) {k : Fin workerCount}
    {error : RecoveryError} (reporting : state.workers k = .reporting error) :
    state.errors.length < requests := by
  obtain ⟨staffed, balanced⟩ := reached_kept reached
  have held : (state.ledger requests).holds k = some ⟨error.index, error.passed⟩ := by
    show (state.workers k).held = _
    rw [reporting]
    rfl
  have fewer := balanced.reports_lt held
  have size : (state.ledger requests).reports.length = state.errors.length := List.length_map _
  have handed := staffed.handed_le
  omega

theorem room_to_skip (reached : state.Reached requests) {i : Nat}
    (skipping : state.dispatcher = .skipping i) (below : i < requests) :
    state.errors.length < requests := by
  obtain ⟨_, balanced⟩ := reached_kept reached
  have few := balanced.reports_le
  have size : (state.ledger requests).reports.length = state.errors.length := List.length_map _
  have handed : (state.ledger requests).handed = i := by
    show state.dispatcher.handed requests = i
    rw [skipping]
    rfl
  omega

end Accounts

section Progress

variable {requests workerCount : Nat} {state after : Recovery workerCount}

def Worker.left : Worker → Nat
  | .unborn | .idle => 1
  | .checking _ => 5
  | .budgeting _ => 4
  | .recovering _ => 3
  | .reporting _ => 2
  | .ended => 0

def Dispatcher.left (requests : Nat) : Dispatcher → Nat
  | .starting => 5 * requests + 4
  | .sending next => 5 * (requests - next) + 3
  | .skipping next => 5 * (requests - next) + 2
  | .waiting => 1
  | .returned | .refused => 0

/-- How many steps are left at most. A request that is handed over takes five steps, one
of them the dispatcher's. -/
def Recovery.left (requests : Nat) (state : Recovery workerCount) : Nat :=
  state.dispatcher.left requests + ∑ k, (state.workers k).left + if state.canceled then 0 else 1

theorem left_turn (workers : Fin workerCount → Worker) (k : Fin workerCount) (worker : Worker) :
    ∑ other, (Function.update workers k worker other).left + (workers k).left =
      ∑ other, (workers other).left + worker.left := by
  have split_ (each : Fin workerCount → Worker) : ∑ other, (each other).left =
      (each k).left + ∑ other ∈ Finset.univ.erase k, (each other).left :=
    (Finset.add_sum_erase Finset.univ (fun other => (each other).left) (Finset.mem_univ k)).symm
  have same : ∑ other ∈ Finset.univ.erase k, (Function.update workers k worker other).left =
      ∑ other ∈ Finset.univ.erase k, (workers other).left := by
    refine Finset.sum_congr rfl fun other member => ?_
    rw [Function.update_of_ne (Finset.ne_of_mem_erase member)]
  rw [split_ (Function.update workers k worker), split_ workers, Function.update_self, same]
  omega

theorem turn_left {k : Fin workerCount} {worker : Worker}
    (nearer : worker.left < (state.workers k).left) :
    (state.turn k worker).left requests < state.left requests := by
  have turned := left_turn state.workers k worker
  unfold Recovery.left Recovery.turn
  dsimp only
  omega

/-- Every step brings the end nearer, so there is no endless run. -/
theorem left_step (staffed : state.Staffed requests)
    (step : Recovery.Step requests state after) : after.left requests < state.left requests := by
  have goes {k : Fin workerCount} {from_ worker : Worker} (here : state.workers k = from_)
      (nearer : worker.left < from_.left) :
      (state.turn k worker).left requests < state.left requests := turn_left (here ▸ nearer)
  cases step with
  | cancel live => simp [Recovery.left, live]
  | nothing starting none_ => simp [Recovery.left, starting, Dispatcher.left]
  | refuse starting some_ => simp [Recovery.left, starting, Dispatcher.left]
  | start starting some_ workers =>
      unfold Recovery.Staffed at staffed
      rw [starting] at staffed
      simp [Recovery.left, starting, staffed, Dispatcher.left, Worker.left]
  | hand i k sending below free =>
      have turned := left_turn state.workers k (.checking i)
      have four : (Worker.checking i).left = (state.workers k).left + 4 := by
        rw [free]
        rfl
      have five : state.dispatcher.left requests = 5 * (requests - i) + 3 := by
        rw [sending]
        rfl
      have next : (Dispatcher.sending (i + 1)).left requests = 5 * (requests - (i + 1)) + 3 := rfl
      unfold Recovery.left Recovery.turn
      dsimp only
      omega
  | heed i sending below done => simp [Recovery.left, sending, Dispatcher.left]
  | skip i skipping below room =>
      simp only [Recovery.left, skipping, Dispatcher.left]
      omega
  | close ends =>
      rcases ends with place | place
      · simp [Recovery.left, place, Dispatcher.left]
      · simp [Recovery.left, place, Dispatcher.left]
  | end_ k closed free => exact goes free (by decide)
  | check k i checking =>
      refine goes checking ?_
      split
      · exact (by decide : 2 < 5)
      · exact (by decide : 4 < 5)
  | exhaust k i budgeting => exact goes budgeting (by decide : 2 < 4)
  | pass k i budgeting => exact goes budgeting (by decide : 3 < 4)
  | recover k i recovering => exact goes recovering (by decide : 1 < 3)
  | fail k i err recovering => exact goes recovering (by decide : 2 < 3)
  | report k error reporting room => exact goes reporting (by decide : 1 < 2)
  | wait waiting all => simp [Recovery.left, waiting, Dispatcher.left]

/-- `Recover` has returned. -/
def Recovery.Over (state : Recovery workerCount) : Prop :=
  state.dispatcher = .returned ∨ state.dispatcher = .refused

/-- A worker that has a request in hand goes on. -/
theorem worker_progress (reached : state.Reached requests) {k : Fin workerCount} {found : Held}
    (held : (state.workers k).held = some found) : ∃ after, Recovery.Step requests state after := by
  cases here : state.workers k with
  | unborn | idle | ended =>
      rw [here] at held
      cases held
  | checking i => exact ⟨_, .check k i here⟩
  | budgeting i => exact ⟨_, .exhaust k i here⟩
  | recovering i => exact ⟨_, .recover k i here⟩
  | reporting error => exact ⟨_, .report k error here (room_to_report reached here)⟩

/-- There is a next step until `Recover` returns. -/
theorem progress (reached : state.Reached requests) (live : ¬state.Over) :
    ∃ after, Recovery.Step requests state after := by
  obtain ⟨staffed, _⟩ := reached_kept reached
  by_cases busy : ∃ k, (state.workers k).held ≠ none
  · obtain ⟨k, some_⟩ := busy
    obtain ⟨found, held⟩ := Option.ne_none_iff_exists'.mp some_
    exact worker_progress reached held
  · have free (k : Fin workerCount) (started : state.workers k ≠ .unborn)
        (open_ : state.workers k ≠ .ended) : state.workers k = .idle := by
      have none_ : (state.workers k).held = none := not_not.mp fun held => busy ⟨k, held⟩
      cases here : state.workers k with
      | idle => rfl
      | unborn => exact absurd here started
      | ended => exact absurd here open_
      | checking i | budgeting i | recovering i | reporting i =>
          rw [here] at none_
          cases none_
    unfold Recovery.Staffed at staffed
    cases place : state.dispatcher with
    | starting =>
        by_cases none_ : requests = 0
        · exact ⟨_, .nothing place none_⟩
        · exact ⟨_, .refuse place (Nat.pos_of_ne_zero none_)⟩
    | sending next =>
        rw [place] at staffed
        obtain ⟨bound, workers, working⟩ := staffed
        by_cases below : next < requests
        · have first := working ⟨0, workers⟩
          exact ⟨_, .hand next ⟨0, workers⟩ place below (free _ first.1 first.2)⟩
        · exact ⟨_, .close (.inl (by rw [place, le_antisymm bound (not_lt.mp below)]))⟩
    | skipping next =>
        rw [place] at staffed
        by_cases below : next < requests
        · exact ⟨_, .skip next place below (room_to_skip reached place below)⟩
        · exact ⟨_, .close (.inr (by rw [place, le_antisymm staffed.1 (not_lt.mp below)]))⟩
    | waiting =>
        rw [place] at staffed
        by_cases all : ∀ k, state.workers k = .ended
        · exact ⟨_, .wait place all⟩
        · simp only [not_forall] at all
          obtain ⟨k, open_⟩ := all
          exact ⟨_, .end_ k place (free k (staffed k) open_)⟩
    | returned => exact absurd (.inl place) live
    | refused => exact absurd (.inr place) live

theorem returns (reached : state.Reached requests) :
    ∃ after, Relation.ReflTransGen (Recovery.Step requests) state after ∧ after.Over := by
  induction size : state.left requests using Nat.strong_induction_on generalizing state with
  | _ size_ ih =>
      by_cases over_ : state.Over
      · exact ⟨state, .refl, over_⟩
      · obtain ⟨next, step⟩ := progress reached over_
        have nearer := left_step (reached_kept reached).1 step
        obtain ⟨after, run, ended⟩ := ih _ (size ▸ nearer) (reached.tail step) rfl
        exact ⟨after, .head step run, ended⟩

end Progress

section Settled

variable {requests workerCount : Nat} {state : Recovery workerCount}

/-- The request was passed to `recoverRunner` and has one error at most, or it was not and
has one that says so. -/
def Recovery.Settles (state : Recovery workerCount) (i : Nat) : Prop :=
  (i ∈ state.passed ∧ (∀ error ∈ state.errors, error.index = i → error.passed = true) ∧
      (state.errors.map RecoveryError.index).count i ≤ 1) ∨
    (i ∉ state.passed ∧ (∃ error ∈ state.errors, error.index = i ∧ error.passed = false) ∧
      (state.errors.map RecoveryError.index).count i = 1)

structure RecoveryAccounts (requests : Nat) (state : Recovery workerCount) : Prop where
  once : state.passed.Nodup
  workerRoom : ∀ k error, state.workers k = .reporting error → state.errors.length < requests
  skipRoom : ∀ i, state.dispatcher = .skipping i → i < requests → state.errors.length < requests
  nearer : ∀ after, Recovery.Step requests state after → after.left requests < state.left requests
  onward : ¬state.Over → ∃ after, Recovery.Step requests state after
  ended : state.Over → ∀ k, state.workers k = .unborn ∨ state.workers k = .ended
  settled : state.dispatcher = .returned → ∀ i < requests, state.Settles i
  refused : state.dispatcher = .refused → state.passed = [] ∧ state.errors = []

theorem over_workers (staffed : state.Staffed requests) (ended : state.Over) (k : Fin workerCount) :
    state.workers k = .unborn ∨ state.workers k = .ended := by
  unfold Recovery.Staffed at staffed
  rcases ended with place | place
  · rw [place] at staffed
    rcases staffed with ⟨_, unborn⟩ | all
    · exact .inl (unborn k)
    · exact .inr (all k)
  · rw [place] at staffed
    exact .inl (staffed k)

theorem settles_returned (staffed : state.Staffed requests)
    (balanced : (state.ledger requests).Balanced) (place : state.dispatcher = .returned) {i : Nat}
    (below : i < requests) : state.Settles i := by
  have free (k : Fin workerCount) : (state.ledger requests).holds k = none := by
    show (state.workers k).held = none
    rcases over_workers staffed (.inl place) k with here | here
    · rw [here]
      rfl
    · rw [here]
      rfl
  have all : i < (state.ledger requests).handed := by
    show i < state.dispatcher.handed requests
    rw [place]
    exact below
  have indices : (state.ledger requests).reports.map Held.item =
      state.errors.map RecoveryError.index := by
    show (state.errors.map _).map Held.item = _
    rw [List.map_map]
    rfl
  have once := balanced.once
  rw [indices] at once
  rcases balanced.settled free all with ⟨passed, reports⟩ | ⟨unpassed, report, sent, same, skipped⟩
  · refine .inl ⟨passed, fun error member own => ?_, List.nodup_iff_count_le_one.mp once i⟩
    exact reports ⟨error.index, error.passed⟩ (List.mem_map_of_mem member) own
  · obtain ⟨error, member, rfl⟩ := List.mem_map.mp sent
    refine .inr ⟨unpassed, ⟨error, member, same, skipped⟩, ?_⟩
    exact List.count_eq_one_of_mem once (same ▸ List.mem_map_of_mem member)

theorem refused_idle (balanced : (state.ledger requests).Balanced)
    (place : state.dispatcher = .refused) : state.passed = [] ∧ state.errors = [] := by
  have none_ : (state.ledger requests).handed = 0 := by
    show state.dispatcher.handed requests = 0
    rw [place]
    rfl
  constructor
  · refine List.eq_nil_iff_forall_not_mem.mpr fun item member => ?_
    have below := balanced.passed item member
    omega
  · have few := balanced.reports_le
    have size : (state.ledger requests).reports.length = state.errors.length := List.length_map _
    exact List.eq_nil_of_length_eq_zero (by omega)

end Settled

theorem recovery_accounts (requests workerCount : Nat) (state : Recovery workerCount)
    (reached : state.Reached requests) :
    RecoveryAccounts requests state ∧
      ∃ after, Relation.ReflTransGen (Recovery.Step requests) state after ∧ after.Over := by
  obtain ⟨staffed, balanced⟩ := reached_kept reached
  refine ⟨⟨balanced.passes, ?_, ?_, ?_, progress reached, over_workers staffed, ?_, ?_⟩,
    returns reached⟩
  · exact fun k error => room_to_report reached
  · exact fun i => room_to_skip reached
  · exact fun after => left_step staffed
  · exact fun place i => settles_returned staffed balanced place
  · exact refused_idle balanced

/-- One request and one worker. The context is cancelled after the request was handed over. -/
theorem canceled_after_hand : ∃ state : Recovery 1, state.Reached 1 ∧
    state.dispatcher = .returned ∧ state.passed = [] ∧ state.errors = [.canceled 0] :=
  ⟨_, .tail (.tail (.tail (.tail (.tail (.tail (.tail (.tail .refl
    (.start rfl (by decide) (by decide))) (.hand 0 0 rfl (by decide) rfl)) (.cancel rfl))
    (.check 0 0 rfl)) (.report 0 (.canceled 0) rfl (by decide))) (.close (.inl rfl)))
    (.end_ 0 rfl rfl)) (.wait rfl (by decide)), rfl, rfl, rfl⟩

theorem recovery_accounts_canceled : ∃ state : Recovery 1, state.Reached 1 ∧
    state.dispatcher = .returned ∧ RecoveryAccounts 1 state ∧
      ∃ after, Relation.ReflTransGen (Recovery.Step 1) state after ∧ after.Over := by
  obtain ⟨state, reached, place, _⟩ := canceled_after_hand
  exact ⟨state, reached, place, recovery_accounts 1 1 state reached⟩

/-- The budget is exhausted before the dispatch, and no error names the request. -/
theorem recovery_refused : ∃ state : Recovery 1, state.Reached 1 ∧ state.Over ∧ ¬state.Settles 0 := by
  refine ⟨_, .tail .refl (.refuse rfl (by decide)), .inr rfl, ?_⟩
  rintro (⟨passed, _⟩ | ⟨_, ⟨error, member, _⟩, _⟩)
  · cases passed
  · cases member

end Runnerd
