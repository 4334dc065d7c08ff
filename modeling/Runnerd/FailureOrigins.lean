import Runnerd.Custody
import Runnerd.Footprints

/-!
Where the writes come from that put another failure in the place of a recorded
one, or drop it: a stop of a sandbox, a forced stop, a stop whose GitHub cleanup
is refused for good, and a stop for another job than the request's own. An
attempt comes from a claim.
-/

namespace Runnerd

open GoText Interaction Interleaving

section Contract

/-- The goroutine has seen the row of `st` creating or running. -/
def SeenRow (past : List Answered) (st : RunnerState) : Prop :=
  ∃ id base, SeenActive past id ∧ (⟨.readState id, .ok base⟩ : Answered) ∈ past ∧ st.id = base.id

/-- A stop for `job` has marked the row. It was asked for with this job, or has
seen the row active, if the job is not the row's own. -/
structure MarkedFor (stops : WorkflowJob → Prop) (past : List Answered) (marked : RunnerState)
    (job : WorkflowJob) : Prop where
  wrote : (⟨.writeState .stopStopping marked, .ok ()⟩ : Answered) ∈ past
  asked : workflowJobMismatch marked job = true → stops job ∨ SeenRow past marked

/-- GitHub has refused to remove the runner of a marked row, and no retry is
left. Without a sandbox nothing lies between the mark and the refusal. -/
def CleanupRefused (server : Server) (past : List Answered) (st : RunnerState) : Prop :=
  ∃ marked now repository group name err earlier,
    past = ⟨.now, now⟩ :: ⟨.removeRunnerByName repository group name, some err⟩ :: earlier ∧
      Wrote past marked ∧ SameRequest marked.advanced st ∧
      scheduleCleanupRetry server.cfg now marked.advanced err = none ∧
      (marked.sandboxID = "" →
        ∃ before, earlier = ⟨.writeState .stopStopping marked, .ok ()⟩ :: before)

/-- The row is completed, or a stop for another job than its own has marked it. -/
def OtherJob (stops : WorkflowJob → Prop) (past : List Answered) (st : RunnerState) : Prop :=
  ∃ base, Knows past base ∧ SameRequest base st ∧
    (base.status = .completed ∨ ∃ marked job, MarkedFor stops past marked job ∧
      workflowJobMismatch marked job = true ∧ marked.id = base.id ∧
      base.failureStage = marked.failureStage)

def originContract (server : Server) (stops : WorkflowJob → Prop) (past : List Answered) :
    Op → Prop
  | .writeState .stopRetry st | .writeState .stopFailed st | .writeState .forceStopFailed st =>
      st.sandboxID ≠ ""
  | .writeState .forceCleanupRetry st | .writeState .forceFailed st =>
      ∃ base, Knows past base ∧ SameRequest base st ∧ base.failureStage ≠ "admission"
  | .writeState .stopCleanupFailed st => CleanupRefused server past st
  | .writeState .mismatchRequeued st | .writeState .stopMismatched st => OtherJob stops past st
  | .goStartRunner claimed => ∃ workerID at_ leaseTTL req,
      (⟨.claimNextRunnable workerID at_ leaseTTL, .ok (some (req, claimed))⟩ : Answered) ∈ past
  | _ => True

/-- The kinds of calls that the contract says something about. -/
def originKinds : List Kind :=
  [.write .stopRetry, .write .stopFailed, .write .forceStopFailed, .write .forceCleanupRetry,
    .write .forceFailed, .write .stopCleanupFailed, .write .mismatchRequeued,
    .write .stopMismatched, .launch]

variable {server : Server} {stops : WorkflowJob → Prop} {past later : List Answered}

theorem origin_other {op : Op} (other : originKinds.contains op.kind = false) :
    originContract server stops past op := by
  unfold originContract
  split
  case h_10 => trivial
  all_goals exact Bool.noConfusion other

theorem within_origin {α : Type} {kinds : List Kind} {program : Action α}
    (within : Within kinds program) (quiet : kinds.all (fun kind => !originKinds.contains kind) = true)
    {post : α → List Answered → Prop} (done : Onward past post) :
    Keeps (originContract server stops) program post past := by
  refine keeps_calls within (fun past op member => ?_) fun value later extends_ _ =>
    done value later extends_
  have other := List.all_eq_true.mp quiet op.kind (List.contains_iff_mem.mp member)
  exact origin_other (by simpa using other)

theorem SeenRow.extend {st : RunnerState} (seen : SeenRow past st) (extends_ : past <:+ later) :
    SeenRow later st := by
  obtain ⟨id, base, active, reads, same⟩ := seen
  exact ⟨id, base, active.extend extends_, extends_.subset reads, same⟩

theorem MarkedFor.extend {marked : RunnerState} {job : WorkflowJob}
    (origin : MarkedFor stops past marked job) (extends_ : past <:+ later) :
    MarkedFor stops later marked job :=
  ⟨extends_.subset origin.wrote, fun mismatch =>
    (origin.asked mismatch).imp_right fun seen => seen.extend extends_⟩

theorem MarkedFor.knows {marked : RunnerState} {job : WorkflowJob}
    (origin : MarkedFor stops past marked job) : Knows past marked.advanced :=
  .inr ⟨marked, ⟨_, origin.wrote⟩, rfl⟩

end Contract

section Stops
variable {server : Server} {stops : WorkflowJob → Prop} {past : List Answered}
  {post : Except GoError (RunnerState × Bool) → List Answered → Prop}

/-- What is left to a stop when the request is not requeued. -/
def Inspected (st : RunnerState) (later : List Answered) :
    Except GoError (Bool × RunnerState) → Prop
  | .ok (false, next) => next = (unassignedState st).advanced ∧ Knows later next
  | _ => True

theorem requeueMismatchedWorkflowJob_origin
    {post : Except GoError (Bool × RunnerState) → List Answered → Prop} (st : RunnerState)
    (queued : Bool) (other : OtherJob stops past (mismatchRequeuedState st))
    (done : ∀ answer later, past <:+ later → Inspected st later answer → post answer later) :
    Keeps (originContract server stops) (requeueMismatchedWorkflowJob st queued) post past := by
  unfold requeueMismatchedWorkflowJob
  split
  · refine keeps_call True.intro fun answer => ?_
    cases answer with
    | error err => exact keeps_return (done _ _ ⟨[_], rfl⟩ True.intro)
    | ok _ => exact keeps_return (done _ _ ⟨[_], rfl⟩ ⟨rfl, knows_write _ _⟩)
  · refine keeps_call other fun answer => ?_
    cases answer with
    | error err => exact keeps_return (done _ _ ⟨[_], rfl⟩ True.intro)
    | ok _ => exact keeps_return (done _ _ ⟨[_], rfl⟩ True.intro)

theorem stopVerdict_origin {marked : RunnerState} {job : WorkflowJob}
    (origin : MarkedFor stops past marked job) (done : Onward past post) :
    Keeps (originContract server stops) (stopVerdict marked.advanced job) post past := by
  unfold stopVerdict
  split
  · rename_i mismatch
    apply keeps_seq
    refine within_origin (originalWorkflowJobQueued_within _) rfl fun queued later asked => ?_
    have origin := origin.extend asked
    have other : OtherJob stops later (mismatchRequeuedState marked.advanced) :=
      ⟨marked.advanced, origin.knows, ⟨rfl, rfl, rfl⟩,
        .inr ⟨marked, job, origin, mismatch, rfl, rfl⟩⟩
    apply keeps_seq
    refine requeueMismatchedWorkflowJob_origin _ _ other fun answer after further kept => ?_
    rcases answer with err | ⟨_ | _, next⟩
    · exact keeps_return (done _ _ (asked.trans further))
    · obtain ⟨rfl, knows⟩ := kept
      refine keeps_call True.intro fun now => ?_
      have other : OtherJob stops (⟨.now, now⟩ :: after)
          (stopMismatchedState (unassignedState marked.advanced).advanced now) :=
        ⟨_, knows.extend ⟨[_], rfl⟩, ⟨rfl, rfl, rfl⟩,
          .inr ⟨marked, job, origin.extend (further.trans ⟨[_], rfl⟩), mismatch, rfl, rfl⟩⟩
      refine keeps_call other fun answer => ?_
      have so_far := asked.trans further
      cases answer with
      | error err => exact keeps_return (done _ _ (so_far.trans ⟨[_, _], rfl⟩))
      | ok _ => exact keeps_return (done _ _ (so_far.trans ⟨[_, _], rfl⟩))
    · exact keeps_return (done _ _ (asked.trans further))
  · refine keeps_call True.intro fun now => keeps_call True.intro fun answer => ?_
    cases answer with
    | error err => exact keeps_return (done _ _ ⟨[_, _], rfl⟩)
    | ok _ => exact keeps_return (done _ _ ⟨[_, _], rfl⟩)

theorem stopCleanup_origin {marked : RunnerState} {job : WorkflowJob}
    (origin : MarkedFor stops past marked job)
    (next : marked.sandboxID = "" →
      ∃ before, past = ⟨.writeState .stopStopping marked, .ok ()⟩ :: before)
    (done : Onward past post) :
    Keeps (originContract server stops) (stopCleanup server marked.advanced job) post past := by
  unfold stopCleanup cleanupGitHubRunner
  split
  · exact keeps_seq (keeps_return (stopVerdict_origin origin done))
  · split
    · exact keeps_seq (keeps_return (stopVerdict_origin origin done))
    · apply keeps_seq
      refine keeps_last True.intro fun answer => ?_
      cases answer with
      | none => exact stopVerdict_origin (origin.extend ⟨[_], rfl⟩) (done.extend ⟨[_], rfl⟩)
      | some cleanupErr =>
          refine keeps_call True.intro fun now => ?_
          split
          · refine keeps_call True.intro fun answer => ?_
            cases answer with
            | error err => exact keeps_return (done _ _ ⟨[_, _, _], rfl⟩)
            | ok _ => exact keeps_return (done _ _ ⟨[_, _, _], rfl⟩)
          · rename_i unscheduled
            have wrote : Wrote past marked := ⟨_, origin.wrote⟩
            refine keeps_call ⟨marked, now, _, _, _, cleanupErr, past, rfl,
              wrote.extend ⟨[_, _], rfl⟩, ⟨rfl, rfl, rfl⟩, unscheduled, next⟩ fun answer => ?_
            cases answer with
            | error err => exact keeps_return (done _ _ ⟨[_, _, _], rfl⟩)
            | ok _ => exact keeps_return (done _ _ ⟨[_, _, _], rfl⟩)

theorem scheduleStopRetry_sandbox {cfg : Config} {now : Time} {st next : RunnerState}
    {err : GoError} (scheduled : scheduleStopRetry cfg now st err = some next) :
    next.sandboxID = st.sandboxID :=
  congrArg Custody.sandbox (scheduleStopRetry_custody scheduled).2

theorem stopMarked_origin (id : String) {marked : RunnerState} {job : WorkflowJob}
    (asked : workflowJobMismatch marked job = true →
      stops job ∨ SeenRow (⟨.writeState .stopStopping marked, .ok ()⟩ :: past) marked)
    (done : Onward (⟨.writeState .stopStopping marked, .ok ()⟩ :: past) post) :
    Keeps (originContract server stops) (stopMarked server id marked.advanced job) post
      (⟨.writeState .stopStopping marked, .ok ()⟩ :: past) := by
  have origin : MarkedFor stops (⟨.writeState .stopStopping marked, .ok ()⟩ :: past) marked job :=
    ⟨List.mem_cons_self, asked⟩
  unfold stopMarked
  split
  · exact stopCleanup_origin origin (fun _ => ⟨past, rfl⟩) done
  · rename_i named
    have cleanup (later : List Answered)
        (extends_ : ⟨.writeState .stopStopping marked, .ok ()⟩ :: past <:+ later) :
        Keeps (originContract server stops) (stopCleanup server marked.advanced job) post later :=
      stopCleanup_origin (origin.extend extends_) (fun unnamed => absurd unnamed named)
        (done.extend extends_)
    apply keeps_seq
    refine within_origin (stopSandboxWithTimeout_within _ _ _) rfl fun answer later extends_ => ?_
    cases answer with
    | none => exact cleanup later extends_
    | some stopErr =>
        dsimp only
        split
        · exact cleanup later extends_
        · refine keeps_call True.intro fun now => ?_
          split
          · rename_i next scheduled
            have still : next.sandboxID ≠ "" := by
              rw [scheduleStopRetry_sandbox scheduled]
              exact named
            refine keeps_call still fun answer => ?_
            cases answer with
            | error err => exact keeps_return (done _ _ (extends_.trans ⟨[_, _], rfl⟩))
            | ok _ => exact keeps_return (done _ _ (extends_.trans ⟨[_, _], rfl⟩))
          · have still : (stopFailedState marked.advanced stopErr.message).sandboxID ≠ "" := named
            refine keeps_call still fun answer => ?_
            cases answer with
            | error err => exact keeps_return (done _ _ (extends_.trans ⟨[_, _], rfl⟩))
            | ok _ => exact keeps_return (done _ _ (extends_.trans ⟨[_, _], rfl⟩))

/-- A stop of the row `id`: it may be for any job if the goroutine has seen the
row active. -/
theorem stopRunner_origin (id : String) (job : WorkflowJob)
    (asked : job.id ≠ 0 → stops job ∨ SeenActive past id) (done : Onward past post) :
    Keeps (originContract server stops) (stopRunner server id job) post past := by
  refine keeps_call True.intro fun _ => keeps_seq ?_
  have unlocked (answer : Except GoError (RunnerState × Bool)) (later : List Answered)
      (extends_ : past <:+ later) :
      Keeps (originContract server stops) (do unlockRunner id; return answer) post later :=
    keeps_call True.intro fun _ => keeps_return (done _ _ (extends_.trans ⟨[_], rfl⟩))
  refine keeps_call True.intro fun answer => ?_
  cases answer with
  | error err => exact keeps_return (unlocked _ _ ⟨[_, _], rfl⟩)
  | ok base =>
      dsimp only
      split
      · exact keeps_return (unlocked _ _ ⟨[_, _], rfl⟩)
      · split
        · split
          · refine keeps_call True.intro fun answer => ?_
            cases answer with
            | error err => exact keeps_return (unlocked _ _ ⟨[_, _, _], rfl⟩)
            | ok _ => exact keeps_return (unlocked _ _ ⟨[_, _, _], rfl⟩)
          · exact keeps_return (unlocked _ _ ⟨[_, _], rfl⟩)
        · refine keeps_call True.intro fun answer => ?_
          cases answer with
          | error err => exact keeps_return (unlocked _ _ ⟨[_, _, _], rfl⟩)
          | ok _ =>
              refine stopMarked_origin id ?_ fun answer later extends_ =>
                unlocked answer later (List.IsSuffix.trans ⟨[_, _, _], rfl⟩ extends_)
              intro mismatch
              have named : job.id ≠ 0 := by
                simp only [workflowJobMismatch, Bool.and_eq_true, bne_iff_ne] at mismatch
                exact mismatch.1.2
              refine (asked named).imp_right fun seen => ?_
              exact ⟨id, base, seen.extend ⟨[_, _, _], rfl⟩,
                List.mem_cons_of_mem _ List.mem_cons_self, (stopStoppingState_custody base job).1.id⟩

theorem stopIfExists_origin {post : Unit → List Answered → Prop} (id : String)
    (done : Onward past post) :
    Keeps (originContract server stops) (stopIfExists server id {}) post past := by
  refine keeps_call True.intro fun answer => ?_
  cases answer with
  | error err => exact keeps_return (done _ _ ⟨[_], rfl⟩)
  | ok old =>
      apply keeps_seq
      refine stopRunner_origin id {} (fun named => absurd rfl named) fun answer later extends_ => ?_
      exact keeps_return (done _ _ (List.IsSuffix.trans ⟨[_], rfl⟩ extends_))

end Stops

section Forced
variable {server : Server} {stops : WorkflowJob → Prop} {past : List Answered}
  {post : Unit → List Answered → Prop}

theorem forceCleanup_origin {st : RunnerState} (stage reason message : String)
    (knows : Knows past st) (other : st.failureStage ≠ "admission") (done : Onward past post) :
    Keeps (originContract server stops) (forceCleanup server st stage reason message) post past := by
  have write (writer : Writer) (next : RunnerState) (later : List Answered)
      (extends_ : past <:+ later) (permitted : originContract server stops later
        (.writeState writer next)) :
      Keeps (originContract server stops) (writeStateOrLog writer next) post later :=
    keeps_call permitted fun _ => keeps_return (done _ _ (extends_.trans ⟨[_], rfl⟩))
  apply keeps_seq
  refine within_origin (cleanupGitHubRunner_within st) rfl fun answer later extends_ => ?_
  have knows := knows.extend extends_
  cases answer with
  | none =>
      refine keeps_call True.intro fun now => ?_
      refine write _ _ _ (extends_.trans ⟨[_], rfl⟩) ⟨st, knows.extend ⟨[_], rfl⟩, ?_, other⟩
      exact (forceFailedState_custody st stage reason message now).1
  | some cleanupErr =>
      refine keeps_call True.intro fun now => ?_
      split
      · rename_i next scheduled
        refine write _ _ _ (extends_.trans ⟨[_], rfl⟩) ⟨st, knows.extend ⟨[_], rfl⟩, ?_, other⟩
        exact (scheduleCleanupRetry_custody scheduled).1
      · refine keeps_call True.intro fun now => ?_
        refine write _ _ _ (extends_.trans ⟨[_, _], rfl⟩) ⟨st, knows.extend ⟨[_, _], rfl⟩, ?_, other⟩
        exact (forceUnregisteredState_same st message cleanupErr).1.trans
          (forceFailedState_custody _ stage reason message now).1

theorem forceMarked_origin (id : String) {st : RunnerState} (stage reason message : String)
    (knows : Knows past st) (other : st.failureStage ≠ "admission") (done : Onward past post) :
    Keeps (originContract server stops) (forceMarked server id st stage reason message) post
      past := by
  unfold forceMarked
  split
  · exact forceCleanup_origin stage reason message knows other done
  · rename_i named
    apply keeps_seq
    refine within_origin (stopSandboxWithTimeout_within _ _ _) rfl fun answer later extends_ => ?_
    have cleanup : Keeps (originContract server stops)
        (forceCleanup server st stage reason message) post later :=
      forceCleanup_origin stage reason message (knows.extend extends_) other (done.extend extends_)
    cases answer with
    | none => exact cleanup
    | some err =>
        dsimp only
        split
        · exact cleanup
        · have still (message : String) : (stopFailedState st message).sandboxID ≠ "" := named
          exact keeps_call (still _) fun _ => keeps_return (done _ _ (extends_.trans ⟨[_], rfl⟩))

theorem failAndStopRunnerVersion_origin (id : String) (expectedVersion : Nat)
    {stage : String} (reason message : String) (other : stage ≠ "admission")
    (done : Onward past post) :
    Keeps (originContract server stops)
      (failAndStopRunnerVersion server id expectedVersion stage reason message) post past := by
  refine keeps_call True.intro fun _ => keeps_seq ?_
  have unlocked (later : List Answered) (extends_ : past <:+ later) :
      Keeps (originContract server stops) (do unlockRunner id; return ()) post later :=
    keeps_call True.intro fun _ => keeps_return (done _ _ (extends_.trans ⟨[_], rfl⟩))
  refine keeps_call True.intro fun answer => ?_
  cases answer with
  | error err => exact keeps_return (unlocked _ ⟨[_, _], rfl⟩)
  | ok st =>
      dsimp only
      split
      · exact keeps_return (unlocked _ ⟨[_, _], rfl⟩)
      · split
        · exact keeps_return (unlocked _ ⟨[_, _], rfl⟩)
        · refine keeps_call True.intro fun answer => ?_
          cases answer with
          | error err => exact keeps_return (unlocked _ ⟨[_, _, _], rfl⟩)
          | ok _ =>
              refine forceMarked_origin id stage reason message (knows_write _ _) other ?_
              intro _ later extends_
              exact unlocked later (List.IsSuffix.trans ⟨[_, _, _], rfl⟩ extends_)

end Forced

section Loops
variable {server : Server} {stops : WorkflowJob → Prop} {past : List Answered}
  {post : Unit → List Answered → Prop}

theorem processQueuedRequests_origin (rounds : Nat) (done : Onward past post) :
    Keeps (originContract server stops) (processQueuedRequests server rounds) post past := by
  induction rounds generalizing past with
  | zero => exact keeps_return (done _ _ List.suffix_rfl)
  | succ rounds ih =>
      refine keeps_call True.intro fun free => ?_
      cases free with
      | false => exact keeps_return (done _ _ ⟨[_], rfl⟩)
      | true =>
          refine keeps_call True.intro fun now => keeps_call True.intro fun answer => ?_
          rcases answer with err | _ | ⟨req, claimed⟩
          · exact keeps_last True.intro fun _ => done _ _ ⟨[_, _, _, _], rfl⟩
          · exact keeps_last True.intro fun _ => done _ _ ⟨[_, _, _, _], rfl⟩
          · refine keeps_call ⟨_, _, _, req, List.mem_cons_self⟩ fun _ => ?_
            exact ih (done.extend ⟨[_, _, _, _], rfl⟩)

theorem sweepTimeout_origin (now : Time) (st : RunnerState) (done : Onward past post) :
    Keeps (originContract server stops) (sweepTimeout server now st) post past := by
  unfold sweepTimeout
  split
  · split
    · exact within_origin (retryOrFail_within server _ _ _) rfl done
    · exact keeps_return (done _ _ List.suffix_rfl)
  · split
    · exact failAndStopRunnerVersion_origin _ _ _ _ (by decide) done
    · exact keeps_return (done _ _ List.suffix_rfl)
  · split
    · exact stopIfExists_origin st.id done
    · exact keeps_return (done _ _ List.suffix_rfl)
  · exact keeps_return (done _ _ List.suffix_rfl)

theorem sweepIdle_origin (st : RunnerState) (done : Onward past post) :
    Keeps (originContract server stops) (sweepIdle server st) post past := by
  apply keeps_seq
  refine within_origin (originalWorkflowJobQueued_within st) rfl ?_
  rintro (err | _ | _) later asked
  · exact keeps_return (done _ _ asked)
  · apply keeps_seq
    refine within_origin (githubRunnerBusy_within st) rfl ?_
    rintro (err | _ | _) last further
    · exact keeps_return (done _ _ (asked.trans further))
    · exact stopIfExists_origin st.id (done.extend (asked.trans further))
    · exact within_origin (markRunnerJobStarted_within st.id) rfl
        (done.extend (asked.trans further))
  · exact keeps_return (done _ _ asked)

theorem sweepOnce_origin (done : Onward past post) :
    Keeps (originContract server stops) (sweepOnce server) post past := by
  refine keeps_call True.intro fun answer => ?_
  cases answer with
  | error err => exact keeps_return (done _ _ ⟨[_], rfl⟩)
  | ok states =>
      refine keeps_call True.intro fun now => keeps_seq ?_
      refine keeps_each states (fun st _ _ _ _ after => sweepTimeout_origin now st after) ?_
      intro _ later extends_
      refine keeps_each _ (fun st _ _ _ _ after => sweepIdle_origin st after) ?_
      exact done.extend (List.IsSuffix.trans ⟨[_, _], rfl⟩ extends_)

theorem reconcileStopping_origin (st : RunnerState) (done : Onward past post) :
    Keeps (originContract server stops) (reconcileStopping server st) post past := by
  refine keeps_call True.intro fun now => ?_
  split
  · refine keeps_call True.intro fun now => ?_
    split
    · exact stopIfExists_origin st.id (done.extend ⟨[_, _], rfl⟩)
    · exact keeps_return (done _ _ ⟨[_, _], rfl⟩)
  · exact keeps_return (done _ _ ⟨[_], rfl⟩)

theorem reconcileMismatched_origin (st : RunnerState) (done : Onward past post) :
    Keeps (originContract server stops) (reconcileMismatched st) post past := by
  apply keeps_seq
  refine keeps_call True.intro fun _ => keeps_seq (keeps_last True.intro fun answer => ?_)
  refine keeps_call True.intro fun _ => keeps_return ?_
  cases answer with
  | error err => exact keeps_return (done _ _ ⟨[_, _, _], rfl⟩)
  | ok current =>
      dsimp only
      split
      · exact keeps_return (done _ _ ⟨[_, _, _], rfl⟩)
      · apply keeps_seq
        refine within_origin (originalWorkflowJobQueued_within current) rfl fun queued later asked => ?_
        have so_far : past <:+ later := List.IsSuffix.trans ⟨[_, _, _], rfl⟩ asked
        refine keeps_call True.intro fun _ => keeps_seq ?_
        have unlocked (after : List Answered) (extends_ : past <:+ after) :
            Keeps (originContract server stops) (do unlockRunner current.id; return ()) post after :=
          keeps_call True.intro fun _ => keeps_return (done _ _ (extends_.trans ⟨[_], rfl⟩))
        refine keeps_call True.intro fun answer => ?_
        cases answer with
        | error err => exact keeps_return (unlocked _ (so_far.trans ⟨[_, _], rfl⟩))
        | ok latest =>
            dsimp only
            split
            · exact keeps_return (unlocked _ (so_far.trans ⟨[_, _], rfl⟩))
            · rename_i unchanged
              simp only [not_or, not_not] at unchanged
              apply keeps_seq
              refine requeueMismatchedWorkflowJob_origin latest _
                ⟨latest, knows_read _ latest, ⟨rfl, rfl, rfl⟩, .inl unchanged.1⟩ ?_
              intro answer after extends_ _
              exact keeps_return (unlocked _ ((so_far.trans ⟨[_, _], rfl⟩).trans extends_))

theorem reconcileOnce_origin (rounds : Nat) (done : Onward past post) :
    Keeps (originContract server stops) (reconcileOnce server rounds) post past := by
  apply keeps_seq
  refine processQueuedRequests_origin rounds fun _ later extends_ => ?_
  refine keeps_call True.intro fun answer => ?_
  cases answer with
  | error err => exact keeps_return (done _ _ (extends_.trans ⟨[_], rfl⟩))
  | ok states =>
      apply keeps_seq
      refine keeps_each _ (fun st _ _ _ _ after => reconcileStopping_origin st after) ?_
      intro _ swept further
      have so_far : past <:+ swept := (extends_.trans ⟨[_], rfl⟩).trans further
      apply keeps_seq
      refine keeps_call True.intro fun answer => ?_
      have completes (before : List Answered) (reached : past <:+ before) :
          Keeps (originContract server stops) reconcileCompletedWorkflowJobs post before := by
        refine keeps_call True.intro fun answer => ?_
        cases answer with
        | error err => exact keeps_return (done _ _ (reached.trans ⟨[_], rfl⟩))
        | ok states =>
            refine keeps_each states ?_ (done.extend (reached.trans ⟨[_], rfl⟩))
            intro st _ before _ after onward
            apply keeps_seq
            refine within_origin (completeIfWorkflowJobCompleted_within st.id) rfl ?_
            intro _ last ended
            exact keeps_return (onward _ _ ended)
      cases answer with
      | error err => exact keeps_return (completes _ (so_far.trans ⟨[_], rfl⟩))
      | ok states =>
          refine keeps_each states (fun st _ _ _ _ after => reconcileMismatched_origin st after) ?_
          intro _ last ended
          exact completes last ((so_far.trans ⟨[_], rfl⟩).trans ended)

end Loops

section Recovery
variable {server : Server} {stops : WorkflowJob → Prop} {past : List Answered}
  {post : Option GoError → List Answered → Prop}

theorem recoverFailed_origin (st : RunnerState) (stateVersion : Nat) (job : Option WorkflowJob)
    (result : StartResult) (err : GoError) (done : Onward past post) :
    Keeps (originContract server stops) (recoverFailed server st stateVersion job result err) post
      past := by
  have requeues (later : List Answered) (extends_ : past <:+ later) :
      Keeps (originContract server stops) (requeueInterruptedCreation st.id stateVersion) post later :=
    within_origin (requeueInterruptedCreation_within _ _) rfl (done.extend extends_)
  refine keeps_call True.intro fun _ => ?_
  dsimp only
  split
  · apply keeps_seq
    refine failAndStopRunnerVersion_origin _ _ _ _ (by decide) fun _ later extends_ => ?_
    exact keeps_return (done _ _ (List.IsSuffix.trans ⟨[_], rfl⟩ extends_))
  · split
    · exact requeues _ ⟨[_], rfl⟩
    · split
      · apply keeps_seq
        refine failAndStopRunnerVersion_origin _ _ _ _ (by decide) fun _ later extends_ => ?_
        exact keeps_return (done _ _ (List.IsSuffix.trans ⟨[_], rfl⟩ extends_))
      · split
        · apply keeps_seq
          refine within_origin (stopSandboxWithTimeout_within _ _ _) rfl ?_
          intro answer later extends_
          have so_far : past <:+ later := List.IsSuffix.trans ⟨[_], rfl⟩ extends_
          cases answer with
          | none => exact requeues later so_far
          | some stopErr =>
              dsimp only
              split
              · exact requeues later so_far
              · exact keeps_return (done _ _ so_far)
        · exact keeps_return (done _ _ ⟨[_], rfl⟩)

theorem recoverSandbox_origin (st : RunnerState) (stateVersion : Nat) (job : Option WorkflowJob)
    (done : Onward past post) :
    Keeps (originContract server stops) (recoverSandbox server st stateVersion job) post past := by
  refine keeps_call True.intro fun now => ?_
  dsimp only
  split
  · apply keeps_seq
    refine failAndStopRunnerVersion_origin _ _ _ _ (by decide) fun _ later extends_ => ?_
    exact keeps_return (done _ _ (List.IsSuffix.trans ⟨[_], rfl⟩ extends_))
  · refine keeps_call True.intro fun answer => ?_
    cases answer with
    | error err => exact keeps_return (done _ _ ⟨[_, _], rfl⟩)
    | ok req =>
        refine keeps_call True.intro fun answer => ?_
        cases answer with
        | error err => exact keeps_return (done _ _ ⟨[_, _, _], rfl⟩)
        | ok service =>
            refine keeps_call True.intro fun answer => ?_
            rcases answer with ⟨result, _ | err⟩
            · exact within_origin (reconnect_within _ _ _) rfl (done.extend ⟨[_, _, _, _], rfl⟩)
            · exact recoverFailed_origin st stateVersion job result err
                (done.extend ⟨[_, _, _, _], rfl⟩)

theorem recoverActiveRunner_origin (st : RunnerState) (seen : SeenActive past st.id)
    (done : Onward past post) :
    Keeps (originContract server stops) (recoverActiveRunner server st) post past := by
  unfold recoverActiveRunner workflowJobForRecovery
  split
  · exact keeps_seq (keeps_return (recoverSandbox_origin st _ none done))
  · refine keeps_seq (keeps_call True.intro fun answer => ?_)
    cases answer with
    | error err =>
        exact keeps_return (recoverSandbox_origin st _ none (done.extend ⟨[_], rfl⟩))
    | ok job =>
        apply keeps_return
        dsimp only
        split
        · apply keeps_seq
          refine stopRunner_origin st.id job (fun _ => .inr (seen.extend ⟨[_], rfl⟩)) ?_
          intro answer later extends_
          have so_far : past <:+ later := List.IsSuffix.trans ⟨[_], rfl⟩ extends_
          rcases answer with err | ⟨latest, recorded⟩
          · exact keeps_return (done _ _ so_far)
          · dsimp only
            split
            · exact keeps_return (done _ _ so_far)
            · exact recoverSandbox_origin latest _ _ (done.extend so_far)
        · exact recoverSandbox_origin st _ _ (done.extend ⟨[_], rfl⟩)

theorem recoverRunner_origin (id : String) (done : Onward past post) :
    Keeps (originContract server stops) (recoverRunner server id) post past := by
  refine keeps_call True.intro fun _ => keeps_call True.intro fun answer => ?_
  cases answer with
  | error err => exact keeps_call True.intro fun _ => keeps_return (done _ _ ⟨[_, _, _], rfl⟩)
  | ok st =>
      have seen (active : occupied st.status = true) :
          SeenActive (⟨.unlockRunner id, ()⟩ :: ⟨.readState id, .ok st⟩ ::
            ⟨.lockRunner id, ()⟩ :: past) st.id :=
        ⟨st, rfl, active, .inl ((reads_last id st).extend ⟨[_], rfl⟩)⟩
      cases status : st.status with
      | completed =>
          simp only [status]
          exact keeps_call True.intro fun _ => keeps_return (done _ _ ⟨[_, _, _], rfl⟩)
      | failed =>
          simp only [status]
          exact keeps_call True.intro fun _ => keeps_return (done _ _ ⟨[_, _, _], rfl⟩)
      | queued =>
          simp only [status]
          refine keeps_call True.intro fun answer => ?_
          cases answer with
          | error err =>
              exact keeps_call True.intro fun _ => keeps_return (done _ _ ⟨[_, _, _, _], rfl⟩)
          | ok _ =>
              exact keeps_call True.intro fun _ => keeps_return (done _ _ ⟨[_, _, _, _], rfl⟩)
      | stopping =>
          simp only [status]
          refine keeps_call True.intro fun _ => keeps_seq ?_
          refine stopRunner_origin id {} (fun named => absurd rfl named) fun answer later extends_ => ?_
          have so_far : past <:+ later := List.IsSuffix.trans ⟨[_, _, _], rfl⟩ extends_
          cases answer with
          | error err => exact keeps_return (done _ _ so_far)
          | ok _ => exact keeps_return (done _ _ so_far)
      | creating =>
          simp only [status]
          refine keeps_call True.intro fun _ => ?_
          exact recoverActiveRunner_origin st (seen (by rw [status]; rfl))
            (done.extend ⟨[_, _, _], rfl⟩)
      | running =>
          simp only [status]
          refine keeps_call True.intro fun _ => ?_
          exact recoverActiveRunner_origin st (seen (by rw [status]; rfl))
            (done.extend ⟨[_, _, _], rfl⟩)

end Recovery

section Tasks
variable (server : Server)

/-- The jobs that a goroutine is asked to stop for. -/
def Task.stopsFor : Task → WorkflowJob → Prop
  | .workflowJob event, job => job = event.workflowJob
  | _, _ => False

theorem handleWorkflowJob_origin (event : WorkflowJobEvent) :
    Keeps (originContract server (Task.workflowJob event).stopsFor) (handleWorkflowJob server event)
      (fun _ _ => True) [] := by
  have done {α : Type} (past : List Answered) :
      Onward past (fun (_ : α) (_ : List Answered) => True) := fun _ _ _ => True.intro
  unfold handleWorkflowJob
  split
  · apply keeps_seq
    refine within_origin (enqueueWorkflowJob_within server _ _ _ _) rfl fun _ later _ => ?_
    exact keeps_return True.intro
  · exact within_origin (workflowJobInProgress_within _) rfl (done _)
  · apply keeps_seq
    refine within_origin (completedWorkflowJobStopID_within _) rfl fun stopID later _ => ?_
    split
    · exact keeps_return True.intro
    · apply keeps_seq
      refine stopRunner_origin stopID _ (fun _ => .inl rfl) fun answer after _ => ?_
      split
      · exact keeps_last True.intro fun _ => True.intro
      · exact keeps_return True.intro
  · exact keeps_return True.intro

/-- Every goroutine keeps the contract. -/
theorem task_origin (task : Task) :
    Keeps (originContract server task.stopsFor) (taskBody server task) (fun _ _ => True) [] := by
  have done {α : Type} (past : List Answered) :
      Onward past (fun (_ : α) (_ : List Answered) => True) := fun _ _ _ => True.intro
  cases task with
  | workflowJob event => exact handleWorkflowJob_origin server event
  | workflowRun event => exact within_origin (handleWorkflowRunWebhook_within server event) rfl (done _)
  | createRunner input newID =>
      exact within_origin (handleCreateRunner_within server input newID) rfl (done _)
  | retryRunner id =>
      exact keeps_call True.intro fun now => keeps_call True.intro fun _ => keeps_return True.intro
  | deleteRunner id =>
      apply keeps_seq
      refine stopRunner_origin id {} (fun named => absurd rfl named) fun _ _ _ => ?_
      exact keeps_return True.intro
  | runnerStdout id text => exact within_origin (appendRunnerStdout_within id text) rfl (done _)
  | processQueuedRequests rounds => exact processQueuedRequests_origin rounds (done _)
  | sweepOnce => exact sweepOnce_origin (done _)
  | reconcileOnce rounds => exact reconcileOnce_origin rounds (done _)
  | recover id =>
      apply keeps_seq
      refine recoverRunner_origin id fun _ _ _ => ?_
      exact keeps_return True.intro
  | startRunner claimed =>
      apply keeps_seq
      refine within_origin (startRunner_within server _ _) rfl fun _ _ _ => ?_
      exact keeps_last True.intro fun _ => True.intro
  | exitWatch id sandboxID owner =>
      refine keeps_call True.intro fun answer => keeps_seq ?_
      refine within_origin (runnerExited_within server id _ _) rfl fun _ _ _ => ?_
      exact keeps_last True.intro fun _ => True.intro
  | recoveredExitWatch id sandboxID owner =>
      refine keeps_call True.intro fun answer => keeps_call True.intro fun accepted => ?_
      cases accepted with
      | true => exact within_origin (runnerExited_within server id _ _) rfl (done _)
      | false => exact keeps_return True.intro

end Tasks

end Runnerd
