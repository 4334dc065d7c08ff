import Runnerd.Ownership

/-!
How a request is judged. `FailureStage` is written by a failed attempt or a
failed stop and read much later, when `stopRunner` or the exit callback decides
between completed and failed. Two scripts of a request's life are followed
here: starts that fail and are retried, and stops that fail and are retried. In
both, the trace of an error that was overcome decides the verdict, unless a
later write has cleared it.
-/

namespace Runnerd

open GoText Interaction Interleaving Versioned

def cleanlyCompleted (st : RunnerState) : Bool :=
  st.status == .completed && st.failureStage == "" && st.failureReason == "" && st.error == ""

section History

/-- A successful write of the request by this writer. -/
def wroteAs (writer : Writer) (id : String) : Answered → Bool
  | ⟨.writeState other st, .ok ()⟩ => other == writer && sanitizeID st.id == id
  | _ => false

def writesAs (writer : Writer) (trace : List RunnerEvent) (id : String) : Nat :=
  trace.countP fun event => wroteAs writer id event.call

/-- The stop errors that were rescheduled. -/
def stopRetries : List RunnerEvent → String → Nat := writesAs .stopRetry

end History

section Accounts
variable {server : Server} {id : String}

/-- A number read off the calls so far that no call changes but a write or a
manual retry of the request. -/
structure Account (id : String) where
  count : List RunnerEvent → Nat
  blank : count [] = 0
  still : ∀ event trace, rewrites id event.call = false → count (event :: trace) = count trace

theorem Account.absent (account : Account id) {trace : List RunnerEvent}
    (none : ∀ event ∈ trace, rewrites id event.call = false) : account.count trace = 0 := by
  induction trace with
  | nil => exact account.blank
  | cons event trace ih =>
      rw [account.still event trace (none event (by simp))]
      exact ih fun older member => none older (by simp [member])

/-- A fact about a request's core and its account, along the runs in which its
calls meet a condition. -/
theorem account_reachable (account : Account id) (fact : Nat → Core → Prop)
    {guard : RunnerWorld → RunnerThread → Answered → Bool} {table : RequestTable}
    (first : ∀ row ∈ table.rows, row.id = id → fact 0 (rowCore row))
    (admitted : ∀ {world thread now req links status stage reason message st},
      (∃ condition, (machine server).Reaches condition (opened table) world) →
      (∀ row ∈ world.state.table.rows, row.id ≠ id) →
      guard world thread ⟨.createRequest req links status stage reason message, .ok (true, st)⟩ =
        true → contract server thread.past (.createRequest req links status stage reason message) →
      sanitizeID req.id = id →
      fact 0 (rowCore (admittedRecord now req links status stage reason message)))
    (retried : ∀ {world : RunnerWorld} {tid thread other at_ st row},
      guard world thread ⟨.retryRequest other at_, .ok st⟩ = true → sanitizeID other = id →
      fact (account.count (eventOf tid thread (.retryRequest other at_) (.ok st) :: world.trace))
        (rowCore (retryUpdates at_ row)))
    (written : ∀ {world tid thread writer base st},
      guard world thread ⟨.writeState writer st, .ok ()⟩ = true → sanitizeID st.id = id →
      Edit server thread.past writer base st → fact (account.count world.trace) (core base) →
      fact (account.count (eventOf tid thread (.writeState writer st) (.ok ()) :: world.trace))
        (core st))
    {world : RunnerWorld}
    (reaches : (machine server).Reaches
      (fun world move => watched server guard world move = true) (opened table) world) :
    ∀ row ∈ world.state.table.rows, row.id = id →
      fact (account.count world.trace) (rowCore row) := by
  refine history_invariant (fun trace row => row.id = id →
    fact (account.count trace) (rowCore row)) ?_ ?_ ?_ ?_ reaches
  · intro row member same
    rw [account.blank]
    exact first row member same
  · intro world tid choice thread op resp state row before turn meets news absent same
    have guard := turn.watched_call meets
    subst same
    cases news with
    | created =>
        -- a request whose row is new was never rewritten: a rewritten row stays
        rw [account.still _ _ rfl, account.absent fun event member => ?_]
        · exact admitted ⟨_, before⟩ absent guard turn.permits rfl
        · by_contra rewrote
          obtain ⟨row, present, key⟩ :=
            rewritten_row before member (Bool.eq_true_of_not_eq_false rewrote)
          exact absent row present key
  · intro world tid choice thread op resp state row before turn meets here still known same
    subst same
    rw [account.still _ _ (turn.unrewritten here still)]
    exact known rfl
  · intro world tid choice thread op resp state row next before turn meets here known change same
    have guard := turn.watched_call meets
    have named : row.id = id := change.sameID.symm.trans same
    have known := known named
    cases change with
    | @written writer st base row matched knows edit stored =>
        simp only [versionMatches, Bool.and_eq_true, beq_iff_eq] at matched
        rw [stored] at known
        exact written guard (matched.1.symm.trans named) edit known
    | claimed free =>
        rw [account.still _ _ rfl]
        exact known
    | released matched =>
        rw [account.still _ _ rfl]
        exact known
    | retried allowed other => exact retried guard (other.symm.trans named)

end Accounts

section Starts

/-- What an exit callback is answered when the runner exits cleanly and its
cleanup succeeds. -/
def exitClean : Answered → Bool
  | ⟨.awaitProcess _, (result, err)⟩ => result.exitCode == 0 && err.isNone
  | ⟨.removeRunnerByName _ _ _, answer⟩ => answer.isNone
  | call => !stopRefused call

/-- The failed attempts that a request still shows after a write. Recoveries,
requeues after a mismatch and the completions that overwrite every failure column
forget them. -/
def Writer.failuresAfter (failures : Nat) : Writer → Nat
  | .failStart | .retryOrFail => failures + 1
  | .recoverReconnected | .requeueInterrupted | .mismatchRequeued | .completeWithoutSandbox
  | .stopMismatched | .completeReconciled => 0
  | _ => failures

def failuresAfter (id : String) (failures : Nat) : Answered → Nat
  | ⟨.writeState writer st, .ok ()⟩ =>
      if sanitizeID st.id = id then writer.failuresAfter failures else failures
  | ⟨.retryRequest other _, .ok _⟩ => if sanitizeID other = id then 0 else failures
  | _ => failures

/-- The attempts to start the request that failed, in `startRunner` or by the
sweeper's timeout, since its failure columns were last cleared. -/
def startFailures (trace : List RunnerEvent) (id : String) : Nat :=
  trace.foldr (fun event failures => failuresAfter id failures event.call) 0

def startAccount (id : String) : Account id where
  count trace := startFailures trace id
  blank := rfl
  still := by
    rintro ⟨tid, task, ⟨op, resp⟩⟩ trace unwritten
    simp only [startFailures, List.foldr_cons]
    cases op with
    | writeState writer st =>
        cases resp with
        | error err => rfl
        | ok done => simp_all [rewrites, failuresAfter]
    | retryRequest other at_ =>
        cases resp with
        | error err => rfl
        | ok st => simp_all [rewrites, failuresAfter]
    | _ => rfl

/-- The writes of a request whose attempts may fail and be retried, be interrupted
and recovered, until its runner exits or its job completes. What is left out are
the unclean ends: a stop or a cleanup that is refused, a runner that is stopped by
force, and an exit that GitHub contradicts. -/
def startScript (thread : RunnerThread) : Writer → Bool
  | .exited => thread.past.all exitClean
  | .exitedCleanupRetry | .keepRunning | .stopRetry | .stopFailed | .stopCleanupRetry
  | .stopCleanupFailed | .forceStopping | .forceStopFailed | .forceCleanupRetry
  | .forceFailed => false
  | _ => true

/-- The request is admitted and follows the script. -/
def startGuard (id : String) (_ : RunnerWorld) (thread : RunnerThread) : Answered → Bool
  | ⟨.writeState writer st, .ok ()⟩ => sanitizeID st.id != id || startScript thread writer
  | ⟨.createRequest req _ status _ _ _, _⟩ => sanitizeID req.id != id || status == .queued
  | _ => true

/-- Failed attempts leave their stage in the request, and nothing else does. -/
structure Told (failures : Nat) (c : Core) : Prop where
  clean : failures = 0 →
    c.status ≠ .failed ∧ c.failureStage = "" ∧ c.failureReason = "" ∧ c.error = ""
  marked : 0 < failures → c.failureStage ∈ attemptStages

variable {server : Server} {past : List Answered}

theorem told_kept {failures : Nat} {c d : Core} (told : Told failures c)
    (status : d.status ≠ .failed) (stage : d.failureStage = c.failureStage)
    (reason : d.failureReason = c.failureReason) (error : d.error = c.error ∨ d.error = "") :
    Told failures d := by
  constructor
  · intro none
    obtain ⟨_, noStage, noReason, noError⟩ := told.clean none
    refine ⟨status, stage.trans noStage, reason.trans noReason, ?_⟩
    rcases error with same | empty
    · exact same.trans noError
    · exact empty
  · intro some
    rw [stage]
    exact told.marked some

theorem applyFailure_stage (cfg : Config) (now : Time) (st : RunnerState) (stage : String)
    (err : GoError) (allowRetry : Bool) :
    (applyFailure cfg now st stage err allowRetry).failureStage = stage := by
  unfold applyFailure
  dsimp only
  split
  · rfl
  · split <;> rfl

theorem attempt_stage {stage : String} (known : stage ∈ attemptStages) :
    stage ≠ "" ∧ stage ≠ "cleanup" := by
  simp only [attemptStages, List.mem_cons, List.not_mem_nil, or_false] at known
  rcases known with rfl | rfl | rfl | rfl | rfl | rfl | rfl | rfl <;> decide

/-- A clean exit completes the request and leaves its failure columns alone. -/
theorem exits_clean {base st : RunnerState} {err cleanup : Option GoError}
    (exits : Exits past base st err cleanup) (clean : past.all exitClean = true) :
    core st = { core base with status := .completed } := by
  rw [List.all_eq_true] at clean
  obtain ⟨sandboxID, result, now, awaited, rfl⟩ := exits.result
  have exit := clean _ awaited
  simp only [exitClean, Bool.and_eq_true, beq_iff_eq, Option.isNone_iff_eq_none] at exit
  obtain ⟨code, rfl⟩ := exit
  have cleaned : cleanup = none := by
    by_contra failed
    obtain ⟨call, member, refused⟩ := exits.refused (Option.isSome_iff_ne_none.mpr failed)
    have passed := clean call member
    unfold exitClean at passed
    split at passed
    · cases refused
    · cases refused
    · simp [refused] at passed
  subst cleaned
  have alive : base.status ≠ .failed := by
    intro failed
    have active := exits.occupied
    simp [occupied, failed] at active
  simp [exitedState, code, exitCleanedState, alive, core]

/-- A stop judges by the stage it finds. -/
theorem stopFinished_core (base : RunnerState) (now : Time) :
    (base.failureStage ≠ "" ∧ base.failureStage ≠ "cleanup" →
      core (stopFinishedState base now) = { core base with status := .failed }) ∧
    (base.failureStage = "" ∨ base.failureStage = "cleanup" →
      core (stopFinishedState base now) =
        { core base with
          status := .completed, failureStage := "", failureReason := "", error := "" }) := by
  unfold stopFinishedState
  constructor
  · intro marked
    rw [if_pos marked]
    rfl
  · intro unmarked
    have judged : ¬(base.failureStage ≠ "" ∧ base.failureStage ≠ "cleanup") := by
      rintro ⟨named, other⟩
      rcases unmarked with empty | cleanup
      · exact named empty
      · exact other cleanup
    rw [if_neg judged]
    rfl

theorem stopStopping_core (base : RunnerState) (job : WorkflowJob) :
    core (stopStoppingState base job) = { core base with status := .stopping } := by
  unfold stopStoppingState recordAssignedJob
  split <;> rfl

theorem told_cleared {c : Core} (status : c.status ≠ .failed) (stage : c.failureStage = "")
    (reason : c.failureReason = "") (error : c.error = "") : Told 0 c :=
  ⟨fun _ => ⟨status, stage, reason, error⟩, nofun⟩

theorem told_failed {failures : Nat} (cfg : Config) (now : Time) (st : RunnerState)
    {stage : String} (err : GoError) (known : stage ∈ attemptStages) :
    Told (failures + 1) (core (applyFailure cfg now st stage err true)) := by
  constructor
  · intro none
    cases none
  · intro _
    rw [core, applyFailure_stage]
    exact known

/-- A scripted write keeps the account. -/
theorem told_edit {thread : RunnerThread} {writer : Writer} {base st : RunnerState} {failures : Nat}
    (edit : Edit server thread.past writer base st) (script : startScript thread writer = true)
    (told : Told failures (core base)) : Told (writer.failuresAfter failures) (core st) := by
  have kept (same : core st = core base) : Told failures (core st) := same ▸ told
  cases edit with
  | startCreating admission expires =>
      exact told_kept told (by decide : Status.creating ≠ .failed) rfl rfl (.inl rfl)
  | startSnapshot reads service => exact kept rfl
  | startRunning creating started =>
      exact told_kept told (by decide : Status.running ≠ .failed) rfl rfl (.inr rfl)
  | completeWithoutSandbox unplaced job now => exact told_cleared nofun rfl rfl rfl
  | markInProgress reads unstopped job => exact kept rfl
  | markJobStarted reads unstopped => exact kept rfl
  | failStart unstopped known err now => exact told_failed _ _ _ _ known
  | failSnapshot refused err now => exact told_failed _ _ _ _ (by decide)
  | exited exits =>
      rw [exits_clean exits script]
      exact told_kept told (by simp) rfl rfl (.inl rfl)
  | exitedUnregistered exits cleanupErr registered =>
      obtain ⟨repository, group, name, member⟩ := registered
      cases List.all_eq_true.mp script _ member
  | recoverQueued reads queued => exact kept rfl
  | recoverReconnected recovers => exact told_cleared nofun rfl rfl rfl
  | requeueInterrupted creating => exact told_cleared nofun rfl rfl rfl
  | stopAssignment completed job => exact kept rfl
  | stopStopping locked uncompleted job =>
      rw [stopStopping_core]
      exact told_kept told (by simp) rfl rfl (.inl rfl)
  | mismatchInspected ended => exact kept rfl
  | mismatchRequeued ended => exact told_cleared nofun rfl rfl rfl
  | stopMismatched ends now => exact told_cleared nofun rfl rfl rfl
  | stopFinished ends now =>
      obtain ⟨failed, completed⟩ := stopFinished_core base now
      change Told failures _
      rcases Nat.eq_zero_or_pos failures with none | some
      · obtain ⟨_, stage, _⟩ := told.clean none
        rw [completed (.inl stage), none]
        exact told_cleared nofun rfl rfl rfl
      · -- the stage of a failed attempt makes the end of the runner a failure
        have stage := told.marked some
        rw [failed (attempt_stage stage)]
        constructor
        · intro none
          omega
        · intro _
          exact stage
  | retryOrFail unfinished seen known err now => exact told_failed _ _ _ _ known
  | deferQueued reads queued owned nextAttempt => exact kept rfl
  | completeReconciled failed now => exact told_cleared nofun rfl rfl rfl
  | _ => cases script

/-- A request that was just admitted, or is still to come. -/
def Unstarted (table : RequestTable) (id : String) : Prop :=
  ∀ row ∈ table.rows, row.id = id →
    row.status = .queued ∧ row.failureStage = "" ∧ row.failureReason = "" ∧ row.error = ""

theorem told_reachable {world : RunnerWorld} {table : RequestTable} {id : String}
    (unstarted : Unstarted table id)
    (reaches : (machine server).Reaches
      (fun world move => watched server (startGuard id) world move = true) (opened table) world) :
    ∀ row ∈ world.state.table.rows, row.id = id →
      Told (startFailures world.trace id) (rowCore row) := by
  refine account_reachable (startAccount id) Told ?_ ?_ ?_ ?_ reaches
  · intro row member same
    obtain ⟨queued, fields⟩ := unstarted row member same
    refine ⟨fun _ => ⟨?_, fields⟩, nofun⟩
    change row.status ≠ .failed
    rw [queued]
    exact nofun
  · intro world thread now req links status stage reason message st _ _ guard permitted same
    have queued : status = .queued := by simpa [startGuard, same] using guard
    rcases permitted with ⟨_, rfl, rfl, rfl⟩ | ⟨failed, _⟩
    · subst queued
      exact told_cleared nofun rfl rfl rfl
    · rw [queued] at failed
      cases failed
  · intro world tid thread other at_ st row _ named
    have cleared : (startAccount id).count
        (eventOf tid thread (.retryRequest other at_) (.ok st) :: world.trace) = 0 := by
      simp [startAccount, startFailures, failuresAfter, named]
    rw [cleared]
    exact told_cleared nofun rfl rfl rfl
  · intro world tid thread writer base st guard key edit told
    have counted : (startAccount id).count
        (eventOf tid thread (.writeState writer st) (.ok ()) :: world.trace) =
          writer.failuresAfter ((startAccount id).count world.trace) := by
      simp [startAccount, startFailures, failuresAfter, key]
    rw [counted]
    exact told_edit edit (by simpa [startGuard, key] using guard) told

/-- Along the scripted runs a request ends cleanly completed exactly if no attempt
to start it has failed since its failure columns were last cleared. -/
theorem retried_start_outcome {world : RunnerWorld} {table : RequestTable} {id : String}
    (unstarted : Unstarted table id)
    (reaches : (machine server).Reaches
      (fun world move => watched server (startGuard id) world move = true) (opened table) world)
    {row : RunnerRequestRecord} (here : row ∈ world.state.table.rows) (named : row.id = id)
    (ended : row.status = .completed ∨ row.status = .failed) :
    cleanlyCompleted row.toRunnerState = true ↔ startFailures world.trace id = 0 := by
  have told := told_reachable unstarted reaches row here named
  simp only [cleanlyCompleted, Bool.and_eq_true, beq_iff_eq, and_assoc]
  constructor
  · rintro ⟨_, stage, _⟩
    by_contra some
    have known : row.failureStage ∈ attemptStages := told.marked (Nat.pos_of_ne_zero some)
    exact (attempt_stage known).1 stage
  · intro none
    obtain ⟨alive, fields⟩ := told.clean none
    exact ⟨ended.resolve_right alive, fields⟩

/-- A goroutine for such a task has run to its end. -/
def handled (world : RunnerWorld) (which : Task → Bool) : Bool :=
  world.threads.any fun thread =>
    which thread.task && match thread.rest with
      | .pure _ => true
      | .call _ _ => false

def completionOf (jobID : Int) : Task → Bool
  | .workflowJob event => event.action == .completed && event.workflowJob.id == jobID
  | _ => false

def exitOfRequest (id : String) : Task → Bool
  | .exitWatch other _ _ => other == id
  | _ => false

/-- The sweeper, goroutine 3, gives the first attempt up at its timeout. The second,
goroutine 5, is cut off by a restart, and the recovery, goroutine 6, requeues the
request. The third, goroutine 8, starts the runner, which goroutine 9 watches. -/
def untilRecovered : List RunnerMove :=
  untilStart ++ .start .sweepOnce :: turns 3 (plain 1 ++ { now := 61 * second } :: plain 5) ++
    .start (.processQueuedRequests 1) :: turns 4 (plain 1 ++ { now := 100 * second } :: plain 2) ++
    turns 5 (plain 10 ++ { job := .ok (sampleJob 1) } :: plain 3) ++
    .crash :: .start (.recover "1") ::
      turns 6 (plain 3 ++ { job := .ok (sampleJob 1) } :: plain 9) ++
    .start (.processQueuedRequests 1) :: turns 7 (plain 4) ++
    turns 8 (plain 10 ++ { job := .ok (sampleJob 1) } :: plain 3 ++ startedAs "sbx" :: plain 4)

/-- The recovery has cleared the failed attempt, so the request is completed. -/
theorem retried_start_outcome_unfailed :
    ∃ world row, (machine sampleServer).Reaches
        (fun world move => watched sampleServer (startGuard "1") world move = true)
        (opened .empty) world ∧ row ∈ world.state.table.rows ∧ row.id = "1" ∧
      0 < writesAs .retryOrFail world.trace "1" ∧ startFailures world.trace "1" = 0 ∧
      cleanlyCompleted row.toRunnerState = true := by
  have ran : ((machine sampleServer).runChecked (watched sampleServer (startGuard "1"))
      (untilRecovered ++ turns 9 (plain 11) ++ jobEvent .completed (sampleJob 1) ::
        turns 10 (plain 5)) (opened .empty)).any (fun world =>
        decide (0 < writesAs .retryOrFail world.trace "1" ∧ startFailures world.trace "1" = 0) &&
        world.state.table.rows.any fun row =>
          decide (row.id = "1" ∧ row.status = .completed)) = true := by decide +kernel
  obtain ⟨world, reaches, found⟩ := Machine.reaches_any ran
  simp only [Bool.and_eq_true, decide_eq_true_eq, List.any_eq_true] at found
  obtain ⟨⟨given, unfailed⟩, row, here, named, completed⟩ := found
  have fresh : Unstarted .empty "1" := by
    intro row member
    cases member
  exact ⟨world, row, reaches, here, named, given, unfailed,
    (retried_start_outcome fresh reaches here named (.inl completed)).mpr unfailed⟩

/-- The first start fails and is retried: goroutine 4 starts the runner, which
goroutine 5 watches. -/
def untilRestarted : List RunnerMove :=
  untilStart ++ turns 2 ({ started := .error { message := "status 503" } } :: plain 6) ++
    .start (.processQueuedRequests 1) :: turns 3 (plain 1 ++ { now := 100 * second } :: plain 2) ++
    turns 4 (plain 10 ++ { job := .ok (sampleJob 1) } :: plain 3 ++ startedAs "sbx" :: plain 4)

/-- The job completes and the runner exits cleanly, but the request has failed. -/
theorem retried_start_judged_failed :
    ¬∀ (server : Server) (world : RunnerWorld) (row : RunnerRequestRecord),
      (machine server).Reaches
        (fun world move => watched server (startGuard "1") world move = true)
        (opened .empty) world →
      handled world (completionOf 1) = true → handled world (exitOfRequest "1") = true →
      row ∈ world.state.table.rows → row.id = "1" →
      cleanlyCompleted row.toRunnerState = true := by
  intro always
  have ran : ((machine sampleServer).runChecked (watched sampleServer (startGuard "1"))
      (untilRestarted ++ jobEvent .completed (sampleJob 1) :: turns 6 (plain 11) ++
        turns 5 (plain 5)) (opened .empty)).any (fun world =>
        handled world (completionOf 1) && handled world (exitOfRequest "1") &&
        world.state.table.rows.any fun row =>
          decide (row.id = "1") && !cleanlyCompleted row.toRunnerState) = true := by decide +kernel
  obtain ⟨world, reaches, found⟩ := Machine.reaches_any ran
  simp only [Bool.and_eq_true, decide_eq_true_eq, List.any_eq_true, Bool.not_eq_true'] at found
  obtain ⟨⟨completed, exited⟩, row, here, named, judged⟩ := found
  have clean := always sampleServer world row reaches completed exited here named
  rw [judged] at clean
  cases clean

end Starts

section Stops

/-- The writes of a request whose job ends and whose stop is retried until it
succeeds. -/
def stopScript : Writer → Bool
  | .markInProgress | .markJobStarted | .stopAssignment | .stopStopping | .stopRetry
  | .stopCleanupRetry | .stopFinished => true
  | _ => false

def stopGuard (id : String) (_ : RunnerWorld) (_ : RunnerThread) : Answered → Bool
  | ⟨.writeState writer st, .ok ()⟩ => sanitizeID st.id != id || stopScript writer
  | ⟨.retryRequest other _, .ok _⟩ => sanitizeID other != id
  | _ => true

def stopAccount (id : String) : Account id where
  count trace := stopRetries trace id
  blank := rfl
  still := by
    rintro ⟨tid, task, ⟨op, resp⟩⟩ trace unwritten
    simp only [stopRetries, writesAs, List.countP_cons]
    cases op with
    | writeState writer st =>
        cases resp with
        | error err => rfl
        | ok done => simp_all [rewrites, wroteAs]
    | _ => rfl

/-- A rescheduled stop leaves its stage in the request; a rescheduled cleanup
leaves one that the stop excuses. -/
structure Judged (retries : Nat) (c : Core) : Prop where
  excused : retries = 0 → c.status ≠ .failed ∧ (c.failureStage = "" ∨ c.failureStage = "cleanup")
  cleared : c.status = .completed → c.failureStage = "" ∧ c.failureReason = "" ∧ c.error = ""
  marked : 0 < retries → c.status ≠ .completed ∧ c.failureStage = "stop"

variable {server : Server} {past : List Answered}

theorem judged_stopping {retries : Nat} {c d : Core} (judged : Judged retries c)
    (status : d.status = .stopping)
    (stage : d.failureStage = c.failureStage ∨ (c.failureStage = "" ∧ d.failureStage = "cleanup")) :
    Judged retries d := by
  constructor
  · intro none
    refine ⟨by simp [status], ?_⟩
    rcases stage with same | ⟨_, cleanup⟩
    · rw [same]
      exact (judged.excused none).2
    · exact .inr cleanup
  · intro completed
    rw [status] at completed
    cases completed
  · intro some
    refine ⟨by simp [status], ?_⟩
    obtain ⟨_, stopped⟩ := judged.marked some
    rcases stage with same | ⟨empty, _⟩
    · exact same.trans stopped
    · rw [stopped] at empty
      exact absurd empty (by decide)

theorem scheduleStopRetry_core {cfg : Config} {now : Time} {st next : RunnerState} {err : GoError}
    (scheduled : scheduleStopRetry cfg now st err = some next) :
    next.status = .stopping ∧ next.failureStage = "stop" := by
  unfold scheduleStopRetry at scheduled
  dsimp only at scheduled
  split at scheduled
  · cases scheduled
  · cases scheduled
    exact ⟨rfl, rfl⟩

theorem scheduleCleanupRetry_core {cfg : Config} {now : Time} {st next : RunnerState} {err : GoError}
    (scheduled : scheduleCleanupRetry cfg now st err = some next) :
    next.status = .stopping ∧ (next.failureStage = st.failureStage ∨
      (st.failureStage = "" ∧ next.failureStage = "cleanup")) := by
  have result (code : String) (retryCount : Nat)
      (same : some (cleanupRetryState cfg now st code err retryCount) = some next) :
      next.status = .stopping ∧ (next.failureStage = st.failureStage ∨
        (st.failureStage = "" ∧ next.failureStage = "cleanup")) := by
    cases same
    refine ⟨rfl, ?_⟩
    by_cases empty : st.failureStage = ""
    · exact .inr ⟨empty, by simp [cleanupRetryState, empty]⟩
    · exact .inl (by simp [cleanupRetryState, empty])
  unfold scheduleCleanupRetry at scheduled
  dsimp only at scheduled
  split at scheduled
  · cases scheduled
  · split at scheduled
    · exact result _ _ scheduled
    · split at scheduled
      · cases scheduled
      · exact result _ _ scheduled

theorem judged_edit {writer : Writer} {base st : RunnerState} {retries : Nat}
    (edit : Edit server past writer base st) (script : stopScript writer = true)
    (judged : Judged retries (core base)) :
    Judged (retries + if writer = .stopRetry then 1 else 0) (core st) := by
  have kept (same : core st = core base) : Judged retries (core st) := same ▸ judged
  cases edit with
  | markInProgress reads unstopped job => exact kept rfl
  | markJobStarted reads unstopped => exact kept rfl
  | stopAssignment completed job => exact kept rfl
  | stopStopping locked uncompleted job =>
      rw [stopStopping_core]
      exact judged_stopping judged rfl (.inl rfl)
  | stopRetry stopping scheduled =>
      obtain ⟨status, stage⟩ := scheduleStopRetry_core scheduled
      constructor
      · intro none
        simp at none
      · intro completed
        exact absurd (status.symm.trans completed) nofun
      · intro _
        refine ⟨?_, stage⟩
        change st.status ≠ .completed
        rw [status]
        exact nofun
  | stopCleanupRetry ends scheduled =>
      obtain ⟨status, stage⟩ := scheduleCleanupRetry_core scheduled
      exact judged_stopping judged status stage
  | stopFinished ends now =>
      obtain ⟨failed, completed⟩ := stopFinished_core base now
      rcases Nat.eq_zero_or_pos retries with none | some
      · rw [completed (judged.excused none).2]
        refine ⟨fun _ => ⟨nofun, .inl rfl⟩, fun _ => ⟨rfl, rfl, rfl⟩, ?_⟩
        intro some
        simp [none] at some
      · have stage : base.failureStage = "stop" := (judged.marked some).2
        rw [failed (by simp [stage])]
        refine ⟨?_, nofun, fun _ => ⟨nofun, stage⟩⟩
        intro none
        simp at none
        omega
  | _ => cases script

/-- The request is running and no failure is recorded for it. -/
def Running (table : RequestTable) (id : String) : Prop :=
  ∃ row ∈ table.rows, row.id = id ∧ row.status = .running ∧ row.failureStage = ""

theorem judged_reachable {world : RunnerWorld} {table : RequestTable} {id : String}
    (running : Running table id)
    (reaches : (machine server).Reaches
      (fun world move => watched server (stopGuard id) world move = true) (opened table) world) :
    ∀ row ∈ world.state.table.rows, row.id = id →
      Judged (stopRetries world.trace id) (rowCore row) := by
  obtain ⟨first, present, named, status, stage⟩ := running
  refine account_reachable (stopAccount id) Judged ?_ ?_ ?_ ?_ reaches
  · intro row member same
    cases table.same_row member present (same.trans named.symm)
    refine ⟨fun _ => ⟨?_, .inl stage⟩, ?_, nofun⟩
    · change first.status ≠ .failed
      rw [status]
      exact nofun
    · intro completed
      exact absurd (status.symm.trans completed) nofun
  · rintro world thread now req links status stage reason message st ⟨_, before⟩ absent
    obtain ⟨next, there, same⟩ := row_stays before present
    exact absurd (same.trans named) (absent next there)
  · intro world tid thread other at_ st row guard same
    simp [stopGuard, same] at guard
  · intro world tid thread writer base st guard key edit judged
    have counted : (stopAccount id).count
        (eventOf tid thread (.writeState writer st) (.ok ()) :: world.trace) =
          (stopAccount id).count world.trace + if writer = .stopRetry then 1 else 0 := by
      simp [stopAccount, stopRetries, writesAs, List.countP_cons, wroteAs, key]
    rw [counted]
    exact judged_edit edit (by simpa [stopGuard, key] using guard) judged

/-- Along the scripted runs a stopped request ends cleanly completed exactly if
no stop error was rescheduled; rescheduled cleanups do not matter. -/
theorem retried_stop_outcome {world : RunnerWorld} {table : RequestTable} {id : String}
    (running : Running table id)
    (reaches : (machine server).Reaches
      (fun world move => watched server (stopGuard id) world move = true) (opened table) world)
    {row : RunnerRequestRecord} (here : row ∈ world.state.table.rows) (named : row.id = id)
    (ended : row.status = .completed ∨ row.status = .failed) :
    cleanlyCompleted row.toRunnerState = true ↔ stopRetries world.trace id = 0 := by
  have judged := judged_reachable running reaches row here named
  simp only [cleanlyCompleted, Bool.and_eq_true, beq_iff_eq, and_assoc]
  constructor
  · rintro ⟨completed, _⟩
    by_contra some
    exact (judged.marked (Nat.pos_of_ne_zero some)).1 completed
  · intro none
    have completed := ended.resolve_right (judged.excused none).1
    exact ⟨completed, judged.cleared completed⟩

def runningTable : RequestTable where
  rows := [{
    id := "1"
    status := .running
    sandboxID := "sbx"
    repositoryFullName := "owner/repo"
    runnerName := "e2b-1"
    workflowJobID := 1
    version := 1 }]
  primaryKey := by decide
  jobIndex := by decide
  sanitized := by decide

def unavailable : GoError := { message := "status 503" }

/-- The sweeper, goroutine 1, takes up the stop after its timeout and succeeds. -/
def sweptStop : List RunnerMove :=
  .start .sweepOnce :: turns 1 (plain 1 ++ { now := 61 * second } :: plain 11)

/-- GitHub refuses the cleanup once. -/
theorem retried_stop_outcome_cleanup :
    ∃ world row, Running runningTable "1" ∧ (machine sampleServer).Reaches
        (fun world move => watched sampleServer (stopGuard "1") world move = true)
        (opened runningTable) world ∧ row ∈ world.state.table.rows ∧ row.id = "1" ∧
      0 < writesAs .stopCleanupRetry world.trace "1" ∧
      cleanlyCompleted row.toRunnerState = true := by
  have ran : ((machine sampleServer).runChecked (watched sampleServer (stopGuard "1"))
      (jobEvent .completed (sampleJob 1) :: turns 0 (plain 6 ++ { removed := some unavailable } ::
        plain 3) ++ sweptStop) (opened runningTable)).any (fun world =>
        decide (0 < writesAs .stopCleanupRetry world.trace "1" ∧
          stopRetries world.trace "1" = 0) &&
        world.state.table.rows.any fun row =>
          decide (row.id = "1" ∧ row.status = .completed)) = true := by decide +kernel
  obtain ⟨world, reaches, found⟩ := Machine.reaches_any ran
  simp only [Bool.and_eq_true, decide_eq_true_eq, List.any_eq_true] at found
  obtain ⟨⟨rescheduled, unstopped⟩, row, here, named, completed⟩ := found
  have running : Running runningTable "1" := ⟨_, List.mem_singleton_self _, rfl, rfl, rfl⟩
  exact ⟨world, row, running, reaches, here, named, rescheduled,
    (retried_stop_outcome running reaches here named (.inl completed)).mpr unstopped⟩

/-- The sandbox refuses to stop once; the stop that succeeds judges the request
failed. -/
theorem retried_stop_judged_failed :
    ¬∀ (server : Server) (table : RequestTable) (world : RunnerWorld) (row : RunnerRequestRecord),
      Running table "1" → (machine server).Reaches
        (fun world move => watched server (stopGuard "1") world move = true)
        (opened table) world →
      row ∈ world.state.table.rows → row.id = "1" →
      row.status = .completed ∨ row.status = .failed →
      cleanlyCompleted row.toRunnerState = true := by
  intro always
  have ran : ((machine sampleServer).runChecked (watched sampleServer (stopGuard "1"))
      (jobEvent .completed (sampleJob 1) :: turns 0 (plain 5 ++ { stopped := some unavailable } ::
        plain 3) ++ sweptStop) (opened runningTable)).any (fun world =>
        world.state.table.rows.any fun row => decide (row.id = "1" ∧ row.status = .failed) &&
          !cleanlyCompleted row.toRunnerState) = true := by decide +kernel
  obtain ⟨world, reaches, found⟩ := Machine.reaches_any ran
  simp only [Bool.and_eq_true, decide_eq_true_eq, List.any_eq_true, Bool.not_eq_true'] at found
  obtain ⟨row, here, ⟨named, failed⟩, judged⟩ := found
  have running : Running runningTable "1" := ⟨_, List.mem_singleton_self _, rfl, rfl, rfl⟩
  have clean := always sampleServer runningTable world row running reaches here named (.inr failed)
  rw [judged] at clean
  cases clean

end Stops

end Runnerd
